import SnapshotAudit.Proofs.Wire.Accepting
import SnapshotAudit.Proofs.Wire.RoundTrip

/-!
This module contains what stands at the front of a stream of frames: a header as soon as there are
enough bytes for one, whatever they are.
-/

namespace SnapshotAudit

namespace Decoder

def Takes {α : Type} (decoder : Decoder α) (n : Nat) : Prop :=
  ∀ input : Bytes, n ≤ input.length → ∃ v, decoder input = some (v, input.drop n)

variable {α β : Type} {decoder : Decoder α} {n m : Nat}

theorem Takes.bind (h : decoder.Takes n) {next : α → Decoder β} (hnext : ∀ v, (next v).Takes m)
    : (decoder >>= next).Takes (n + m) := by
  intro input hlength
  obtain ⟨v, hfirst⟩ := h input (by omega)
  obtain ⟨w, hsecond⟩ := hnext v (input.drop n) (by rw [List.length_drop]; omega)
  refine ⟨w, ?_⟩
  change (decoder input).bind (fun (v, rest) => next v rest) = _
  rw [hfirst, ← List.drop_drop]
  exact hsecond

theorem Takes.return {f : α → β} (h : decoder.Takes n)
    : Takes (do return f (← decoder)) n := by
  change Takes _ (n + 0)
  apply h.bind
  intro v input _
  exact ⟨f v, rfl⟩

theorem takes_bytes (n : Nat) : (bytes n).Takes n := by
  intro input hlength
  exact ⟨input.take n, by rw [bytes_eq, if_pos hlength]⟩

end Decoder

namespace FrameHeader

theorem takes_size : decoder.Takes size := by
  change decoder.Takes (2 + (1 + (1 + (4 + 4))))
  apply Decoder.Takes.bind (Decoder.takes_bytes 2).return
  intro magic
  apply Decoder.Takes.bind (Decoder.takes_bytes 1).return
  intro version
  apply Decoder.Takes.bind (Decoder.takes_bytes 1).return
  intro type
  apply Decoder.Takes.bind (Decoder.takes_bytes 4).return
  intro length
  exact (Decoder.takes_bytes 4).return.return

theorem accepts_encode : decoder.Accepts fun header taken => taken = header.encode := by
  apply Decoder.accepts_u16.bind
  rintro magic _ rfl
  apply Decoder.accepts_u8.bind
  rintro version _ rfl
  apply Decoder.accepts_u8.bind
  rintro type _ rfl
  apply Decoder.accepts_u32.bind
  rintro length _ rfl
  apply Decoder.accepts_u32.return
  rintro crc _ rfl
  simp [encode]

theorem exists_encode {input : Bytes} (h : size ≤ input.length)
    : ∃ header : FrameHeader, ∃ rest, input = header.encode ++ rest := by
  obtain ⟨header, hread⟩ := takes_size input h
  obtain ⟨_, hinput, rfl⟩ := accepts_encode input header _ hread
  exact ⟨header, _, hinput⟩

theorem decoder_of_short {input : Bytes} (h : input.length < size) : decoder input = none := by
  rw [Option.eq_none_iff_forall_ne_some]
  rintro ⟨header, rest⟩ hread
  obtain ⟨_, rfl, rfl⟩ := accepts_encode input header rest hread
  rw [List.length_append, length_encode] at h
  omega

end FrameHeader

end SnapshotAudit
