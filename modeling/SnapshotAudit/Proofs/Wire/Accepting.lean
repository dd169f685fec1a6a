import Mathlib.Data.List.Forall2
import SnapshotAudit.Proofs.Wire.Reading

/-!
This module contains what the bytes are like that a reader accepts, whatever they are and wherever
they come from. A reader that is put together from others accepts what its parts accept, piece by
piece, so that the argument follows the form of a message.
-/

namespace SnapshotAudit

namespace Decoder

def Accepts {α : Type} (decoder : Decoder α) (P : α → Bytes → Prop) : Prop :=
  ∀ input v rest, decoder input = some (v, rest) → ∃ taken, input = taken ++ rest ∧ P v taken

section Combine

variable {α β : Type} {decoder : Decoder α} {P : α → Bytes → Prop} {Q : β → Bytes → Prop}

theorem Accepts.pure {v : β} (h : Q v []) : Accepts (pure v) Q := by
  intro input w rest hread
  cases hread
  exact ⟨[], rfl, h⟩

theorem Accepts.bind (h : decoder.Accepts P) {next : α → Decoder β}
    (hnext : ∀ v front, P v front → (next v).Accepts fun w behind => Q w (front ++ behind))
    : (decoder >>= next).Accepts Q := by
  intro input w rest hread
  change (decoder input).bind (fun (v, rest) => next v rest) = some (w, rest) at hread
  rw [Option.bind_eq_some_iff] at hread
  obtain ⟨⟨v, middle⟩, hfirst, hsecond⟩ := hread
  obtain ⟨front, rfl, hfront⟩ := h input v middle hfirst
  obtain ⟨behind, rfl, hbehind⟩ := hnext v front hfront middle w rest hsecond
  exact ⟨front ++ behind, (List.append_assoc front behind rest).symm, hbehind⟩

theorem Accepts.return {f : α → β} (h : decoder.Accepts P)
    (hQ : ∀ v taken, P v taken → Q (f v) taken) : Accepts (do return f (← decoder)) Q :=
  h.bind fun v front hfront => Accepts.pure (by simpa using hQ v front hfront)

theorem Accepts.require (holds : Bool)
    : Accepts (require holds) fun _ taken => holds = true ∧ taken = [] := by
  intro input v rest hread
  unfold Decoder.require at hread
  split at hread
  next h =>
    cases hread
    exact ⟨[], rfl, h, rfl⟩
  next => cases hread

theorem Accepts.lift (o : Option α)
    : Accepts (liftM o) fun v taken => o = some v ∧ taken = [] := by
  intro input v rest hread
  cases o with
  | none => cases hread
  | some found =>
    cases hread
    exact ⟨[], rfl, rfl, rfl⟩

theorem Accepts.times (h : decoder.Accepts P) (n : Nat)
    : (times decoder n).Accepts fun vs taken =>
      vs.length = n ∧ ∃ pieces, taken = pieces.flatten ∧ List.Forall₂ P vs pieces := by
  induction n with
  | zero => exact Accepts.pure ⟨rfl, [], rfl, .nil⟩
  | succ n ih =>
    rw [times_succ]
    apply h.bind
    intro v front hfront
    apply ih.return
    rintro vs _ ⟨rfl, pieces, rfl, hpieces⟩
    exact ⟨rfl, front :: pieces, by simp, .cons hfront hpieces⟩

end Combine

/-!
The readers of words, texts and lists.
-/

theorem accepts_bytes (n : Nat)
    : (bytes n).Accepts fun bs taken => bs.length = n ∧ taken = bs := by
  intro input bs rest hread
  rw [bytes_eq] at hread
  split at hread
  next hlength =>
    cases hread
    exact ⟨input.take n, (List.take_append_drop n input).symm, List.length_take_of_le hlength, rfl⟩
  next => cases hread

theorem accepts_word {α : Type} {word : Nat → α} (width : Nat) {number : α → Nat}
    (hword : ∀ n < 256 ^ width, number (word n) = n)
    : Accepts (do return word (ofBigEndian (← bytes width)))
      fun v taken => taken = bigEndian width (number v) := by
  apply (accepts_bytes width).return
  intro bs taken htaken
  obtain ⟨hlength, rfl⟩ := htaken
  have hbytes := bigEndian_ofBigEndian taken
  rw [hlength] at hbytes
  have hbound : ofBigEndian taken < 256 ^ width := by
    have hmod := ofBigEndian_bigEndian width (ofBigEndian taken)
    rw [hbytes] at hmod
    rw [hmod]
    exact Nat.mod_lt _ (Nat.pow_pos (by decide))
  rw [hword _ hbound, hbytes]

theorem accepts_u8 : u8.Accepts fun v taken => taken = Encode.u8 v := by
  have hword := accepts_word 1 (fun _ hn => UInt8.toNat_ofNat_of_lt' hn)
  have hbyte (v : UInt8) : bigEndian 1 v.toNat = [v] := by simp [bigEndian, littleEndian]
  simp only [hbyte] at hword
  exact hword

theorem accepts_u16 : u16.Accepts fun v taken => taken = Encode.u16 v :=
  accepts_word 2 (fun _ hn => UInt16.toNat_ofNat_of_lt' hn)

theorem accepts_u32 : u32.Accepts fun v taken => taken = Encode.u32 v :=
  accepts_word 4 (fun _ hn => UInt32.toNat_ofNat_of_lt' hn)

theorem accepts_u64 : u64.Accepts fun v taken => taken = Encode.u64 v :=
  accepts_word 8 (fun _ hn => UInt64.toNat_ofNat_of_lt' hn)

theorem accepts_i32 : i32.Accepts fun v taken => taken = Encode.i32 v := by
  apply accepts_u32.return
  rintro v _ rfl
  simp [Encode.i32]

theorem accepts_flag : flag.Accepts fun v taken => ∃ b, taken = [b] ∧ v = (b != 0) := by
  apply accepts_u8.return
  rintro b _ rfl
  exact ⟨b, rfl, rfl⟩

theorem accepts_text : text.Accepts fun t taken => taken = Encode.text t := by
  apply accepts_u32.bind
  rintro length _ rfl
  intro input t rest hread
  obtain ⟨taken, hinput, hlength, rfl⟩ := accepts_bytes length.toNat input t rest hread
  exact ⟨taken, hinput, by simp [Encode.text, Encode.count, hlength]⟩

theorem accepts_pieces {α : Type} {decoder : Decoder α} {P : α → Bytes → Prop}
    (h : decoder.Accepts P)
    : (list decoder).Accepts fun vs taken =>
      ∃ pieces, taken = Encode.count vs.length ++ pieces.flatten ∧ List.Forall₂ P vs pieces := by
  apply accepts_u32.bind
  rintro count _ rfl
  intro input vs rest hread
  obtain ⟨_, hinput, hlength, pieces, rfl, hpieces⟩ := h.times count.toNat input vs rest hread
  exact ⟨pieces.flatten, hinput, pieces, by simp [Encode.count, hlength], hpieces⟩

theorem accepts_list {α : Type} {decoder : Decoder α} {encode : α → Bytes}
    (h : decoder.Accepts fun v taken => taken = encode v)
    : (list decoder).Accepts fun vs taken => taken = Encode.list encode vs := by
  intro input vs rest hread
  obtain ⟨taken, hinput, pieces, rfl, hpieces⟩ := accepts_pieces h input vs rest hread
  have hmap : pieces = vs.map encode := by
    clear hinput hread
    induction hpieces with
    | nil => rfl
    | cons hfirst _ ih => rw [hfirst, ih, List.map_cons]
  exact ⟨_, hinput, by simp [hmap, Encode.list, List.flatMap_def]⟩

theorem Accepts.all {α : Type} {decoder : Decoder α} {P : α → Bytes → Prop}
    (h : decoder.Accepts P) {input : Bytes} {v : α} (hread : decoder.all input = some v)
    : P v input := by
  unfold Decoder.all at hread
  split at hread
  next w hw =>
    cases hread
    obtain ⟨taken, rfl, htaken⟩ := h input v [] hw
    simpa using htaken
  next => cases hread

end Decoder

end SnapshotAudit
