import SnapshotAudit.Proofs.Endian
import SnapshotAudit.Wire.Primitive

/-!
This module contains when a reader reads what a writer has written: whatever comes behind it, it
takes exactly the written bytes, and it refuses them when any are missing at the end. Readers that
are put together from such readers are of this kind again, so that this follows the form of a
message.
-/

namespace SnapshotAudit

def Encode.Fits (n : Nat) : Prop :=
  n < 2 ^ 32
deriving Decidable

namespace Decoder

/--
A reader reads a value from the bytes that were written for it, and from no fewer.
-/
structure Reads {α : Type} (decoder : Decoder α) (written : Bytes) (v : α) : Prop where
  whole : ∀ rest, decoder (written ++ rest) = some (v, rest)
  cut : ∀ front missing, front ++ missing = written → missing ≠ [] → decoder front = none

section Combine

variable {α β : Type} {decoder : Decoder α} {written : Bytes} {v : α}

theorem Reads.pure (v : α) : Reads (pure v) [] v where
  whole _ := rfl
  cut _ _ h hmissing := absurd (List.append_eq_nil_iff.mp h).2 hmissing

theorem Reads.bind (h : decoder.Reads written v) {next : α → Decoder β} {behind : Bytes} {w : β}
    (hnext : (next v).Reads behind w) : (decoder >>= next).Reads (written ++ behind) w where
  whole rest := by
    change (decoder (written ++ behind ++ rest)).bind (fun (v, rest) => next v rest) = _
    rw [List.append_assoc, h.whole]
    exact hnext.whole rest
  cut front missing hfront hmissing := by
    change (decoder front).bind (fun (v, rest) => next v rest) = none
    rcases List.append_eq_append_iff.mp hfront with ⟨lost, hwritten, hlost⟩ | ⟨found, rfl, hbehind⟩
    . cases lost with
      | nil =>
        -- all of the first value is there, and nothing behind it
        obtain rfl : front = written := by simpa using hwritten.symm
        have hwhole := h.whole []
        rw [List.append_nil] at hwhole
        rw [hwhole]
        exact hnext.cut [] missing (by simpa using hlost) hmissing
      | cons b lost => rw [h.cut front (b :: lost) hwritten.symm (by simp)]; rfl
    . rw [h.whole]
      exact hnext.cut found missing hbehind.symm hmissing

theorem Reads.return {β : Type} {f : α → β} (h : decoder.Reads written v)
    : Reads (do return f (← decoder)) written (f v) := by
  rw [← List.append_nil written]
  exact h.bind (Reads.pure (f v))

theorem Reads.require {holds : Bool} (h : holds = true) : Reads (require holds) [] () where
  whole rest := by simp [Decoder.require, h]
  cut _ _ heq hmissing := absurd (List.append_eq_nil_iff.mp heq).2 hmissing

theorem Reads.lift {o : Option α} (h : o = some v) : Reads (liftM o) [] v := by
  rw [h]
  exact Reads.pure v

theorem Reads.times {encode : α → Bytes} {vs : List α}
    (h : ∀ v ∈ vs, decoder.Reads (encode v) v)
    : (times decoder vs.length).Reads (vs.flatMap encode) vs := by
  induction vs with
  | nil => exact Reads.pure []
  | cons v vs ih =>
    have htail := ih fun w hw => h w (List.mem_cons_of_mem v hw)
    rw [List.length_cons, times_succ]
    exact (h v List.mem_cons_self).bind htail.return

end Combine

/-!
The readers of words, texts and lists.
-/

theorem reads_bytes (bs : Bytes) : (bytes bs.length).Reads bs bs where
  whole rest := by simp [bytes_eq]
  cut front missing h hmissing := by
    have hlength : front.length < bs.length := by
      have := List.length_pos_iff.mpr hmissing
      simp only [← h, List.length_append]
      omega
    rw [bytes_eq, if_neg (by omega)]

theorem reads_word {α : Type} (word : Nat → α) (width : Nat) {n : Nat} (hn : n < 256 ^ width)
    : Reads (do return word (ofBigEndian (← bytes width))) (bigEndian width n) (word n) := by
  have hbytes := reads_bytes (bigEndian width n)
  rw [length_bigEndian] at hbytes
  have hword := hbytes.return (f := fun bs => word (ofBigEndian bs))
  rwa [ofBigEndian_bigEndian, Nat.mod_eq_of_lt hn] at hword

theorem reads_u8 (v : UInt8) : u8.Reads (Encode.u8 v) v := by
  have hword := reads_word Nat.toUInt8 1 v.toNat_lt
  rw [Nat.toUInt8_eq, UInt8.ofNat_toNat] at hword
  have hbyte : bigEndian 1 v.toNat = [v] := by simp [bigEndian, littleEndian]
  rwa [hbyte] at hword

theorem reads_u16 (v : UInt16) : u16.Reads (Encode.u16 v) v := by
  have hword := reads_word Nat.toUInt16 2 v.toNat_lt
  rwa [Nat.toUInt16_eq, UInt16.ofNat_toNat] at hword

theorem reads_u32 (v : UInt32) : u32.Reads (Encode.u32 v) v := by
  have hword := reads_word Nat.toUInt32 4 v.toNat_lt
  rwa [Nat.toUInt32_eq, UInt32.ofNat_toNat] at hword

theorem reads_u64 (v : UInt64) : u64.Reads (Encode.u64 v) v := by
  have hword := reads_word Nat.toUInt64 8 v.toNat_lt
  rwa [Nat.toUInt64_eq, UInt64.ofNat_toNat] at hword

theorem reads_i32 (v : Int32) : i32.Reads (Encode.i32 v) v :=
  (reads_u32 v.toUInt32).return

theorem reads_flag (v : Bool) : flag.Reads (Encode.flag v) v := by
  have hflag := (reads_u8 (if v then 1 else 0)).return (f := fun b => b != 0)
  cases v <;> exact hflag

theorem toNat_count {n : Nat} (h : Encode.Fits n) : n.toUInt32.toNat = n := by
  simpa [Encode.Fits] using h

theorem reads_text {t : Text} (h : Encode.Fits t.length) : text.Reads (Encode.text t) t := by
  refine (reads_u32 t.length.toUInt32).bind ?_
  rw [toNat_count h]
  exact reads_bytes t

theorem reads_list {α : Type} {decoder : Decoder α} {encode : α → Bytes} {vs : List α}
    (h : Encode.Fits vs.length) (helement : ∀ v ∈ vs, decoder.Reads (encode v) v)
    : (list decoder).Reads (Encode.list encode vs) vs := by
  refine (reads_u32 vs.length.toUInt32).bind ?_
  rw [toNat_count h]
  exact Reads.times helement

end Decoder

/--
A value is read back from the bytes that were written for it, and neither when some of them are
missing at the end nor when more follow.
-/
structure Exact {α : Type} (decode? : Bytes → Option α) (written : Bytes) (v : α) : Prop where
  whole : decode? written = some v
  cut : ∀ front missing, front ++ missing = written → missing ≠ [] → decode? front = none
  extended : ∀ more, more ≠ [] → decode? (written ++ more) = none

theorem Decoder.Reads.exact {α : Type} {decoder : Decoder α} {written : Bytes} {v : α}
    (h : decoder.Reads written v) : Exact decoder.all written v where
  whole := by
    have hwhole := h.whole []
    rw [List.append_nil] at hwhole
    simp [Decoder.all, hwhole]
  cut front missing hfront hmissing := by
    simp [Decoder.all, h.cut front missing hfront hmissing]
  extended more hmore := by
    obtain ⟨b, rest, rfl⟩ := List.exists_cons_of_ne_nil hmore
    simp [Decoder.all, h.whole]

end SnapshotAudit
