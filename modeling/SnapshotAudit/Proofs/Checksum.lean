import Mathlib.Algebra.Group.Nat.Defs
import SnapshotAudit.Checksum

/-!
This module contains why the checksum tells byte strings apart that differ in nothing but four bytes
in a row. The remainder is shifted without loss, and four bytes are as wide as the remainder itself:
from one remainder, different bytes lead to different ones, and no byte that follows brings them
together again.
-/

namespace SnapshotAudit

namespace Crc32

/-!
One shift of the remainder.
-/

theorem shift_eq (r : UInt32)
    : shift r = (r >>> 1) ^^^ (if r.toNat.testBit 0 then polynomial else 0) := by
  have hlow : r &&& 1 = 1 ↔ r.toNat.testBit 0 = true := by
    rw [← UInt32.toNat_inj, UInt32.toNat_and]
    simp [Nat.and_one_is_mod]
  unfold shift
  simp only [hlow]
  split
  next => rfl
  next => simp

theorem shift_xor (a b : UInt32) : shift (a ^^^ b) = shift a ^^^ shift b := by
  simp only [shift_eq, UInt32.shiftRight_xor, UInt32.toNat_xor, Nat.testBit_xor]
  cases a.toNat.testBit 0 <;> cases b.toNat.testBit 0
  . simp
  . simp [UInt32.xor_assoc]
  . simp only [Bool.xor_false, if_true, Bool.false_eq_true, if_false, UInt32.xor_zero]
    ac_rfl
  . -- the polynomial comes in twice and goes out again
    have hcancel : (a >>> 1 ^^^ polynomial) ^^^ (b >>> 1 ^^^ polynomial) =
        (a >>> 1 ^^^ b >>> 1) ^^^ (polynomial ^^^ polynomial) := by
      ac_rfl
    simp [hcancel]

theorem testBit_zero_eq_false_iff {n : Nat} : n.testBit 0 = false ↔ 2 ∣ n := by
  simp [Nat.testBit_zero, Nat.dvd_iff_mod_eq_zero]

theorem toNat_shift_of_even {r : UInt32} (h : 2 ∣ r.toNat) : (shift r).toNat = r.toNat / 2 := by
  simp [shift_eq, testBit_zero_eq_false_iff.mpr h, Nat.shiftRight_eq_div_pow]

theorem eq_zero_of_shift {r : UInt32} (h : shift r = 0) : r = 0 := by
  have hbound := r.toNat_lt
  have hhalf : (r >>> 1).toNat = r.toNat / 2 := by simp [Nat.shiftRight_eq_div_pow]
  cases hlow : r.toNat.testBit 0 with
  | false =>
    have heven : 2 ∣ r.toNat := testBit_zero_eq_false_iff.mp hlow
    have hzero := toNat_shift_of_even heven
    rw [h] at hzero
    apply UInt32.toNat_inj.mp
    simp at hzero ⊢
    omega
  | true =>
    have hpolynomial : r >>> 1 = polynomial := by
      rw [shift_eq, hlow, if_pos rfl] at h
      exact UInt32.xor_eq_zero_iff.mp h
    -- the polynomial has the highest bit, which nothing has after a shift
    rw [hpolynomial] at hhalf
    have : polynomial.toNat = 3988292384 := rfl
    omega

theorem eq_of_shift {a b : UInt32} (h : shift a = shift b) : a = b := by
  apply UInt32.xor_eq_zero_iff.mp
  apply eq_zero_of_shift
  rw [shift_xor, h, UInt32.xor_self]

/-!
Many shifts.
-/

theorem repeat_shift_xor (n : Nat) (a b : UInt32)
    : Nat.repeat shift n (a ^^^ b) = Nat.repeat shift n a ^^^ Nat.repeat shift n b := by
  induction n with
  | zero => rfl
  | succ n ih => simp only [Nat.repeat, ih, shift_xor]

theorem eq_of_repeat_shift {n : Nat} {a b : UInt32}
    (h : Nat.repeat shift n a = Nat.repeat shift n b) : a = b := by
  induction n with
  | zero => exact h
  | succ n ih => exact ih (eq_of_shift h)

theorem repeat_shift_add (m n : Nat) (r : UInt32)
    : Nat.repeat shift m (Nat.repeat shift n r) = Nat.repeat shift (m + n) r := by
  induction m with
  | zero => simp [Nat.repeat]
  | succ m ih => rw [Nat.succ_add, Nat.repeat, Nat.repeat, ih]

theorem toNat_repeat_shift {n : Nat} {r : UInt32} (h : 2 ^ n ∣ r.toNat)
    : (Nat.repeat shift n r).toNat = r.toNat / 2 ^ n := by
  induction n with
  | zero => simp [Nat.repeat]
  | succ n ih =>
    obtain ⟨m, hm⟩ := h
    have hinner : (Nat.repeat shift n r).toNat = 2 * m := by
      rw [ih ⟨2 * m, by rw [hm, Nat.pow_succ, Nat.mul_assoc]⟩, hm, Nat.pow_succ, Nat.mul_assoc]
      exact Nat.mul_div_cancel_left _ (Nat.two_pow_pos n)
    rw [Nat.repeat, toNat_shift_of_even ⟨m, hinner⟩, hinner, hm,
      Nat.mul_div_cancel_left _ (by decide), Nat.mul_div_cancel_left _ (Nat.two_pow_pos _)]

theorem repeat_shift_shiftLeft {r : UInt32} (h : r.toNat < 2 ^ 24)
    : Nat.repeat shift 8 (r <<< 8) = r := by
  have hleft : (r <<< 8).toNat = r.toNat * 2 ^ 8 := by
    rw [UInt32.toNat_shiftLeft]
    simp [Nat.shiftLeft_eq]
    omega
  apply UInt32.toNat_inj.mp
  rw [toNat_repeat_shift ⟨r.toNat, by rw [hleft, Nat.mul_comm]⟩, hleft,
    Nat.mul_div_cancel _ (by decide)]

/-!
Up to four bytes are absorbed as one word.
-/

def word (bs : Bytes) : UInt32 :=
  match bs with
  | [] => 0
  | b :: rest => b.toUInt32 ^^^ word rest <<< 8

theorem word_lt {bs : Bytes} (h : bs.length ≤ 4) : (word bs).toNat < 2 ^ (8 * bs.length) := by
  induction bs with
  | nil => simp [word]
  | cons b rest ih =>
    simp only [List.length_cons] at h ⊢
    have hrest := ih (by omega)
    have hpow : 2 ^ (8 * (rest.length + 1)) = 2 ^ (8 * rest.length) * 256 := by
      rw [Nat.mul_succ, Nat.pow_add]
    have hbyte : b.toUInt32.toNat < 2 ^ (8 * (rest.length + 1)) := by
      have := b.toNat_lt
      have := Nat.two_pow_pos (8 * rest.length)
      rw [UInt8.toNat_toUInt32]
      omega
    have hleft : (word rest <<< 8).toNat < 2 ^ (8 * (rest.length + 1)) := by
      rw [UInt32.toNat_shiftLeft]
      apply Nat.lt_of_le_of_lt (Nat.mod_le _ _)
      simp [Nat.shiftLeft_eq]
      omega
    rw [word, UInt32.toNat_xor]
    exact Nat.xor_lt_two_pow hbyte hleft

theorem word_lt_of_three {bs : Bytes} (h : bs.length ≤ 3) : (word bs).toNat < 2 ^ 24 :=
  Nat.lt_of_lt_of_le (word_lt (by omega)) (Nat.pow_le_pow_right (by decide) (by omega))

theorem eq_of_word {as bs : Bytes} (hlength : as.length = bs.length) (hfour : as.length ≤ 4)
    (h : word as = word bs) : as = bs := by
  induction as generalizing bs with
  | nil => exact (List.length_eq_zero_iff.mp hlength.symm).symm
  | cons a as ih =>
    cases bs with
    | nil => cases hlength
    | cons b bs =>
      simp only [List.length_cons, Nat.add_right_cancel_iff] at hlength hfour
      -- the first byte is all that is left of the word when it is cut to eight bits
      have hbyte (c : UInt8) (r : UInt32) : (c.toUInt32 ^^^ r <<< 8).toUInt8 = c := by
        have hlow : (r <<< 8).toUInt8 = 0 := by
          apply UInt8.toNat_inj.mp
          rw [UInt32.toNat_toUInt8, UInt32.toNat_shiftLeft]
          simp [Nat.shiftLeft_eq]
        rw [UInt32.toUInt8_xor, hlow]
        simp
      obtain rfl : a = b := by
        have hfirst := congrArg UInt32.toUInt8 h
        rwa [word, word, hbyte, hbyte] at hfirst
      have hrest : word as <<< 8 = word bs <<< 8 := (UInt32.xor_right_inj _).mp h
      have hword : word as = word bs := by
        rw [← repeat_shift_shiftLeft (word_lt_of_three (by omega)), hrest,
          repeat_shift_shiftLeft (word_lt_of_three (by omega))]
      rw [ih hlength (by omega) hword]

/--
Up to four bytes are absorbed as the word that they make.
-/
theorem absorbAll_eq (r : UInt32) {bs : Bytes} (h : bs.length ≤ 4)
    : absorbAll r bs = Nat.repeat shift (8 * bs.length) (r ^^^ word bs) := by
  induction bs generalizing r with
  | nil => simp [absorbAll, word, Nat.repeat]
  | cons b rest ih =>
    simp only [List.length_cons] at h
    calc absorbAll r (b :: rest)
      _ = absorbAll (absorb r b) rest := rfl
      _ = Nat.repeat shift (8 * rest.length) (absorb r b ^^^ word rest) := ih _ (by omega)
      _ = Nat.repeat shift (8 * rest.length)
            (Nat.repeat shift 8 (r ^^^ b.toUInt32 ^^^ word rest <<< 8)) := by
        rw [repeat_shift_xor 8, repeat_shift_shiftLeft (word_lt_of_three (by omega))]
        rfl
      _ = Nat.repeat shift (8 * (b :: rest).length) (r ^^^ word (b :: rest)) := by
        rw [repeat_shift_add, UInt32.xor_assoc]
        rfl

/-!
Remainders that differ stay different.
-/

theorem eq_of_absorbAll {r s : UInt32} {bs : Bytes} (h : absorbAll r bs = absorbAll s bs)
    : r = s := by
  induction bs generalizing r s with
  | nil => exact h
  | cons b rest ih => exact (UInt32.xor_left_inj _).mp (eq_of_repeat_shift (ih h))

theorem eq_of_absorbAll_word {r : UInt32} {as bs : Bytes} (hlength : as.length = bs.length)
    (hfour : as.length ≤ 4) (h : absorbAll r as = absorbAll r bs) : as = bs := by
  rw [absorbAll_eq r hfour, absorbAll_eq r (hlength ▸ hfour), hlength] at h
  exact eq_of_word hlength hfour ((UInt32.xor_right_inj _).mp (eq_of_repeat_shift h))

end Crc32

structure DifferWithin (width start : Nat) (as bs : Bytes) : Prop where
  length_eq : as.length = bs.length
  same : ∀ k, k < start ∨ start + width ≤ k → as[k]? = bs[k]?

namespace DifferWithin

variable {width start n : Nat} {as bs : Bytes}

theorem take (h : DifferWithin width start as bs) (n : Nat)
    : DifferWithin width start (as.take n) (bs.take n) where
  length_eq := by rw [List.length_take, List.length_take, h.length_eq]
  same k hk := by rw [List.getElem?_take, List.getElem?_take, h.same k hk]

theorem take_eq (h : DifferWithin width start as bs) (hn : n ≤ start)
    : as.take n = bs.take n := by
  apply List.ext_getElem?
  intro k
  rw [List.getElem?_take, List.getElem?_take]
  split
  next hk => exact h.same k (.inl (Nat.lt_of_lt_of_le hk hn))
  next => rfl

theorem drop_eq (h : DifferWithin width start as bs) (hn : start + width ≤ n)
    : as.drop n = bs.drop n := by
  apply List.ext_getElem?
  intro k
  rw [List.getElem?_drop, List.getElem?_drop]
  exact h.same _ (.inr (by omega))

theorem iff_parts
    : DifferWithin width start as bs ↔ as.length = bs.length ∧ as.take start = bs.take start ∧
        as.drop (start + width) = bs.drop (start + width) := by
  constructor
  . exact fun h => ⟨h.length_eq, h.take_eq (Nat.le_refl _), h.drop_eq (Nat.le_refl _)⟩
  . rintro ⟨hlength, hfront, hback⟩
    refine ⟨hlength, fun k hk => ?_⟩
    cases hk with
    | inl hbefore =>
      rw [← List.getElem?_take_of_lt hbefore, hfront, List.getElem?_take_of_lt hbefore]
    | inr hbehind =>
      obtain ⟨offset, rfl⟩ := Nat.exists_eq_add_of_le hbehind
      rw [← List.getElem?_drop, hback, List.getElem?_drop]

instance : Decidable (DifferWithin width start as bs) :=
  decidable_of_iff _ iff_parts.symm

end DifferWithin

theorem take_window_append (width start : Nat) (bs : Bytes)
    : bs.take start ++ (bs.drop start).take width ++ bs.drop (start + width) = bs := by
  rw [← List.drop_drop, List.append_assoc, List.take_append_drop, List.take_append_drop]

/--
No two byte strings that differ in nothing but four bytes in a row have the same checksum.
-/
theorem eq_of_crc32 {start : Nat} {as bs : Bytes} (h : DifferWithin 4 start as bs)
    (hcrc : crc32 as = crc32 bs) : as = bs := by
  have hfront := h.take_eq (Nat.le_refl start)
  have hback := h.drop_eq (Nat.le_refl (start + 4))
  have hremainder := UInt32.not_inj.mp hcrc
  rw [← take_window_append 4 start as, ← take_window_append 4 start bs, hfront, hback,
    Crc32.absorbAll_append, Crc32.absorbAll_append, Crc32.absorbAll_append,
    Crc32.absorbAll_append] at hremainder
  have hwindow : (as.drop start).take 4 = (bs.drop start).take 4 := by
    apply Crc32.eq_of_absorbAll_word _ _ (Crc32.eq_of_absorbAll hremainder)
    . rw [List.length_take, List.length_take, List.length_drop, List.length_drop, h.length_eq]
    . exact List.length_take_le _ _
  rw [← take_window_append 4 start as, hfront, hwindow, hback, take_window_append]

end SnapshotAudit
