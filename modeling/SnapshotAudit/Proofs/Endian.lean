import Mathlib.Algebra.Group.Nat.Defs
import SnapshotAudit.Endian

/-!
This module contains that numbers and their bytes determine each other: a number comes back from its
bytes as far as there is room for it, and bytes come back from the number that they stand for.
-/

namespace SnapshotAudit

theorem ofLittleEndian_littleEndian (width n : Nat)
    : ofLittleEndian (littleEndian width n) = n % 256 ^ width := by
  induction width generalizing n with
  | zero => simp [littleEndian, ofLittleEndian, Nat.mod_one]
  | succ width ih =>
    have hbyte : n.toUInt8.toNat = n % 256 := by simp
    rw [littleEndian, ofLittleEndian, ih, hbyte, Nat.pow_succ, Nat.mul_comm (256 ^ width) 256,
      Nat.mod_mul]

theorem ofLittleEndian_littleEndian_of_lt {width n : Nat} (h : n < 256 ^ width)
    : ofLittleEndian (littleEndian width n) = n := by
  rw [ofLittleEndian_littleEndian, Nat.mod_eq_of_lt h]

theorem ofLittleEndian_lt (bs : Bytes)
    : ofLittleEndian bs < 256 ^ bs.length := by
  induction bs with
  | nil => decide
  | cons b rest ih =>
    have := b.toNat_lt
    simp only [ofLittleEndian, List.length_cons, Nat.pow_succ]
    omega

theorem ofBigEndian_bigEndian (width n : Nat)
    : ofBigEndian (bigEndian width n) = n % 256 ^ width := by
  simp [ofBigEndian, bigEndian, ofLittleEndian_littleEndian]

theorem littleEndian_ofLittleEndian (bs : Bytes)
    : littleEndian bs.length (ofLittleEndian bs) = bs := by
  induction bs with
  | nil => rfl
  | cons b rest ih =>
    simp only [List.length_cons, ofLittleEndian, littleEndian]
    have hdiv : (b.toNat + 256 * ofLittleEndian rest) / 256 = ofLittleEndian rest := by
      have := b.toNat_lt
      omega
    have hmod : (b.toNat + 256 * ofLittleEndian rest).toUInt8 = b := by
      apply UInt8.toNat_inj.mp
      have := b.toNat_lt
      simp only [Nat.toUInt8_eq, UInt8.toNat_ofNat']
      omega
    rw [hdiv, hmod, ih]

theorem bigEndian_ofBigEndian (bs : Bytes)
    : bigEndian bs.length (ofBigEndian bs) = bs := by
  have h := littleEndian_ofLittleEndian bs.reverse
  simp only [List.length_reverse] at h
  simp [bigEndian, ofBigEndian, h]

end SnapshotAudit
