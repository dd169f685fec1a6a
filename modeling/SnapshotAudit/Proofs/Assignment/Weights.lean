import Mathlib.Data.FinEnum
import Mathlib.Data.Fintype.EquivFin
import SnapshotAudit.Assignment

/-!
This module contains which weights are equal. Scattering a word loses nothing of it, so the weights
of two nodes for one partition are equal only if the checksums of the two ids are, and one node has
every weight for exactly one group and partition.
-/

namespace SnapshotAudit

namespace Rendezvous

/-!
Every step of scattering a word can be undone.
-/

theorem eq_zero_of_shiftRight {x k : UInt64} (hk : k.toNat % 64 ≠ 0) (h : x >>> k = x) : x = 0 := by
  have hdiv : x.toNat / 2 ^ (k.toNat % 64) = x.toNat := by
    rw [← Nat.shiftRight_eq_div_pow, ← UInt64.toNat_shiftRight, h]
  apply UInt64.toNat_inj.mp
  by_contra hne
  have hpow : 1 < 2 ^ (k.toNat % 64) := Nat.one_lt_two_pow hk
  have hless := Nat.div_lt_self (Nat.pos_of_ne_zero hne) hpow
  omega

/--
Bits that are folded onto lower ones can be told from the highest one down.
-/
theorem eq_of_xor_shiftRight {x y k : UInt64} (hk : k.toNat % 64 ≠ 0)
    (h : x ^^^ (x >>> k) = y ^^^ (y >>> k)) : x = y := by
  apply UInt64.xor_eq_zero_iff.mp
  apply eq_zero_of_shiftRight hk
  calc (x ^^^ y) >>> k
      = (x >>> k) ^^^ (y >>> k) := UInt64.shiftRight_xor
    _ = x ^^^ (x ^^^ (x >>> k)) ^^^ (y >>> k) := by
      rw [← UInt64.xor_assoc, UInt64.xor_self, UInt64.zero_xor]
    _ = x ^^^ (y ^^^ (y >>> k)) ^^^ (y >>> k) := by rw [h]
    _ = x ^^^ y := by simp [UInt64.xor_assoc]

theorem eq_of_mul {x y factor : UInt64} (inverse : UInt64) (unit : factor * inverse = 1)
    (h : x * factor = y * factor) : x = y := by
  have hmul := congrArg (· * inverse) h
  simpa only [UInt64.mul_assoc, unit, UInt64.mul_one] using hmul

theorem mix_injective : Function.Injective mix := by
  intro x y h
  unfold mix at h
  replace h := eq_of_xor_shiftRight (by decide) h
  replace h := eq_of_mul 0x319642b2d24d8ec3 (by decide) h
  replace h := eq_of_xor_shiftRight (by decide) h
  replace h := eq_of_mul 0x96de1b173f119089 (by decide) h
  replace h := eq_of_xor_shiftRight (by decide) h
  exact (UInt64.add_left_inj _).mp h

theorem mix_bijective : Function.Bijective mix :=
  Finite.injective_iff_bijective.mp mix_injective

/-!
A group and a partition make up a word.
-/

theorem toNat_slot (group : Int32) (partition : UInt32)
    : (slot group partition).toNat = group.toUInt32.toNat * 2 ^ 32 + partition.toNat := by
  have hgroup := group.toUInt32.toNat_lt
  have hpartition := partition.toNat_lt
  have hshift : (group.toUInt32.toUInt64 <<< 32).toNat = group.toUInt32.toNat <<< 32 := by
    rw [UInt64.toNat_shiftLeft, UInt32.toNat_toUInt64]
    apply Nat.mod_eq_of_lt
    simp only [UInt64.reduceToNat, Nat.reduceMod, Nat.shiftLeft_eq]
    omega
  rw [slot, UInt64.toNat_or, hshift, UInt32.toNat_toUInt64,
    ← Nat.shiftLeft_add_eq_or_of_lt hpartition, Nat.shiftLeft_eq]

theorem slot_bijective
    : Function.Bijective fun place : Int32 × UInt32 => slot place.1 place.2 := by
  constructor
  . rintro ⟨group, partition⟩ ⟨group', partition'⟩ h
    have hnat := congrArg UInt64.toNat h
    simp only [toNat_slot] at hnat
    have hpartition := partition.toNat_lt
    have hpartition' := partition'.toNat_lt
    have hgroups : group.toUInt32 = group'.toUInt32 := UInt32.toNat_inj.mp (by omega)
    have hpartitions : partition = partition' := UInt32.toNat_inj.mp (by omega)
    have hgroup := congrArg UInt32.toInt32 hgroups
    simp only [Int32.toInt32_toUInt32] at hgroup
    rw [hgroup, hpartitions]
  . intro x
    refine ⟨((x >>> 32).toUInt32.toInt32, x.toUInt32), UInt64.toNat_inj.mp ?_⟩
    have hx := x.toNat_lt
    simp only [toNat_slot, UInt32.toUInt32_toInt32, UInt64.toNat_toUInt32, UInt64.toNat_shiftRight,
      UInt64.reduceToNat, Nat.reduceMod, Nat.shiftRight_eq_div_pow]
    omega

/-!
The weights.
-/

/--
Two nodes have the same weight for a partition exactly if their ids have the same checksum, and the
weights of one node for all groups and partitions are all words, each of them once.
-/
theorem weights_apart
    : (∀ (a b : Text) (group : Int32) (partition : UInt32),
        weight a group partition = weight b group partition ↔ crc32 a = crc32 b) ∧
      ∀ node : Text,
        Function.Bijective fun place : Int32 × UInt32 => weight node place.1 place.2 := by
  constructor
  . intro a b group partition
    simp only [weight, mix_injective.eq_iff, UInt64.xor_left_inj, UInt32.toUInt64_inj]
  . intro node
    have hxor : Function.Injective ((crc32 node).toUInt64 ^^^ ·) :=
      fun _ _ h => (UInt64.xor_right_inj _).mp h
    exact mix_bijective.comp ((Finite.injective_iff_bijective.mp hxor).comp slot_bijective)

end Rendezvous

end SnapshotAudit
