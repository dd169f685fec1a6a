import Mathlib.Data.List.Basic
import SnapshotAudit.Proofs.FileTree.Paths
import SnapshotAudit.Snapshot.Descriptor

/-!
This module contains that the names of the files of a snapshot are names, and that no two files get
the same one.
-/

namespace SnapshotAudit

namespace Text

theorem toNat_of_mem_toDigits {n : Nat} {c : Char} (h : c ∈ Nat.toDigits 10 n)
    : 48 ≤ c.toNat ∧ c.toNat ≤ 57 := by
  have hdigit := Nat.isDigit_of_mem_toDigits (by decide) (by decide) h
  simp only [Char.isDigit, Bool.and_eq_true, decide_eq_true_eq, ge_iff_le,
    UInt32.le_iff_toNat_le] at hdigit
  exact hdigit

theorem toNat_digit {n : Nat} {c : Char} (h : c ∈ Nat.toDigits 10 n)
    : c.toNat.toUInt8.toNat = c.toNat := by
  apply UInt8.toNat_ofNat_of_lt'
  have hrange := toNat_of_mem_toDigits h
  have : UInt8.size = 256 := rfl
  omega

theorem mem_decimal {n : Nat} {b : UInt8} (h : b ∈ decimal n) : 48 ≤ b.toNat ∧ b.toNat ≤ 57 := by
  obtain ⟨c, hc, rfl⟩ := List.mem_map.mp h
  rw [toNat_digit hc]
  exact toNat_of_mem_toDigits hc

theorem decimal_injective : Function.Injective decimal := by
  intro n m h
  have hdigits (n : Nat) : (decimal n).map (fun b => Char.ofNat b.toNat) = Nat.toDigits 10 n := by
    rw [decimal, digits, List.map_map]
    conv_rhs => rw [← List.map_id (Nat.toDigits 10 n)]
    apply List.map_congr_left
    intro c hc
    rw [Function.comp_apply, toNat_digit hc, Char.ofNat_toNat, id]
  calc
    n = Nat.ofDigitChars 10 (Nat.toDigits 10 n) 0 := Nat.ofDigitChars_ten_toDigits.symm
    _ = Nat.ofDigitChars 10 (Nat.toDigits 10 m) 0 := by rw [← hdigits n, h, hdigits m]
    _ = m := Nat.ofDigitChars_ten_toDigits

end Text

namespace FileName

open SnapshotAudit.Path

theorem own_of_length {name : Text} (h : 2 < name.length) : isDots name = false := by
  simp only [isDots, Bool.or_eq_false_iff, decide_eq_false_iff_not]
  refine ⟨?_, ?_⟩
  all_goals
    rintro rfl
    exact absurd h (by decide)

variable {node group : Text}

theorem isName_groupData : IsName groupData := by decide

theorem isName_snapshots : IsName snapshots := by decide

theorem partition_eq (p : UInt32)
    : partition p = "part-" ++ (Text.decimal p.toNat ++ ".bin") := by
  simp [partition]

theorem isName_partition (p : UInt32) : IsName (partition p) := by
  have hdecimal : ∀ b : UInt8, b.toNat < 48 → b ∉ Text.decimal p.toNat := by
    intro b hb hmem
    exact absurd (Text.mem_decimal hmem).1 (Nat.not_le_of_lt hb)
  rw [partition_eq]
  refine ⟨List.append_ne_nil_of_left_ne_nil (by decide) _, ?_, ?_⟩
  . rw [List.mem_append, List.mem_append, not_or, not_or]
    exact ⟨by decide, hdecimal separator (by decide), by decide⟩
  . rw [List.mem_append, List.mem_append, not_or, not_or]
    exact ⟨by decide, hdecimal 0 (by decide), by decide⟩

theorem isName_groupDirectory (h : IsName group) : IsName (groupDirectory group) := by
  refine ⟨?_, ?_, ?_⟩
  . simp [groupDirectory, h.nonempty]
  . rw [groupDirectory, List.mem_append, not_or]
    exact ⟨by decide, h.whole⟩
  . rw [groupDirectory, List.mem_append, not_or]
    exact ⟨by decide, h.clean⟩

theorem isName_metafile (h : IsName node) : IsName (metafile node) := by
  refine ⟨?_, ?_, ?_⟩
  . simp [metafile, h.nonempty]
  . rw [metafile, List.mem_append, not_or]
    exact ⟨h.whole, by decide⟩
  . rw [metafile, List.mem_append, not_or]
    exact ⟨h.clean, by decide⟩

/-!
None of them leads to a directory on the way to itself or back.
-/

theorem own_groupData : isDots groupData = false :=
  own_of_length (by decide)

theorem own_snapshots : isDots snapshots = false :=
  own_of_length (by decide)

theorem own_partition (p : UInt32) : isDots (partition p) = false := by
  apply own_of_length
  rw [partition_eq, List.length_append]
  exact Nat.lt_of_lt_of_le (by decide) (Nat.le_add_right _ _)

theorem own_groupDirectory (group : Text) : isDots (groupDirectory group) = false := by
  apply own_of_length
  rw [groupDirectory, List.length_append]
  exact Nat.lt_of_lt_of_le (by decide) (Nat.le_add_right _ _)

theorem own_metafile (node : Text) : isDots (metafile node) = false := by
  apply own_of_length
  rw [metafile, List.length_append]
  exact Nat.lt_of_lt_of_le (by decide) (Nat.le_add_left _ _)

/-!
No two of them are the same.
-/

theorem groupDirectory_injective : Function.Injective groupDirectory :=
  fun _ _ h => List.append_cancel_left h

theorem metafile_injective : Function.Injective metafile :=
  fun _ _ h => List.append_cancel_right h

theorem partition_injective : Function.Injective partition := by
  intro p q h
  rw [partition_eq, partition_eq] at h
  exact UInt32.toNat_inj.mp
    (Text.decimal_injective (List.append_cancel_right (List.append_cancel_left h)))

theorem partition_ne_groupData (p : UInt32) : partition p ≠ groupData := by
  intro h
  have hfirst := congrArg List.head? h
  rw [partition_eq, List.head?_append_of_ne_nil _ (by decide)] at hfirst
  exact absurd hfirst (by decide)

theorem groupData_ne_metafile (node : Text) : groupData ≠ metafile node := by
  intro h
  have hlast := congrArg List.getLast? h
  rw [metafile, List.getLast?_append_of_ne_nil _ (by decide)] at hlast
  exact absurd hlast (by decide)

theorem partition_ne_metafile (p : UInt32) (node : Text) : partition p ≠ metafile node := by
  intro h
  have hlast := congrArg List.getLast? h
  rw [metafile, List.getLast?_append_of_ne_nil _ (by decide), partition_eq,
    List.getLast?_append_of_ne_nil, List.getLast?_append_of_ne_nil _ (by decide)] at hlast
  . exact absurd hlast (by decide)
  . exact List.append_ne_nil_of_right_ne_nil _ (by decide)

end FileName

end SnapshotAudit
