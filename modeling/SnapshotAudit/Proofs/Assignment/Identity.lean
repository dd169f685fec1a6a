import Mathlib.Data.List.Induction
import Mathlib.Data.Nat.Digits.Defs
import Mathlib.Data.Nat.ModEq
import SnapshotAudit.Proofs.Assignment.Ranking

/-!
This module contains which names of groups have an identity in common, and what is assigned to a
group whose name has an identity of its own.
-/

namespace SnapshotAudit

namespace GroupDescriptor

/--
A name read as a number: its bytes are the digits, the highest one first, and the base is 31.
-/
def numeral (name : Text) : Nat :=
  Nat.ofDigits 31 (name.map UInt8.toNat).reverse

theorem numeral_concat (name : Text) (b : UInt8)
    : numeral (name ++ [b]) = numeral name * 31 + b.toNat := by
  simp only [numeral, List.map_append, List.map_cons, List.map_nil, List.reverse_append,
    List.reverse_singleton, List.singleton_append, Nat.ofDigits_cons]
  omega

theorem toNat_hash (name : Text)
    : (name.foldl (fun (h : UInt32) (b : UInt8) => h * 31 + b.toUInt32) 0).toNat =
      numeral name % 2 ^ 32 := by
  induction name using List.reverseRecOn with
  | nil => rfl
  | append_singleton name b ih =>
    rw [List.foldl_append, List.foldl_cons, List.foldl_nil, numeral_concat, UInt32.toNat_add,
      UInt32.toNat_mul, ih]
    simp [Nat.add_mod, Nat.mul_mod]

/--
Two names have an identity in common when the numbers that they are differ by a multiple of
`2 ^ 32`.
-/
theorem idOfName_eq_iff {a b : Text}
    : idOfName a = idOfName b ↔ numeral a ≡ numeral b [MOD 2 ^ 32] := by
  unfold idOfName Nat.ModEq
  rw [← toNat_hash, ← toNat_hash, UInt32.toNat_inj]
  constructor
  . intro h
    simpa using congrArg Int32.toUInt32 h
  . intro h
    rw [h]

end GroupDescriptor

namespace Rendezvous

/--
What is assigned to a group is its own: every partition has as many owners as there are copies, or
fewer when not so many nodes are admitted, they differ from each other and the group admits them,
and the nodes that are eligible for the group are those that it admits.
-/
structure KeptApart (desc : SnapshotDescriptor) (group : GroupDescriptor) : Prop where
  owners : ∀ partition < group.partitions, ∃ owners,
    (assign desc).owners.get? ⟨group.id, partition⟩ = some owners ∧
      owners.length = min (group.backups.toNat + 1) (desc.baseline.countP group.admits) ∧
      owners.Nodup ∧ ∀ node ∈ owners, node ∈ desc.baseline ∧ group.admits node = true
  eligible : ∃ nodes, (assign desc).eligible.get? group.id = some nodes ∧
    ∀ node, nodes.contains node = true ↔ node ∈ desc.baseline ∧ group.admits node = true

variable {desc : SnapshotDescriptor} {group : GroupDescriptor}

theorem Sole.keptApart (sole : Sole desc group) (distinct : desc.baseline.Nodup)
    : KeptApart desc group where
  owners partition hpartition := by
    refine ⟨ownersOf desc group partition, ?_, length_ownersOf desc group partition,
      nodup_ownersOf distinct, ?_⟩
    . rw [sole.owners_eq, if_pos hpartition]
    . intro node hnode
      exact mem_admitted.mp (admitted_of_mem_ownersOf hnode)
  eligible := by
    refine ⟨_, sole.eligible_eq, ?_⟩
    intro node
    rw [SortedSet.contains_ofElements, mem_admitted]

theorem Sole.of_names (names : (desc.groups.map GroupDescriptor.name).Nodup)
    (ids : ∀ other ∈ desc.groups, other.id = GroupDescriptor.idOfName other.name)
    (hgroup : group ∈ desc.groups)
    (apart : ∀ other ∈ desc.groups, other.name ≠ group.name →
      GroupDescriptor.idOfName other.name ≠ GroupDescriptor.idOfName group.name)
    : Sole desc group where
  mem := hgroup
  once := by
    have hsame : ∀ other ∈ desc.groups, other.id = group.id ↔ other = group := by
      intro other hother
      constructor
      . intro hid
        rw [ids other hother, ids group hgroup] at hid
        have hname : other.name = group.name := by
          apply Classical.byContradiction
          intro hname
          exact apart other hother hname hid
        exact List.inj_on_of_nodup_map names hother hgroup hname
      . rintro rfl
        rfl
    calc (desc.groups.map GroupDescriptor.id).count group.id
        = desc.groups.count group := by
          rw [List.count, List.countP_map]
          apply List.countP_congr
          intro other hother
          simpa using hsame other hother
      _ = 1 := List.count_eq_one_of_mem (List.Nodup.of_map _ names) hgroup

/--
What is assigned to a group is its own as long as no other name comes to the same number modulo
`2 ^ 32`.
-/
theorem keptApart_of_names (distinct : desc.baseline.Nodup)
    (names : (desc.groups.map GroupDescriptor.name).Nodup)
    (ids : ∀ other ∈ desc.groups, other.id = GroupDescriptor.idOfName other.name)
    (hgroup : group ∈ desc.groups)
    (apart : ∀ other ∈ desc.groups, other.name ≠ group.name →
      ¬GroupDescriptor.numeral other.name ≡ GroupDescriptor.numeral group.name [MOD 2 ^ 32])
    : KeptApart desc group := by
  have sole : Sole desc group := by
    apply Sole.of_names names ids hgroup
    intro other hother hname
    rw [Ne, GroupDescriptor.idOfName_eq_iff]
    exact apart other hother hname
  exact sole.keptApart distinct

theorem keptApart_of_names_third
    : let desc : SnapshotDescriptor := ⟨"s", 1, 64, ["a", "b", "c"],
        [⟨2112, "Aa", 3, 0, []⟩, ⟨2112, "BB", 2, 0, []⟩, ⟨3904, "zz", 2, 4, ["c", "a", "x"]⟩]⟩
      (∀ other ∈ desc.groups, other.id = GroupDescriptor.idOfName other.name) ∧
      (∃ owners, (assign desc).owners.get? ⟨3904, 1⟩ = some owners ∧ owners.length = 2 ∧
        owners.Nodup ∧ ∀ node ∈ owners, node = "a" ∨ node = "c") ∧
      ∃ nodes, (assign desc).eligible.get? 3904 = some nodes ∧ nodes.contains "b" = false := by
  intro desc
  have ids : ∀ other ∈ desc.groups, other.id = GroupDescriptor.idOfName other.name := by
    decide +kernel
  have kept : KeptApart desc ⟨3904, "zz", 2, 4, ["c", "a", "x"]⟩ := by
    apply keptApart_of_names _ _ ids
    all_goals decide +kernel
  have hadmits : ∀ node ∈ desc.baseline,
      GroupDescriptor.admits ⟨3904, "zz", 2, 4, ["c", "a", "x"]⟩ node = true →
        node = "a" ∨ node = "c" := by
    decide +kernel
  refine ⟨ids, ?_, ?_⟩
  . obtain ⟨owners, hget, hlength, hnodup, hadmitted⟩ := kept.owners 1 (by decide)
    refine ⟨owners, hget, hlength.trans (by decide +kernel), hnodup, ?_⟩
    intro node hnode
    exact hadmits node (hadmitted node hnode).1 (hadmitted node hnode).2
  . obtain ⟨nodes, hget, hnodes⟩ := kept.eligible
    refine ⟨nodes, hget, ?_⟩
    rw [Bool.eq_false_iff, Ne, hnodes]
    decide +kernel

/--
Two names that differ and have one identity: the only node owns the partition of both groups, and so
it is entered twice.
-/
theorem not_keptApart_of_same_id
    : let desc : SnapshotDescriptor :=
        ⟨"s", 1, 64, ["n1"], [⟨2112, "Aa", 1, 0, []⟩, ⟨2112, "BB", 1, 0, []⟩]⟩
      desc.baseline.Nodup ∧ (desc.groups.map GroupDescriptor.name).Nodup ∧
      (∀ other ∈ desc.groups, other.id = GroupDescriptor.idOfName other.name) ∧
      (assign desc).owners.get? ⟨2112, 0⟩ = some [("n1" : Text), "n1"] ∧
      ∀ group ∈ desc.groups, ¬KeptApart desc group := by
  intro desc
  have hget : (assign desc).owners.get? ⟨2112, 0⟩ = some [("n1" : Text), "n1"] := by
    decide +kernel
  have hgroups : ∀ group ∈ desc.groups, group.id = 2112 ∧ 0 < group.partitions := by
    decide +kernel
  refine ⟨by decide +kernel, by decide +kernel, by decide +kernel, hget, ?_⟩
  intro group hgroup kept
  obtain ⟨hid, hpartitions⟩ := hgroups group hgroup
  obtain ⟨owners, howners, _, hnodup, _⟩ := kept.owners 0 hpartitions
  rw [hid, hget] at howners
  obtain rfl := Option.some.inj howners
  exact absurd hnodup (by decide +kernel)

end Rendezvous

end SnapshotAudit
