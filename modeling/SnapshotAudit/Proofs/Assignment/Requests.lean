import SnapshotAudit.Proofs.Assignment.Ranking
import SnapshotAudit.Proofs.Lists

/-!
This module contains what the nodes are asked for because of an assignment: of every partition each
copy, and each of them once.
-/

namespace SnapshotAudit

namespace GroupDescriptor

def allPartitions (group : GroupDescriptor) : List UInt32 :=
  (List.range group.partitions.toNat).map Nat.toUInt32

variable (group : GroupDescriptor)

@[simp]
theorem length_allPartitions : group.allPartitions.length = group.partitions.toNat := by
  simp [allPartitions]

theorem mem_allPartitions {partition : UInt32}
    : partition ∈ group.allPartitions ↔ partition < group.partitions := by
  simp only [allPartitions, List.mem_map, List.mem_range, UInt32.lt_iff_toNat_lt]
  constructor
  . rintro ⟨p, hp, rfl⟩
    rwa [UInt32.toNat_ofNat_of_lt' (Nat.lt_trans hp group.partitions.toNat_lt)]
  . intro hp
    exact ⟨partition.toNat, hp, UInt32.ofNat_toNat⟩

theorem increasing_allPartitions : group.allPartitions.Pairwise (· < ·) := by
  apply List.pairwise_map.mpr
  apply List.pairwise_lt_range.imp_of_mem
  intro p q hp hq hlt
  have hbound {r : Nat} (hr : r ∈ List.range group.partitions.toNat) : r.toUInt32.toNat = r :=
    UInt32.toNat_ofNat_of_lt' (Nat.lt_trans (List.mem_range.mp hr) group.partitions.toNat_lt)
  rwa [UInt32.lt_iff_toNat_lt, hbound hp, hbound hq]

end GroupDescriptor

namespace Assignment

theorem ownedPartitions_eq_filter (assignment : Assignment) (group : GroupDescriptor)
    (node : Text)
    : assignment.ownedPartitions group node =
      group.allPartitions.filter fun p => assignment.isOwner ⟨group.id, p⟩ node := by
  have hall := group.increasing_allPartitions.filter fun p =>
    assignment.isOwner ⟨group.id, p⟩ node
  apply List.Perm.eq_of_pairwise
    (fun _ _ _ _ hab hba => absurd hab (UInt32.lt_asymm hba))
    (increasing_ownedPartitions assignment group node) hall
  apply (List.perm_ext_iff_of_nodup (nodup_ownedPartitions assignment group node)
    (hall.imp UInt32.ne_of_lt)).mpr
  intro p
  rw [mem_ownedPartitions, List.mem_filter, group.mem_allPartitions]

end Assignment

namespace Rendezvous

variable {desc : SnapshotDescriptor}

def askedPartitions (desc : SnapshotDescriptor) (group : GroupDescriptor) (node : Text)
    : List UInt32 :=
  (((assign desc).expectedFor desc node).filter fun expected => expected.id = group.id).flatMap
    ExpectedGroup.partitions

theorem mem_askedPartitions {group : GroupDescriptor} {node : Text} {partition : UInt32}
    : partition ∈ askedPartitions desc group node ↔
      ∃ expected ∈ (assign desc).expectedFor desc node,
        expected.id = group.id ∧ partition ∈ expected.partitions := by
  simp [askedPartitions, and_assoc]

section Distinct

variable (distinct : (desc.groups.map GroupDescriptor.id).Nodup)

include distinct

theorem expectedFor_eq (node : Text)
    : (assign desc).expectedFor desc node =
      (desc.groups.filter fun group => node ∈ desc.baseline ∧ group.admits node = true).map
        fun group => ⟨group.id, group.name, (assign desc).ownedPartitions group node⟩ := by
  unfold Assignment.expectedFor
  congr 1
  apply List.filter_congr
  intro group hgroup
  rw [SortedMap.getD, eligible_of_distinct distinct hgroup, Option.getD_some, Bool.eq_iff_iff,
    SortedSet.contains_ofElements, mem_admitted, decide_eq_true_eq]

variable {group : GroupDescriptor} (hgroup : group ∈ desc.groups)

include hgroup

theorem isOwner_eq {partition : UInt32} (h : partition < group.partitions) (node : Text)
    : (assign desc).isOwner ⟨group.id, partition⟩ node =
      decide (node ∈ ownersOf desc group partition) := by
  rw [Assignment.isOwner, owners_of_distinct distinct hgroup h]

theorem ownedPartitions_of_not_admitted {node : Text} (h : node ∉ admitted desc group)
    : (assign desc).ownedPartitions group node = [] := by
  apply List.eq_nil_iff_forall_not_mem.mpr
  intro partition hmem
  obtain ⟨hpartition, howner⟩ := Assignment.mem_ownedPartitions.mp hmem
  rw [isOwner_eq distinct hgroup hpartition, decide_eq_true_eq] at howner
  exact h (admitted_of_mem_ownersOf howner)

theorem askedPartitions_eq (node : Text)
    : askedPartitions desc group node = (assign desc).ownedPartitions group node := by
  have honly : (desc.groups.filter fun g => node ∈ desc.baseline ∧ g.admits node = true).filter
      (fun g => g.id = group.id) =
        [group].filter fun g => node ∈ desc.baseline ∧ g.admits node = true := by
    rw [List.filter_comm, (Sole.of_distinct distinct hgroup).filter_id]
  unfold askedPartitions
  rw [expectedFor_eq distinct, List.filter_map]
  simp only [Function.comp_def, honly, List.filter_singleton]
  by_cases h : node ∈ desc.baseline ∧ group.admits node = true
  . simp [h]
  . rw [ownedPartitions_of_not_admitted distinct hgroup (mem_admitted.not.mpr h)]
    simp [h]

theorem sum_length_askedPartitions (hbaseline : desc.baseline.Nodup)
    : (desc.baseline.map fun node => (askedPartitions desc group node).length).sum =
      group.partitions.toNat *
        min (group.backups.toNat + 1) (desc.baseline.countP group.admits) := by
  have hcount (node : Text) : (askedPartitions desc group node).length =
      group.allPartitions.countP fun p => decide (node ∈ ownersOf desc group p) := by
    rw [askedPartitions_eq distinct hgroup, Assignment.ownedPartitions_eq_filter,
      ← List.countP_eq_length_filter]
    apply List.countP_congr
    intro p hp
    rw [isOwner_eq distinct hgroup (group.mem_allPartitions.mp hp)]
  have howners (p : UInt32) : desc.baseline.countP (· ∈ ownersOf desc group p) =
      min (group.backups.toNat + 1) (desc.baseline.countP group.admits) := by
    rw [countP_mem_eq_length hbaseline (nodup_ownersOf hbaseline), length_ownersOf]
    intro node hnode
    exact (mem_admitted.mp (admitted_of_mem_ownersOf hnode)).1
  calc (desc.baseline.map fun node => (askedPartitions desc group node).length).sum
      = (desc.baseline.map fun node =>
          group.allPartitions.countP fun p => decide (node ∈ ownersOf desc group p)).sum := by
        simp only [hcount]
    _ = (group.allPartitions.map fun p =>
          desc.baseline.countP (· ∈ ownersOf desc group p)).sum := sum_countP_comm _ _ _
    _ = _ := by
        simp only [howners, List.map_const', List.sum_replicate_nat,
          GroupDescriptor.length_allPartitions]

end Distinct

/--
What the nodes are asked for is all that there are copies of.
-/
structure AskedOnce (desc : SnapshotDescriptor) : Prop where
  /-- A node is asked for the groups that admit it, in the order of the snapshot. -/
  groups : ∀ node, ((assign desc).expectedFor desc node).map (fun e => (e.id, e.name)) =
    (desc.groups.filter fun group => node ∈ desc.baseline ∧ group.admits node = true).map
      fun group => (group.id, group.name)
  /-- It is asked for each partition once. -/
  increasing : ∀ node, ∀ expected ∈ (assign desc).expectedFor desc node,
    expected.partitions.Pairwise (· < ·)
  /-- It is asked for what it owns. -/
  partitions : ∀ node, ∀ group ∈ desc.groups, ∀ partition,
    (∃ expected ∈ (assign desc).expectedFor desc node,
      expected.id = group.id ∧ partition ∈ expected.partitions) ↔
    partition < group.partitions ∧ node ∈ (assign desc).owners.getD ⟨group.id, partition⟩ []
  /-- All nodes together are asked for every copy. -/
  total : ∀ group ∈ desc.groups,
    (desc.baseline.map fun node => (askedPartitions desc group node).length).sum =
      group.partitions.toNat *
        min (group.backups.toNat + 1) (desc.baseline.countP group.admits)
  /-- A node that had no part in the snapshot is asked for nothing. -/
  strangers : ∀ node ∉ desc.baseline, (assign desc).expectedFor desc node = []

/--
Every copy of every partition is asked for once when no node and no identity of a group is repeated.
-/
theorem askedOnce_of_distinct (hbaseline : desc.baseline.Nodup)
    (distinct : (desc.groups.map GroupDescriptor.id).Nodup) : AskedOnce desc where
  groups node := by
    rw [expectedFor_eq distinct, List.map_map]
    rfl
  increasing node expected hexpected := by
    obtain ⟨group, _, _, rfl⟩ := Assignment.mem_expectedFor.mp hexpected
    exact Assignment.increasing_ownedPartitions _ group node
  partitions node group hgroup partition := by
    rw [← mem_askedPartitions, askedPartitions_eq distinct hgroup, Assignment.mem_ownedPartitions,
      Assignment.isOwner, decide_eq_true_eq]
  total group hgroup := sum_length_askedPartitions distinct hgroup hbaseline
  strangers node hnode := by
    rw [expectedFor_eq distinct]
    simp [hnode]

theorem askedOnce_of_distinct_three
    : let desc : SnapshotDescriptor := ⟨"s", 1, 64, ["a", "b", "c"],
        [⟨1, "g", 5, 1, []⟩, ⟨2, "h", 3, 4, ["b", "x"]⟩]⟩
      (desc.baseline.map fun node => (askedPartitions desc ⟨1, "g", 5, 1, []⟩ node).length).sum =
        10 ∧
      (desc.baseline.map fun node =>
        (askedPartitions desc ⟨2, "h", 3, 4, ["b", "x"]⟩ node).length).sum = 3 ∧
      ((assign desc).expectedFor desc "a").map (fun e => (e.id, e.name)) =
        [((1 : Int32), ("g" : Text))] ∧
      (assign desc).expectedFor desc "x" = [] := by
  intro desc
  have asked : AskedOnce desc := askedOnce_of_distinct (by decide +kernel) (by decide +kernel)
  refine ⟨?_, ?_, ?_, asked.strangers "x" (by decide +kernel)⟩
  . rw [asked.total _ (by decide +kernel)]
    decide +kernel
  . rw [asked.total _ (by decide +kernel)]
    decide +kernel
  . rw [asked.groups]
    decide +kernel

end Rendezvous

end SnapshotAudit
