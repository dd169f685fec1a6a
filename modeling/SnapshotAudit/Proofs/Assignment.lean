import Mathlib.Data.List.Nodup
import SnapshotAudit.Assignment
import SnapshotAudit.Proofs.Ordered.Map

/-!
This module contains what is assigned to whom: the owners of a partition group by group, the nodes
that are eligible for a group, and what a node is asked for because of that.
-/

namespace SnapshotAudit

theorem PartitionKey.lt_of_compare {id : Int32} {p q : UInt32}
    (h : compare (⟨id, p⟩ : PartitionKey) ⟨id, q⟩ = .lt) : p < q := by
  have h : (compare id id).then (compare p q) = .lt := h
  rw [Std.ReflOrd.compare_self] at h
  exact Std.compare_eq_lt.mp h

namespace Rendezvous

/-!
The nodes that come into question.
-/

theorem mem_admitted {desc : SnapshotDescriptor} {group : GroupDescriptor} {node : Text}
    : node ∈ admitted desc group ↔ node ∈ desc.baseline ∧ group.admits node = true := by
  simp [admitted]

theorem mem_ranking {nodes : List Text} {group : Int32} {partition : UInt32} {node : Text}
    : node ∈ ranking nodes group partition ↔ node ∈ nodes := by
  simp [ranking]

theorem admitted_of_mem_ownersOf {desc : SnapshotDescriptor} {group : GroupDescriptor}
    {partition : UInt32} {node : Text} (h : node ∈ ownersOf desc group partition)
    : node ∈ admitted desc group :=
  mem_ranking.mp (List.mem_of_mem_take h)

/-!
The owners that are entered for each partition.
-/

theorem get?_foldr_update (id : Int32) (own : UInt32 → Option (List Text) → List Text) {count : Nat}
    (hcount : count ≤ UInt32.size) (owners : SortedMap PartitionKey (List Text))
    (key : PartitionKey)
    : ((List.range count).foldr
        (fun p owners => owners.update ⟨id, p.toUInt32⟩ (own p.toUInt32)) owners).get? key =
      if id = key.group ∧ key.partition.toNat < count then
        some (own key.partition (owners.get? key))
      else owners.get? key := by
  induction count generalizing owners with
  | zero => simp
  | succ count ih =>
    -- this is where the number of partitions matters: no two of them become one as words
    have hlast : count.toUInt32.toNat = count := UInt32.toNat_ofNat_of_lt' hcount
    rw [List.range_succ, List.foldr_append, List.foldr_cons, List.foldr_nil, ih (by omega),
      SortedMap.get?_update]
    simp only [Std.LawfulEqOrd.compare_eq_iff_eq]
    by_cases hkey : key = ⟨id, count.toUInt32⟩
    . subst hkey
      simp [hlast]
    . have hne : id = key.group → key.partition.toNat ≠ count := by
        intro hid hpartition
        apply hkey
        obtain ⟨group, partition⟩ := key
        have hpart : partition = count.toUInt32 := UInt32.toNat_inj.mp (hpartition.trans hlast.symm)
        rw [hid, hpart]
      simp only [hkey, if_false]
      by_cases hid : id = key.group
      . have := hne hid
        have hiff : key.partition.toNat < count ↔ key.partition.toNat < count + 1 := by omega
        simp [hid, hiff]
      . simp [hid]

variable {desc : SnapshotDescriptor}

def covers (key : PartitionKey) (group : GroupDescriptor) : Bool :=
  group.id = key.group && key.partition < group.partitions

theorem get?_owners_assignGroup (assignment : Assignment) (group : GroupDescriptor)
    (key : PartitionKey)
    : (assignGroup desc assignment group).owners.get? key =
      if covers key group then
        some ((assignment.owners.get? key).getD [] ++ ownersOf desc group key.partition)
      else assignment.owners.get? key := by
  unfold assignGroup
  dsimp only
  rw [get?_foldr_update group.id
    (fun p earlier => earlier.getD [] ++ ownersOf desc group p)
    (Nat.le_of_lt group.partitions.toNat_lt)]
  simp only [covers, Bool.and_eq_true, decide_eq_true_eq, UInt32.lt_iff_toNat_lt]

theorem get?_owners_foldl (groups : List GroupDescriptor) (assignment : Assignment)
    (key : PartitionKey)
    : (groups.foldl (assignGroup desc) assignment).owners.get? key =
      if groups.any (covers key) then
        some (assignment.owners.getD key [] ++
          (groups.filter (covers key)).flatMap fun group => ownersOf desc group key.partition)
      else assignment.owners.get? key := by
  induction groups generalizing assignment with
  | nil => rfl
  | cons group rest ih =>
    rw [List.foldl_cons, ih, List.any_cons, List.filter_cons]
    simp only [SortedMap.getD, get?_owners_assignGroup]
    cases hgroup : covers key group with
    | false => simp
    | true =>
      cases hrest : rest.any (covers key) with
      | true => simp
      | false =>
        have hnone : rest.filter (covers key) = [] := by
          simpa [List.filter_eq_nil_iff] using hrest
        simp [hnone]

/--
A key has owners as soon as it is a partition of some group: those of every such group, in the order
of the groups.
-/
theorem get?_owners_assign (desc : SnapshotDescriptor) (key : PartitionKey)
    : (assign desc).owners.get? key =
      if desc.groups.any (covers key) then
        some ((desc.groups.filter (covers key)).flatMap fun group =>
          ownersOf desc group key.partition)
      else none := by
  unfold assign
  rw [get?_owners_foldl]
  simp [SortedMap.getD]

theorem owners_assign (desc : SnapshotDescriptor) (key : PartitionKey)
    : (assign desc).owners.getD key [] =
      (desc.groups.filter (covers key)).flatMap fun group => ownersOf desc group key.partition := by
  rw [SortedMap.getD, get?_owners_assign]
  cases hany : desc.groups.any (covers key) with
  | true => rfl
  | false =>
    have hnone : desc.groups.filter (covers key) = [] := by
      simpa [List.filter_eq_nil_iff] using hany
    simp [hnone]

theorem eligible_foldl_assignGroup (groups : List GroupDescriptor) (assignment : Assignment)
    (id : Int32)
    : (groups.foldl (assignGroup desc) assignment).eligible.get? id =
      ((groups.reverse.find? fun group => group.id = id).map
        fun group => .ofElements (admitted desc group)).or (assignment.eligible.get? id) := by
  induction groups generalizing assignment with
  | nil => rfl
  | cons group rest ih =>
    rw [List.foldl_cons, ih]
    simp only [List.reverse_cons, List.find?_append, List.find?_singleton]
    cases rest.reverse.find? fun group => group.id = id with
    | some last => simp
    | none =>
      by_cases h : group.id = id
      . simp [h, assignGroup]
      . simp [h, Ne.symm h, assignGroup, SortedMap.get?_insert_eq]

theorem eligible_assign (desc : SnapshotDescriptor) (id : Int32)
    : (assign desc).eligible.get? id =
      (desc.groups.reverse.find? fun group => group.id = id).map
        fun group => .ofElements (admitted desc group) := by
  unfold assign
  rw [eligible_foldl_assignGroup]
  simp

/-!
A group with an identity of its own.
-/

structure Sole (desc : SnapshotDescriptor) (group : GroupDescriptor) : Prop where
  mem : group ∈ desc.groups
  once : (desc.groups.map GroupDescriptor.id).count group.id = 1

namespace Sole

variable {group : GroupDescriptor}

theorem of_distinct (distinct : (desc.groups.map GroupDescriptor.id).Nodup)
    (hgroup : group ∈ desc.groups) : Sole desc group :=
  ⟨hgroup, List.count_eq_one_of_mem distinct (List.mem_map_of_mem hgroup)⟩

variable (sole : Sole desc group)

include sole

theorem filter_id : desc.groups.filter (fun other => other.id = group.id) = [group] := by
  have hlength : (desc.groups.filter fun other => other.id = group.id).length = 1 := by
    rw [← List.countP_eq_length_filter, ← sole.once, List.count, List.countP_map]
    rfl
  obtain ⟨only, honly⟩ := List.length_eq_one_iff.mp hlength
  have hmem : group ∈ desc.groups.filter fun other => other.id = group.id := by simp [sole.mem]
  rw [honly] at hmem ⊢
  rw [List.mem_singleton.mp hmem]

theorem filter_covers (partition : UInt32)
    : desc.groups.filter (covers ⟨group.id, partition⟩) =
      if partition < group.partitions then [group] else [] := by
  have hsplit : covers ⟨group.id, partition⟩ = fun other =>
      decide (partition < other.partitions) && decide (other.id = group.id) := by
    funext other
    exact Bool.and_comm _ _
  rw [hsplit, ← List.filter_filter, sole.filter_id, List.filter_singleton]
  simp

theorem group?_eq_some : desc.group? group.id = some group := by
  rw [SnapshotDescriptor.group?, ← List.head?_filter, sole.filter_id]
  rfl

theorem eligible_eq
    : (assign desc).eligible.get? group.id = some (.ofElements (admitted desc group)) := by
  rw [eligible_assign, ← List.head?_filter, List.filter_reverse, sole.filter_id]
  rfl

theorem owners_eq (partition : UInt32)
    : (assign desc).owners.get? ⟨group.id, partition⟩ =
      if partition < group.partitions then some (ownersOf desc group partition) else none := by
  rw [get?_owners_assign, sole.filter_covers]
  by_cases h : partition < group.partitions
  . have hany : desc.groups.any (covers ⟨group.id, partition⟩) = true :=
      List.any_eq_true.mpr ⟨group, sole.mem, by simpa [covers] using h⟩
    simp [hany, h]
  . have hnone := sole.filter_covers partition
    rw [if_neg h, List.filter_eq_nil_iff] at hnone
    have hany : desc.groups.any (covers ⟨group.id, partition⟩) = false :=
      List.any_eq_false.mpr hnone
    rw [if_neg (by simp [hany]), if_neg h]

end Sole

section Distinct

variable {group : GroupDescriptor} (distinct : (desc.groups.map GroupDescriptor.id).Nodup)
variable (hgroup : group ∈ desc.groups)

include distinct hgroup

theorem group?_eq_some : desc.group? group.id = some group :=
  (Sole.of_distinct distinct hgroup).group?_eq_some

theorem eligible_of_distinct
    : (assign desc).eligible.get? group.id = some (.ofElements (admitted desc group)) :=
  (Sole.of_distinct distinct hgroup).eligible_eq

theorem owners_of_distinct {partition : UInt32} (h : partition < group.partitions)
    : (assign desc).owners.getD ⟨group.id, partition⟩ [] = ownersOf desc group partition := by
  rw [SortedMap.getD, (Sole.of_distinct distinct hgroup).owners_eq, if_pos h]
  rfl

end Distinct

theorem exists_group_of_mem_owners {key : PartitionKey} {node : Text}
    (h : node ∈ (assign desc).owners.getD key [])
    : ∃ group ∈ desc.groups, group.id = key.group ∧ key.partition < group.partitions ∧
        node ∈ ownersOf desc group key.partition := by
  rw [owners_assign] at h
  obtain ⟨group, hcovers, hnode⟩ := List.mem_flatMap.mp h
  obtain ⟨hgroup, hcovers⟩ := List.mem_filter.mp hcovers
  simp only [covers, Bool.and_eq_true, decide_eq_true_eq] at hcovers
  exact ⟨group, hgroup, hcovers.1, hcovers.2, hnode⟩

end Rendezvous

namespace Assignment

theorem isEligible_iff {assignment : Assignment} {node : Text}
    : assignment.isEligible node = true ↔
      ∃ id nodes, assignment.eligible.get? id = some nodes ∧ nodes.contains node = true := by
  simp only [isEligible, List.any_eq_true, SortedMap.mem_values]
  constructor
  . rintro ⟨nodes, ⟨id, h⟩, hnode⟩
    exact ⟨id, nodes, h, hnode⟩
  . rintro ⟨id, nodes, h, hnode⟩
    exact ⟨nodes, ⟨id, h⟩, hnode⟩

theorem isEligible_iff_admitted {desc : SnapshotDescriptor} {node : Text}
    (distinct : (desc.groups.map GroupDescriptor.id).Nodup)
    : (Rendezvous.assign desc).isEligible node = true ↔
      ∃ group ∈ desc.groups, node ∈ Rendezvous.admitted desc group := by
  rw [isEligible_iff]
  constructor
  . rintro ⟨id, nodes, hget, hnode⟩
    rw [Rendezvous.eligible_assign, Option.map_eq_some_iff] at hget
    obtain ⟨group, hgroup, rfl⟩ := hget
    exact ⟨group, List.mem_reverse.mp (List.mem_of_find?_eq_some hgroup),
      (SortedSet.contains_ofElements _ _).mp hnode⟩
  . rintro ⟨group, hgroup, hnode⟩
    exact ⟨group.id, _, Rendezvous.eligible_of_distinct distinct hgroup,
      (SortedSet.contains_ofElements _ _).mpr hnode⟩

theorem mem_baseline_of_isEligible {desc : SnapshotDescriptor} {node : Text}
    (h : (Rendezvous.assign desc).isEligible node = true) : node ∈ desc.baseline := by
  obtain ⟨id, nodes, hget, hnode⟩ := isEligible_iff.mp h
  rw [Rendezvous.eligible_assign, Option.map_eq_some_iff] at hget
  obtain ⟨group, _, rfl⟩ := hget
  exact (Rendezvous.mem_admitted.mp ((SortedSet.contains_ofElements _ _).mp hnode)).1

theorem mem_ownedPartitions {assignment : Assignment} {group : GroupDescriptor} {node : Text}
    {partition : UInt32}
    : partition ∈ assignment.ownedPartitions group node ↔
      partition < group.partitions ∧
        assignment.isOwner ⟨group.id, partition⟩ node = true := by
  simp only [ownedPartitions, List.mem_map, List.mem_filter, Prod.exists, SortedMap.mem_entries,
    Bool.and_eq_true, decide_eq_true_eq, isOwner, SortedMap.getD]
  constructor
  . rintro ⟨⟨id, p⟩, owners, ⟨hget, ⟨rfl, hp⟩, hnode⟩, rfl⟩
    simp [hget, hp, hnode]
  . rintro ⟨hp, hnode⟩
    cases hget : assignment.owners.get? ⟨group.id, partition⟩ with
    | none => simp [hget] at hnode
    | some owners =>
      exact ⟨⟨group.id, partition⟩, owners, ⟨hget, ⟨rfl, hp⟩, by simpa [hget] using hnode⟩, rfl⟩

theorem increasing_ownedPartitions (assignment : Assignment) (group : GroupDescriptor)
    (node : Text) : (assignment.ownedPartitions group node).Pairwise (· < ·) := by
  apply List.pairwise_map.mpr
  apply (assignment.owners.increasing.filter _).imp_of_mem
  rintro ⟨⟨id, p⟩, owners⟩ ⟨⟨other, q⟩, others⟩ hfirst hsecond hless
  -- all of these keys are in one group, so that their order is that of the partitions
  simp only [List.mem_filter, Bool.and_eq_true, decide_eq_true_eq] at hfirst hsecond
  obtain rfl : id = other := hfirst.2.1.1.trans hsecond.2.1.1.symm
  exact PartitionKey.lt_of_compare hless

theorem nodup_ownedPartitions (assignment : Assignment) (group : GroupDescriptor) (node : Text)
    : (assignment.ownedPartitions group node).Nodup :=
  (increasing_ownedPartitions assignment group node).imp UInt32.ne_of_lt

theorem nodup_expectedFor {desc : SnapshotDescriptor} (assignment : Assignment) (node : Text)
    (distinct : (desc.groups.map GroupDescriptor.id).Nodup)
    : (assignment.expectedFor desc node).Nodup := by
  have hids : ((assignment.expectedFor desc node).map ExpectedGroup.id).Nodup := by
    unfold expectedFor
    rw [List.map_map]
    exact (List.filter_sublist.map _).nodup distinct
  exact List.Pairwise.of_map _ (fun _ _ hne heq => hne (congrArg _ heq)) hids

theorem mem_expectedFor {desc : SnapshotDescriptor} {assignment : Assignment} {node : Text}
    {expected : ExpectedGroup}
    : expected ∈ assignment.expectedFor desc node ↔
      ∃ group ∈ desc.groups, (assignment.eligible.getD group.id .empty).contains node = true ∧
        expected = ⟨group.id, group.name, assignment.ownedPartitions group node⟩ := by
  simp only [expectedFor, List.mem_map, List.mem_filter]
  constructor
  . rintro ⟨group, ⟨hgroup, hnode⟩, rfl⟩
    exact ⟨group, hgroup, hnode, rfl⟩
  . rintro ⟨group, hgroup, hnode, rfl⟩
    exact ⟨group, ⟨hgroup, hnode⟩, rfl⟩

end Assignment

end SnapshotAudit
