import SnapshotAudit.Proofs.Layout.Inspection

/-!
This module contains the verdict on a snapshot that was laid out, when every node that may hold
something of it says what there is to say about its share: the verdict is clean, and what it knows
about the partitions is what was written.
-/

namespace SnapshotAudit

namespace Layout

open Rendezvous (assign)

variable {desc : SnapshotDescriptor} {node : Text} {key : PartitionKey}

/-!
What a node reports.
-/

theorem mem_report {found : PartitionRecord}
    : found ∈ (report desc node).partitions ↔
      ∃ group ∈ desc.groups, ((assign desc).eligible.getD group.id .empty).contains node = true ∧
        ∃ p ∈ (assign desc).ownedPartitions group node, found = record group.id p := by
  simp only [report, List.mem_flatMap, Assignment.mem_expectedFor, List.mem_map]
  constructor
  . rintro ⟨_, ⟨group, hgroup, heligible, rfl⟩, p, hp, rfl⟩
    exact ⟨group, hgroup, heligible, p, hp, rfl⟩
  . rintro ⟨group, hgroup, heligible, p, hp, rfl⟩
    exact ⟨_, ⟨group, hgroup, heligible, rfl⟩, p, hp, rfl⟩

theorem eq_record_of_mem_report {found : PartitionRecord}
    (h : found ∈ (report desc node).partitions) (hkey : found.key = key)
    : found = record key.group key.partition := by
  obtain ⟨group, _, _, p, _, rfl⟩ := mem_report.mp h
  rw [← hkey]
  rfl

theorem countingRecord_report (proper : Proper desc)
    : Aggregation.countingRecord desc (assign desc) node (report desc node) key =
      if node ∈ (assign desc).owners.getD key [] then some (record key.group key.partition)
      else none := by
  have hfailed : (report desc node).failed = false := rfl
  rw [Aggregation.countingRecord, hfailed, if_neg Bool.false_ne_true]
  split
  next howner =>
    obtain ⟨group, hgroup, hid, hp, _⟩ := Rendezvous.exists_group_of_mem_owners howner
    obtain ⟨id, p⟩ := key
    obtain rfl : group.id = id := hid
    have howns : (assign desc).isOwner ⟨group.id, p⟩ node = true := by
      simpa [Assignment.isOwner] using howner
    apply Aggregation.lastRecord_eq_some
    . apply List.mem_filter.mpr
      refine ⟨mem_report.mpr ⟨group, hgroup,
        Deployment.eligible_of_owner proper.ids hgroup hp howner, p,
        Assignment.mem_ownedPartitions.mpr ⟨hp, howns⟩, rfl⟩, ?_⟩
      rw [Aggregation.counts, Bool.and_eq_true]
      exact ⟨by simp [record, Rendezvous.group?_eq_some proper.ids hgroup], howns⟩
    . rfl
    . intro other hother hkey
      exact eq_record_of_mem_report (List.mem_filter.mp hother).1 hkey
  next hstranger =>
    rw [Aggregation.lastRecord, List.find?_eq_none]
    intro found hfound
    have hcounts := (List.mem_filter.mp (List.mem_reverse.mp hfound)).2
    simp only [Aggregation.counts, Assignment.isOwner, Bool.and_eq_true, decide_eq_true_eq]
      at hcounts ⊢
    rintro rfl
    exact hstranger hcounts.2

/-!
The verdict.
-/

/--
The verdict on a snapshot of which nothing is missing or damaged: it is clean, it speaks of the
nodes that some group admits, and for every partition that has owners it has the records of its
owners.
-/
structure Vouches (desc : SnapshotDescriptor) (verdict : Verdict) : Prop where
  clean : verdict.clean = true
  nodes : ∀ node, verdict.nodes.contains node = true ↔
    ∃ group ∈ desc.groups, node ∈ Rendezvous.admitted desc group
  partitions : ∀ key, verdict.partitions.contains key = true ↔
    (assign desc).owners.getD key [] ≠ []
  records : ∀ key records, verdict.partitions.get? key = some records → ∀ node,
    records.get? node =
      if node ∈ (assign desc).owners.getD key [] then some (record key.group key.partition)
      else none

variable {outcomes : SortedMap Text NodeOutcome}

theorem vouches_aggregate (proper : Proper desc)
    (reported : ∀ node, outcomes.get? node =
      if (assign desc).isEligible node then some (report desc node) else none)
    : Vouches desc (aggregate desc (assign desc) outcomes) := by
  have hrecord (key : PartitionKey) (node : Text)
      : Aggregation.recordAt (aggregate desc (assign desc) outcomes) key node =
        if node ∈ (assign desc).owners.getD key [] then some (record key.group key.partition)
        else none := by
    rw [Verdict.recordAt_aggregate, reported]
    split
    next => exact countingRecord_report proper
    next hstranger =>
      have hnot : node ∉ (assign desc).owners.getD key [] := by
        intro howner
        obtain ⟨group, hgroup, _, _, hnode⟩ := Rendezvous.exists_group_of_mem_owners howner
        exact hstranger ((Assignment.isEligible_iff_admitted proper.ids).mpr
          ⟨group, hgroup, Rendezvous.admitted_of_mem_ownersOf hnode⟩)
      rw [if_neg hnot]
      rfl
  refine ⟨?_, ?_, ?_, ?_⟩
  . apply Verdict.clean_of_whole
    . intro node outcome hget
      rw [reported] at hget
      split at hget
      next =>
        cases hget
        exact ⟨rfl, rfl, rfl, rfl⟩
      next => cases hget
    . intro key a b ra rb ha hb
      rw [hrecord] at ha hb
      split at ha
      next =>
        split at hb
        next =>
          cases ha
          cases hb
          rfl
        next => cases hb
      next => cases ha
  . intro node
    rw [Verdict.contains_nodes, SortedMap.contains, reported,
      ← Assignment.isEligible_iff_admitted proper.ids]
    split <;> simp [*]
  . intro key
    rw [SortedMap.contains_eq_true_iff]
    constructor
    . rintro ⟨records, hrecords⟩
      obtain ⟨node, found, hfound⟩ := Verdict.occupied_aggregate _ _ _ key records hrecords
      have hat := hrecord key node
      rw [Aggregation.recordAt, hrecords, Option.bind_some, hfound] at hat
      split at hat
      next howner => exact List.ne_nil_of_mem howner
      next => cases hat
    . intro hnonempty
      obtain ⟨node, howner⟩ := List.exists_mem_of_ne_nil _ hnonempty
      have hat := hrecord key node
      rw [if_pos howner, Aggregation.recordAt] at hat
      obtain ⟨records, hrecords, _⟩ := Option.bind_eq_some_iff.mp hat
      exact ⟨records, hrecords⟩
  . intro key records hrecords node
    rw [← hrecord, Aggregation.recordAt, hrecords, Option.bind_some]

end Layout

end SnapshotAudit
