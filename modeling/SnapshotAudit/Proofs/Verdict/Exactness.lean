import SnapshotAudit.Proofs.Verdict.Aggregation

/-!
This module contains that a verdict says all of what the outcomes say about the snapshot and nothing
else, part by part, and that a node that failed has no other influence on it than being named as one
that failed.
-/

namespace SnapshotAudit

namespace Aggregation

variable {desc : SnapshotDescriptor} {assignment : Assignment}

def survivors (outcomes : SortedMap Text NodeOutcome) : SortedMap Text NodeOutcome :=
  outcomes.filter fun _ outcome => !outcome.failed

/-!
The influence of a node that failed.
-/

/--
Two verdicts differ at most in which nodes they name and which of them failed.
-/
def SameFindings (a b : Verdict) : Prop :=
  a = { b with nodes := a.nodes, failures := a.failures }

theorem SameFindings.skip {a b : Verdict} (h : SameFindings a b) (node : Text)
    {outcome : NodeOutcome} (hfailed : outcome.failed = true)
    : SameFindings (enter desc assignment a node outcome) b := by
  obtain ⟨failure, hfailure⟩ := Option.isSome_iff_exists.mp hfailed
  unfold SameFindings at h ⊢
  unfold enter
  rw [h, hfailure]

theorem SameFindings.enter {a b : Verdict} (h : SameFindings a b) (node : Text)
    {outcome : NodeOutcome} (hfailed : outcome.failed = false)
    : SameFindings (enter desc assignment a node outcome)
        (enter desc assignment b node outcome) := by
  have hfailure : outcome.failure = none := by simpa [NodeOutcome.failed] using hfailed
  unfold SameFindings at h ⊢
  unfold Aggregation.enter
  rw [h, hfailure]

variable (desc assignment) in
theorem sameFindings_foldl {a b : Verdict} (h : SameFindings a b)
    (entries : List (Text × NodeOutcome))
    : SameFindings
        (entries.foldl (fun verdict e => enter desc assignment verdict e.1 e.2) a)
        ((entries.filter fun e => !e.2.failed).foldl
          (fun verdict e => enter desc assignment verdict e.1 e.2) b) := by
  induction entries generalizing a b with
  | nil => exact h
  | cons e rest ih =>
    rw [List.foldl_cons, List.filter_cons]
    cases hfailed : e.2.failed with
    | true => exact ih (h.skip e.1 hfailed)
    | false => exact ih (h.enter e.1 hfailed)

theorem sameFindings_survivors (outcomes : SortedMap Text NodeOutcome)
    : SameFindings (aggregate desc assignment outcomes)
        (aggregate desc assignment (survivors outcomes)) := by
  have hstart : SameFindings (Aggregation.start desc) (Aggregation.start desc) := rfl
  have h := sameFindings_foldl desc assignment hstart outcomes.entries
  unfold SameFindings at h ⊢
  unfold aggregate survivors SortedMap.filter
  dsimp only
  rw [h]

/-!
The records that a verdict takes over.
-/

/--
Among the records of a node this one is the last of its partition.
-/
def IsLast (records : List PartitionRecord) (record : PartitionRecord) : Prop :=
  ∃ before after, records = before ++ record :: after ∧ ∀ later ∈ after, later.key ≠ record.key

theorem lastRecord_eq_some_iff {records : List PartitionRecord} {key : PartitionKey}
    {record : PartitionRecord}
    : lastRecord records key = some record ↔ record.key = key ∧ IsLast records record := by
  unfold lastRecord IsLast
  rw [List.find?_eq_some_iff_append]
  simp only [decide_eq_true_eq, List.reverse_eq_append_iff, List.reverse_cons, List.append_assoc,
    List.singleton_append, Bool.not_eq_true', decide_eq_false_iff_not]
  constructor
  . rintro ⟨rfl, after, before, hrecords, hafter⟩
    exact ⟨rfl, before.reverse, after.reverse, hrecords,
      fun later hlater => hafter later (List.mem_reverse.mp hlater)⟩
  . rintro ⟨rfl, before, after, hrecords, hafter⟩
    exact ⟨rfl, after.reverse, before.reverse, by simpa using hrecords,
      fun later hlater => hafter later (List.mem_reverse.mp hlater)⟩

/--
Whether a record counts depends on its partition alone, so that the last record that counts is the
last record.
-/
theorem lastRecord_filter_counts (node : Text) (records : List PartitionRecord)
    (key : PartitionKey)
    : lastRecord (records.filter (counts desc assignment node)) key =
      if (desc.group? key.group).isSome && assignment.isOwner key node then lastRecord records key
      else none := by
  unfold lastRecord
  rw [← List.filter_reverse, List.find?_filter]
  split
  next hcounts =>
    congr 1
    funext record
    by_cases hkey : record.key = key
    . simp [counts, hkey, hcounts]
    . simp [hkey]
  next hcounts =>
    apply List.find?_eq_none.mpr
    intro record _
    by_cases hkey : record.key = key
    . simp [counts, hkey, hcounts]
    . simp [hkey]

/-!
The conflicts that a verdict names.
-/

theorem inConflict_iff {records : SortedMap Text PartitionRecord}
    : inConflict records = true ↔
      ∃ a b ra rb, a ≠ b ∧ records.get? a = some ra ∧ records.get? b = some rb ∧
        ra.counter ≠ rb.counter := by
  constructor
  . intro h
    obtain ⟨ra, hra, rb, hrb, hne⟩ := exists_of_inConflict h
    obtain ⟨a, ha⟩ := SortedMap.mem_values.mp hra
    obtain ⟨b, hb⟩ := SortedMap.mem_values.mp hrb
    refine ⟨a, b, ra, rb, ?_, ha, hb, hne⟩
    rintro rfl
    exact hne (congrArg PartitionRecord.counter (Option.some.inj (ha.symm.trans hb)))
  . rintro ⟨a, b, ra, rb, _, ha, hb, hne⟩
    apply Classical.byContradiction
    intro h
    exact hne (inConflict_eq_false (Bool.eq_false_iff.mpr h)
      (SortedMap.mem_values.mpr ⟨a, ha⟩) (SortedMap.mem_values.mpr ⟨b, hb⟩))

theorem get?_countersOf (records : SortedMap Text PartitionRecord) (node : Text)
    : (countersOf records).get? node = (records.get? node).map PartitionRecord.counter := by
  have hdistinct : ((records.entries.map fun e => (e.1, e.2.counter)).map Prod.fst).Nodup := by
    rw [List.map_map]
    exact records.keys_nodup
  apply Option.ext
  intro counter
  rw [countersOf, SortedMap.get?_ofList hdistinct]
  simp only [List.mem_map, Prod.exists, Prod.mk.injEq, SortedMap.mem_entries,
    Option.map_eq_some_iff]
  constructor
  . rintro ⟨_, record, hget, rfl, hcounter⟩
    exact ⟨record, hget, hcounter⟩
  . rintro ⟨record, hget, hcounter⟩
    exact ⟨node, record, hget, rfl, hcounter⟩

theorem get?_conflicts
    (partitions : SortedMap PartitionKey (SortedMap Text PartitionRecord)) (key : PartitionKey)
    : (conflicts partitions).get? key =
      ((partitions.get? key).filter fun records => inConflict records).map countersOf := by
  have hdistinct : (((partitions.entries.filter fun e => inConflict e.2).map
      fun e => (e.1, countersOf e.2)).map Prod.fst).Nodup := by
    rw [List.map_map]
    exact (List.filter_sublist.map Prod.fst).nodup partitions.keys_nodup
  apply Option.ext
  intro counters
  simp only [conflicts, SortedMap.get?_ofList hdistinct, List.mem_map, List.mem_filter,
    Prod.exists, Prod.mk.injEq, SortedMap.mem_entries, Option.map_eq_some_iff,
    Option.filter_eq_some_iff]
  constructor
  . rintro ⟨_, records, hrecords, rfl, hcounters⟩
    exact ⟨records, hrecords, hcounters⟩
  . rintro ⟨records, hrecords, hcounters⟩
    exact ⟨key, records, hrecords, rfl, hcounters⟩

end Aggregation

/--
A group is the first one of a snapshot that has an id.
-/
def SnapshotDescriptor.HasFirst (desc : SnapshotDescriptor) (id : Int32) (group : GroupDescriptor)
    : Prop :=
  ∃ before after, desc.groups = before ++ group :: after ∧ group.id = id ∧
    ∀ other ∈ before, other.id ≠ id

theorem SnapshotDescriptor.group?_eq_some_iff (desc : SnapshotDescriptor) (id : Int32)
    (group : GroupDescriptor) : desc.group? id = some group ↔ desc.HasFirst id group := by
  simp only [group?, List.find?_eq_some_iff_append, decide_eq_true_eq, Bool.not_eq_true',
    decide_eq_false_iff_not, HasFirst]
  constructor
  . rintro ⟨hid, before, after, hsplit, hbefore⟩
    exact ⟨before, after, hsplit, hid, hbefore⟩
  . rintro ⟨before, after, hsplit, hid, hbefore⟩
    exact ⟨hid, before, after, hsplit, hbefore⟩

theorem SnapshotDescriptor.isSome_group?_iff (desc : SnapshotDescriptor) (id : Int32)
    : (desc.group? id).isSome = true ↔ ∃ group ∈ desc.groups, group.id = id := by
  simp [group?, List.find?_isSome]

theorem Assignment.isOwner_eq_true_iff (assignment : Assignment) (key : PartitionKey) (node : Text)
    : assignment.isOwner key node = true ↔
      ∃ owners, assignment.owners.get? key = some owners ∧ node ∈ owners := by
  unfold isOwner SortedMap.getD
  cases assignment.owners.get? key <;> simp

open Aggregation

/--
A verdict says what the outcomes say about the snapshot, and nothing else. A node survives when its
outcome tells of no failure.
-/
structure Verdict.Exact (desc : SnapshotDescriptor) (assignment : Assignment)
    (outcomes : SortedMap Text NodeOutcome) (verdict : Verdict) : Prop where
  nodes : ∀ node, verdict.nodes.contains node = true ↔ outcomes.contains node = true
  failures : ∀ node failure, verdict.failures.get? node = some failure ↔
    ∃ outcome, outcomes.get? node = some outcome ∧ outcome.failure = some failure
  surviving : verdict = { aggregate desc assignment (survivors outcomes) with
    nodes := verdict.nodes, failures := verdict.failures }
  missingGroups : ∀ entry, verdict.missingGroups.contains entry = true ↔
    ∃ outcome group, outcomes.get? entry.node = some outcome ∧ outcome.failure = none ∧
      entry.group ∈ outcome.missingGroups ∧ desc.HasFirst entry.group group ∧
      entry.name = group.name
  missingPartitions : ∀ entry, verdict.missingPartitions.contains entry = true ↔
    ∃ outcome group, outcomes.get? entry.node = some outcome ∧ outcome.failure = none ∧
      entry.key ∈ outcome.missingPartitions ∧ desc.HasFirst entry.key.group group ∧
      entry.key.partition < group.partitions ∧ entry.name = group.name
  missingMetadata : ∀ entry, verdict.missingMetadata.contains entry = true ↔
    ∃ outcome, outcomes.get? entry.node = some outcome ∧ outcome.failure = none ∧
      ⟨entry.group, entry.file⟩ ∈ outcome.missingMetadata
  records : ∀ key node record,
    (∃ records, verdict.partitions.get? key = some records ∧ records.get? node = some record) ↔
      ∃ outcome, outcomes.get? node = some outcome ∧ outcome.failure = none ∧
        record.key = key ∧ IsLast outcome.partitions record ∧
        (∃ group ∈ desc.groups, group.id = key.group) ∧
        ∃ owners, assignment.owners.get? key = some owners ∧ node ∈ owners
  /-- No partition is listed without a record. -/
  occupied : ∀ key records, verdict.partitions.get? key = some records →
    ∃ node record, records.get? node = some record
  conflicts : ∀ key, verdict.conflicts.contains key = true ↔
    ∃ records a b ra rb, verdict.partitions.get? key = some records ∧ a ≠ b ∧
      records.get? a = some ra ∧ records.get? b = some rb ∧ ra.counter ≠ rb.counter
  counters : ∀ key counters, verdict.conflicts.get? key = some counters →
    ∃ records, verdict.partitions.get? key = some records ∧
      ∀ node, counters.get? node = (records.get? node).map PartitionRecord.counter

namespace Verdict

variable (desc : SnapshotDescriptor) (assignment : Assignment)
variable (outcomes : SortedMap Text NodeOutcome)

theorem contains_missingGroups (entry : MissingGroupEntry)
    : (aggregate desc assignment outcomes).missingGroups.contains entry = true ↔
      ∃ outcome group, outcomes.get? entry.node = some outcome ∧ outcome.failure = none ∧
        entry.group ∈ outcome.missingGroups ∧ desc.HasFirst entry.group group ∧
        entry.name = group.name := by
  rw [collects_missingGroups.contains_iff]
  simp only [Aggregation.missingGroups, List.mem_filterMap, Option.map_eq_some_iff,
    desc.group?_eq_some_iff]
  constructor
  . rintro ⟨node, outcome, hget, hfailure, id, hid, group, hgroup, rfl⟩
    exact ⟨outcome, group, hget, hfailure, hid, hgroup, rfl⟩
  . rintro ⟨outcome, group, hget, hfailure, hid, hgroup, hname⟩
    exact ⟨entry.node, outcome, hget, hfailure, entry.group, hid, group, hgroup,
      by rw [← hname]⟩

theorem contains_missingPartitions (entry : MissingPartitionEntry)
    : (aggregate desc assignment outcomes).missingPartitions.contains entry = true ↔
      ∃ outcome group, outcomes.get? entry.node = some outcome ∧ outcome.failure = none ∧
        entry.key ∈ outcome.missingPartitions ∧ desc.HasFirst entry.key.group group ∧
        entry.key.partition < group.partitions ∧ entry.name = group.name := by
  rw [collects_missingPartitions.contains_iff]
  simp only [Aggregation.missingPartitions, groupOfKey?, List.mem_filterMap,
    Option.map_eq_some_iff, Option.filter_eq_some_iff, decide_eq_true_eq, desc.group?_eq_some_iff]
  constructor
  . rintro ⟨node, outcome, hget, hfailure, key, hkey, group, ⟨hgroup, hrange⟩, rfl⟩
    exact ⟨outcome, group, hget, hfailure, hkey, hgroup, hrange, rfl⟩
  . rintro ⟨outcome, group, hget, hfailure, hkey, hgroup, hrange, hname⟩
    exact ⟨entry.node, outcome, hget, hfailure, entry.key, hkey, group, ⟨hgroup, hrange⟩,
      by rw [← hname]⟩

theorem contains_missingMetadata (entry : MissingMetadataEntry)
    : (aggregate desc assignment outcomes).missingMetadata.contains entry = true ↔
      ∃ outcome, outcomes.get? entry.node = some outcome ∧ outcome.failure = none ∧
        ⟨entry.group, entry.file⟩ ∈ outcome.missingMetadata := by
  rw [collects_missingMetadata.contains_iff]
  simp only [Aggregation.missingMetadata, List.mem_map]
  constructor
  . rintro ⟨node, outcome, hget, hfailure, missing, hmissing, rfl⟩
    exact ⟨outcome, hget, hfailure, hmissing⟩
  . rintro ⟨outcome, hget, hfailure, hmissing⟩
    exact ⟨entry.node, outcome, hget, hfailure, _, hmissing, rfl⟩

theorem recordAt_aggregate_iff (key : PartitionKey) (node : Text) (record : PartitionRecord)
    : recordAt (aggregate desc assignment outcomes) key node = some record ↔
      ∃ outcome, outcomes.get? node = some outcome ∧ outcome.failure = none ∧
        record.key = key ∧ IsLast outcome.partitions record ∧
        (∃ group ∈ desc.groups, group.id = key.group) ∧
        ∃ owners, assignment.owners.get? key = some owners ∧ node ∈ owners := by
  rw [recordAt_aggregate]
  simp only [Option.bind_eq_some_iff, countingRecord, lastRecord_filter_counts,
    NodeOutcome.failed]
  apply exists_congr
  intro outcome
  cases outcome.failure with
  | some failure => simp
  | none =>
    simp only [Option.isSome_none, Bool.false_eq_true, if_false, true_and,
      Option.ite_none_right_eq_some, Bool.and_eq_true, desc.isSome_group?_iff,
      assignment.isOwner_eq_true_iff, lastRecord_eq_some_iff]
    constructor
    . rintro ⟨hget, hcounts, hkey, hlast⟩
      exact ⟨hget, hkey, hlast, hcounts⟩
    . rintro ⟨hget, hkey, hlast, hcounts⟩
      exact ⟨hget, hcounts, hkey, hlast⟩

/--
Aggregation is exact.
-/
theorem exact_aggregate : Exact desc assignment outcomes (aggregate desc assignment outcomes) where
  nodes := contains_nodes desc assignment outcomes
  failures node failure := by
    rw [get?_failures, Option.bind_eq_some_iff]
  surviving := sameFindings_survivors outcomes
  missingGroups := contains_missingGroups desc assignment outcomes
  missingPartitions := contains_missingPartitions desc assignment outcomes
  missingMetadata := contains_missingMetadata desc assignment outcomes
  records key node record := by
    rw [← Option.bind_eq_some_iff]
    exact recordAt_aggregate_iff desc assignment outcomes key node record
  occupied := occupied_aggregate desc assignment outcomes
  conflicts key := by
    rw [show (aggregate desc assignment outcomes).conflicts =
      Aggregation.conflicts (aggregate desc assignment outcomes).partitions from rfl,
      Aggregation.contains_conflicts]
    simp only [inConflict_iff, exists_and_left]
  counters key counters hcounters := by
    rw [show (aggregate desc assignment outcomes).conflicts =
      Aggregation.conflicts (aggregate desc assignment outcomes).partitions from rfl,
      get?_conflicts, Option.map_eq_some_iff] at hcounters
    obtain ⟨records, hrecords, rfl⟩ := hcounters
    exact ⟨records, (Option.filter_eq_some_iff.mp hrecords).1, get?_countersOf records⟩

end Verdict

end SnapshotAudit
