import SnapshotAudit.Proofs.Ordered.Map
import SnapshotAudit.Verdict.Aggregation

/-!
This module contains what each part of a verdict consists of, in terms of the outcomes that the
verdict is on. Outcomes are entered one after another, but what a part says about a node comes from
the outcome of that node alone.
-/

namespace SnapshotAudit

namespace Aggregation

variable {desc : SnapshotDescriptor} {assignment : Assignment}

/-!
The parts of a verdict to which every outcome adds something.
-/

/--
If each outcome adds to what satisfies `P` just that for which `Q` holds, then so does the walk over
all of them.
-/
theorem foldl_enter_iff (desc : SnapshotDescriptor) (assignment : Assignment)
    {P : Verdict → Prop} {Q : Text → NodeOutcome → Prop}
    (step : ∀ verdict node outcome,
      P (enter desc assignment verdict node outcome) ↔ Q node outcome ∨ P verdict)
    (entries : List (Text × NodeOutcome)) (verdict : Verdict)
    : P (entries.foldl (fun verdict e => enter desc assignment verdict e.1 e.2) verdict) ↔
      (∃ e ∈ entries, Q e.1 e.2) ∨ P verdict := by
  induction entries generalizing verdict with
  | nil => simp
  | cons e rest ih =>
    rw [List.foldl_cons, ih, step]
    simp only [List.mem_cons, exists_eq_or_imp]
    grind

theorem contains_nodes_enter (verdict : Verdict) (node : Text) (outcome : NodeOutcome) (q : Text)
    : (enter desc assignment verdict node outcome).nodes.contains q = true ↔
      q = node ∨ verdict.nodes.contains q = true := by
  unfold enter
  split <;> simp [SortedSet.add, SortedMap.contains_insert]

section Collects

variable {κ : Type} [Ord κ] [Std.TransOrd κ] [Std.LawfulEqOrd κ] [DecidableEq κ]

/--
A part of a verdict to which each node that did not fail adds some entries.
-/
structure Collects (desc : SnapshotDescriptor) (assignment : Assignment)
    (part : Verdict → SortedSet κ) (entriesOf : Text → NodeOutcome → List κ) : Prop where
  start : part (start desc) = .empty
  enter : ∀ verdict node outcome, part (enter desc assignment verdict node outcome) =
    if outcome.failed then part verdict else (entriesOf node outcome).foldl .add (part verdict)
  conflicts : ∀ verdict conflicts, part { verdict with conflicts } = part verdict

variable {part : Verdict → SortedSet κ} {entriesOf : Text → NodeOutcome → List κ}

theorem Collects.contains_iff (collects : Collects desc assignment part entriesOf)
    (outcomes : SortedMap Text NodeOutcome) (entry : κ)
    : (part (aggregate desc assignment outcomes)).contains entry = true ↔
      ∃ node outcome, outcomes.get? node = some outcome ∧ outcome.failure = none ∧
        entry ∈ entriesOf node outcome := by
  have hstep (verdict : Verdict) (node : Text) (outcome : NodeOutcome) :
      (part (Aggregation.enter desc assignment verdict node outcome)).contains entry = true ↔
        (outcome.failure = none ∧ entry ∈ entriesOf node outcome) ∨
          (part verdict).contains entry = true := by
    rw [collects.enter, NodeOutcome.failed]
    cases outcome.failure with
    | some failure => simp
    | none => simp [SortedSet.contains_foldl_add]
  have h := foldl_enter_iff desc assignment
    (P := fun verdict => (part verdict).contains entry = true) hstep outcomes.entries
    (Aggregation.start desc)
  unfold aggregate
  dsimp only
  rw [collects.conflicts, h, collects.start]
  simp [SortedMap.mem_entries]

theorem Collects.eq_nil_of_size (collects : Collects desc assignment part entriesOf)
    {outcomes : SortedMap Text NodeOutcome}
    (hsize : (part (aggregate desc assignment outcomes)).size = 0) {node : Text}
    {outcome : NodeOutcome} (h : outcomes.get? node = some outcome)
    (hfailure : outcome.failure = none) : entriesOf node outcome = [] := by
  apply List.eq_nil_iff_forall_not_mem.mpr
  intro entry hmem
  have hentry := (collects.contains_iff outcomes entry).mpr ⟨node, outcome, h, hfailure, hmem⟩
  simp [SortedMap.contains_eq_false_of_size_eq_zero hsize] at hentry

theorem Collects.eq_empty (collects : Collects desc assignment part entriesOf)
    {outcomes : SortedMap Text NodeOutcome}
    (h : ∀ node outcome, outcomes.get? node = some outcome → entriesOf node outcome = [])
    : part (aggregate desc assignment outcomes) = .empty := by
  apply SortedMap.eq_empty_of_get?
  intro entry
  rw [← Option.not_isSome_iff_eq_none]
  intro hentry
  obtain ⟨node, outcome, hget, _, hmem⟩ := (collects.contains_iff outcomes entry).mp hentry
  simp [h node outcome hget] at hmem

end Collects

theorem collects_missingGroups
    : Collects desc assignment Verdict.missingGroups (missingGroups desc) where
  start := rfl
  enter := by
    intro verdict node outcome
    unfold enter NodeOutcome.failed
    cases outcome.failure <;> rfl
  conflicts _ _ := rfl

theorem collects_missingPartitions
    : Collects desc assignment Verdict.missingPartitions (missingPartitions desc) where
  start := rfl
  enter := by
    intro verdict node outcome
    unfold enter NodeOutcome.failed
    cases outcome.failure <;> rfl
  conflicts _ _ := rfl

theorem collects_missingMetadata
    : Collects desc assignment Verdict.missingMetadata missingMetadata where
  start := rfl
  enter := by
    intro verdict node outcome
    unfold enter NodeOutcome.failed
    cases outcome.failure <;> rfl
  conflicts _ _ := rfl

/-!
The parts of a verdict in which every node has a place of its own.
-/

theorem foldl_enter_eq {β : Type} (desc : SnapshotDescriptor) (assignment : Assignment)
    (part : Verdict → β) {node : Text} (own : NodeOutcome → β → β)
    (hown : ∀ verdict outcome,
      part (enter desc assignment verdict node outcome) = own outcome (part verdict))
    (hother : ∀ verdict other outcome, other ≠ node →
      part (enter desc assignment verdict other outcome) = part verdict)
    {entries : List (Text × NodeOutcome)}
    (h : entries.Pairwise fun a b => compare a.1 b.1 = .lt) (verdict : Verdict)
    : part (entries.foldl (fun verdict e => enter desc assignment verdict e.1 e.2) verdict) =
      ((SortedMap.lookup node entries).map own).getD id (part verdict) := by
  induction entries generalizing verdict with
  | nil => rfl
  | cons e rest ih =>
    obtain ⟨hhead, hrest⟩ := List.pairwise_cons.mp h
    rw [List.foldl_cons, ih hrest]
    simp only [SortedMap.lookup, Std.LawfulEqOrd.compare_eq_iff_eq]
    split
    next heq =>
      subst heq
      -- the names are increasing, so that this node does not come up again
      have hlater : SortedMap.lookup e.1 rest = none := SortedMap.lookup_eq_none hhead
      simp [hlater, hown]
    next hne => rw [hother _ _ _ (Ne.symm hne)]

theorem get?_failures_enter_self (verdict : Verdict) (node : Text) (outcome : NodeOutcome)
    : (enter desc assignment verdict node outcome).failures.get? node =
      (verdict.failures.get? node).or outcome.failure := by
  unfold enter
  cases outcome.failure with
  | none => simp
  | some failure =>
    rw [SortedMap.get?_insertIfNew, SortedMap.contains]
    cases verdict.failures.get? node with
    | none => simp
    | some first => simp

theorem get?_failures_enter_other (verdict : Verdict) {node other : Text} (outcome : NodeOutcome)
    (h : other ≠ node)
    : (enter desc assignment verdict other outcome).failures.get? node =
      verdict.failures.get? node := by
  unfold enter
  split
  next => simp [SortedMap.get?_insertIfNew, Ne.symm h]
  next => rfl

def recordAt (verdict : Verdict) (key : PartitionKey) (node : Text) : Option PartitionRecord :=
  (verdict.partitions.get? key).bind fun records => records.get? node

def lastRecord (records : List PartitionRecord) (key : PartitionKey) : Option PartitionRecord :=
  records.reverse.find? fun record => record.key = key

theorem lastRecord_eq_some {records : List PartitionRecord} {key : PartitionKey}
    {record : PartitionRecord} (hmem : record ∈ records) (hkey : record.key = key)
    (hunique : ∀ other ∈ records, other.key = key → other = record)
    : lastRecord records key = some record := by
  unfold lastRecord
  cases hlast : records.reverse.find? fun record => record.key = key with
  | none =>
    have hnone := List.find?_eq_none.mp hlast record (List.mem_reverse.mpr hmem)
    simp [hkey] at hnone
  | some last =>
    have hlastkey : last.key = key := by simpa using List.find?_some hlast
    rw [hunique last (List.mem_reverse.mp (List.mem_of_find?_eq_some hlast)) hlastkey]

/--
The record of a partition by which a node counts, if it has any.
-/
def countingRecord (desc : SnapshotDescriptor) (assignment : Assignment) (node : Text)
    (outcome : NodeOutcome) (key : PartitionKey) : Option PartitionRecord :=
  if outcome.failed then none
  else lastRecord (outcome.partitions.filter (counts desc assignment node)) key

theorem get?_enterRecord (node : Text)
    (partitions : SortedMap PartitionKey (SortedMap Text PartitionRecord))
    (record : PartitionRecord) (key : PartitionKey) (q : Text)
    : ((enterRecord node partitions record).get? key).bind (fun records => records.get? q) =
      if record.key = key ∧ q = node then some record
      else (partitions.get? key).bind fun records => records.get? q := by
  unfold enterRecord
  rw [SortedMap.get?_insert_eq]
  by_cases hkey : key = record.key
  . subst hkey
    simp only [if_true, Option.bind_some, SortedMap.get?_insert_eq, SortedMap.getD]
    by_cases hq : q = node
    . simp [hq]
    . cases partitions.get? record.key with
      | none => simp [hq]
      | some records => simp [hq]
  . simp [hkey, Ne.symm hkey]

theorem get?_foldl_enterRecord_self (node : Text) (records : List PartitionRecord)
    (partitions : SortedMap PartitionKey (SortedMap Text PartitionRecord)) (key : PartitionKey)
    : ((records.foldl (enterRecord node) partitions).get? key).bind
        (fun records => records.get? node) =
      (lastRecord records key).or
        ((partitions.get? key).bind fun records => records.get? node) := by
  induction records generalizing partitions with
  | nil => rfl
  | cons record rest ih =>
    rw [List.foldl_cons, ih, get?_enterRecord]
    simp only [lastRecord, List.reverse_cons, List.find?_append, List.find?_singleton]
    cases rest.reverse.find? fun record => record.key = key with
    | some last => simp
    | none => by_cases h : record.key = key <;> simp [h]

theorem get?_foldl_enterRecord_other {node other : Text} (h : other ≠ node)
    (records : List PartitionRecord)
    (partitions : SortedMap PartitionKey (SortedMap Text PartitionRecord)) (key : PartitionKey)
    : ((records.foldl (enterRecord other) partitions).get? key).bind
        (fun records => records.get? node) =
      (partitions.get? key).bind fun records => records.get? node := by
  induction records generalizing partitions with
  | nil => rfl
  | cons record rest ih =>
    rw [List.foldl_cons, ih, get?_enterRecord]
    simp [Ne.symm h]

theorem recordAt_enter_self (verdict : Verdict) (node : Text) (outcome : NodeOutcome)
    (key : PartitionKey)
    : recordAt (enter desc assignment verdict node outcome) key node =
      (countingRecord desc assignment node outcome key).or (recordAt verdict key node) := by
  unfold enter countingRecord NodeOutcome.failed
  cases outcome.failure with
  | some failure => simp [recordAt]
  | none => exact get?_foldl_enterRecord_self node _ verdict.partitions key

theorem recordAt_enter_other (verdict : Verdict) {node other : Text} (outcome : NodeOutcome)
    (key : PartitionKey) (h : other ≠ node)
    : recordAt (enter desc assignment verdict other outcome) key node =
      recordAt verdict key node := by
  unfold enter
  split
  next => rfl
  next => exact get?_foldl_enterRecord_other h _ verdict.partitions key

def Occupied (partitions : SortedMap PartitionKey (SortedMap Text PartitionRecord)) : Prop :=
  ∀ key records, partitions.get? key = some records → ∃ node record,
    records.get? node = some record

theorem Occupied.enterRecord
    {partitions : SortedMap PartitionKey (SortedMap Text PartitionRecord)}
    (h : Occupied partitions) (node : Text) (record : PartitionRecord)
    : Occupied (enterRecord node partitions record) := by
  intro key records hget
  rw [Aggregation.enterRecord, SortedMap.get?_insert_eq] at hget
  split at hget
  next =>
    cases hget
    exact ⟨node, record, SortedMap.get?_insert_self _ _ _⟩
  next => exact h key records hget

theorem Occupied.enter {verdict : Verdict} (h : Occupied verdict.partitions) (node : Text)
    (outcome : NodeOutcome) : Occupied (enter desc assignment verdict node outcome).partitions := by
  unfold Aggregation.enter
  split
  next => exact h
  next =>
    dsimp only
    generalize outcome.partitions.filter (counts desc assignment node) = records
    generalize verdict.partitions = partitions at h
    induction records generalizing partitions with
    | nil => exact h
    | cons record rest ih => exact ih _ (h.enterRecord node record)

/-!
Copies that do not agree.
-/

theorem inConflict_eq_false {records : SortedMap Text PartitionRecord}
    (h : inConflict records = false) {a b : PartitionRecord} (ha : a ∈ records.values)
    (hb : b ∈ records.values) : a.counter = b.counter := by
  unfold inConflict at h
  split at h
  next hnone => simp [hnone] at ha
  next first rest hvalues =>
    have hfirst : ∀ record ∈ records.values, record.counter = first.counter := by
      intro record hrecord
      rw [hvalues] at hrecord
      cases hrecord with
      | head => rfl
      | tail _ hrest => simpa using List.any_eq_false.mp h record hrest
    rw [hfirst a ha, hfirst b hb]

theorem exists_of_inConflict {records : SortedMap Text PartitionRecord}
    (h : inConflict records = true)
    : ∃ a ∈ records.values, ∃ b ∈ records.values, a.counter ≠ b.counter := by
  unfold inConflict at h
  split at h
  next => cases h
  next first rest hvalues =>
    obtain ⟨record, hrecord, hdiffers⟩ := List.any_eq_true.mp h
    rw [hvalues]
    exact ⟨record, List.mem_cons_of_mem first hrecord, first, List.mem_cons_self,
      by simpa using hdiffers⟩

theorem contains_conflicts
    (partitions : SortedMap PartitionKey (SortedMap Text PartitionRecord)) (key : PartitionKey)
    : (conflicts partitions).contains key = true ↔
      ∃ records, partitions.get? key = some records ∧ inConflict records = true := by
  have hdistinct : (((partitions.entries.filter fun e => inConflict e.2).map
      fun e => (e.1, countersOf e.2)).map Prod.fst).Nodup := by
    rw [List.map_map]
    exact (List.filter_sublist.map Prod.fst).nodup partitions.keys_nodup
  simp only [SortedMap.contains_eq_true_iff, conflicts, SortedMap.get?_ofList hdistinct,
    List.mem_map, List.mem_filter, Prod.exists, Prod.mk.injEq, SortedMap.mem_entries]
  constructor
  . rintro ⟨_, k, records, ⟨hget, hconflict⟩, rfl, _⟩
    exact ⟨records, hget, hconflict⟩
  . rintro ⟨records, hget, hconflict⟩
    exact ⟨countersOf records, key, records, ⟨hget, hconflict⟩, rfl, rfl⟩

end Aggregation

namespace Verdict

open Aggregation

variable (desc : SnapshotDescriptor) (assignment : Assignment)
variable (outcomes : SortedMap Text NodeOutcome)

theorem contains_nodes (node : Text)
    : (aggregate desc assignment outcomes).nodes.contains node = true ↔
      outcomes.contains node = true := by
  have h := foldl_enter_iff desc assignment
    (P := fun verdict => verdict.nodes.contains node = true) (Q := fun other _ => node = other)
    (fun verdict other outcome => contains_nodes_enter verdict other outcome node)
    outcomes.entries (Aggregation.start desc)
  unfold aggregate
  dsimp only
  rw [h]
  simp [Aggregation.start, SortedMap.mem_entries, SortedMap.contains_eq_true_iff]

theorem get?_failures (node : Text)
    : (aggregate desc assignment outcomes).failures.get? node =
      (outcomes.get? node).bind NodeOutcome.failure := by
  have h := foldl_enter_eq desc assignment (fun verdict => verdict.failures.get? node)
    (fun outcome failure => failure.or outcome.failure)
    (fun verdict outcome => get?_failures_enter_self verdict node outcome)
    (fun verdict other outcome => get?_failures_enter_other verdict outcome)
    outcomes.increasing (Aggregation.start desc)
  unfold aggregate
  dsimp only
  rw [h, ← SortedMap.get?]
  cases outcomes.get? node <;> rfl

theorem recordAt_aggregate (key : PartitionKey) (node : Text)
    : recordAt (aggregate desc assignment outcomes) key node =
      (outcomes.get? node).bind fun outcome =>
        countingRecord desc assignment node outcome key := by
  have h := foldl_enter_eq desc assignment (fun verdict => recordAt verdict key node)
    (fun outcome record => (countingRecord desc assignment node outcome key).or record)
    (fun verdict outcome => recordAt_enter_self verdict node outcome key)
    (fun verdict other outcome => recordAt_enter_other verdict outcome key)
    outcomes.increasing (Aggregation.start desc)
  unfold aggregate
  simp only [recordAt] at h ⊢
  rw [h, ← SortedMap.get?]
  cases outcomes.get? node with
  | none => rfl
  | some outcome => simp [Aggregation.start]

theorem occupied_aggregate : Occupied (aggregate desc assignment outcomes).partitions := by
  suffices hfold : ∀ (entries : List (Text × NodeOutcome)) (verdict : Verdict),
      Occupied verdict.partitions →
      Occupied (entries.foldl (fun verdict e => enter desc assignment verdict e.1 e.2)
        verdict).partitions by
    exact hfold outcomes.entries (Aggregation.start desc) fun _ _ hget => by cases hget
  intro entries
  induction entries with
  | nil => exact fun verdict h => h
  | cons e rest ih => exact fun verdict h => ih _ (h.enter e.1 e.2)

/-!
What is known about the nodes when a verdict is clean.
-/

variable {desc assignment outcomes}

theorem failure_eq_none_of_clean (clean : (aggregate desc assignment outcomes).clean = true)
    {node : Text} {outcome : NodeOutcome} (h : outcomes.get? node = some outcome)
    : outcome.failure = none := by
  simp only [Verdict.clean, Bool.and_eq_true] at clean
  have hnone := SortedMap.get?_eq_none_of_isEmpty clean.1.1 node
  simpa [get?_failures, h] using hnone

theorem missing_eq_nil_of_clean (clean : (aggregate desc assignment outcomes).clean = true)
    {node : Text} {outcome : NodeOutcome} (h : outcomes.get? node = some outcome)
    : Aggregation.missingGroups desc node outcome = [] ∧
      Aggregation.missingPartitions desc node outcome = [] ∧
      Aggregation.missingMetadata node outcome = [] := by
  have hfailure := failure_eq_none_of_clean clean h
  simp only [Verdict.clean, Bool.and_eq_true, decide_eq_true_eq, missingCount,
    Nat.add_eq_zero_iff] at clean
  obtain ⟨⟨_, ⟨hgroups, hpartitions⟩, hmetadata⟩, _⟩ := clean
  exact ⟨collects_missingGroups.eq_nil_of_size hgroups h hfailure,
    collects_missingPartitions.eq_nil_of_size hpartitions h hfailure,
    collects_missingMetadata.eq_nil_of_size hmetadata h hfailure⟩

theorem clean_of_whole
    (whole : ∀ node outcome, outcomes.get? node = some outcome → outcome.failure = none ∧
      outcome.missingGroups = [] ∧ outcome.missingPartitions = [] ∧ outcome.missingMetadata = [])
    (agree : ∀ key a b ra rb, recordAt (aggregate desc assignment outcomes) key a = some ra →
      recordAt (aggregate desc assignment outcomes) key b = some rb → ra.counter = rb.counter)
    : (aggregate desc assignment outcomes).clean = true := by
  have hfailures : (aggregate desc assignment outcomes).failures = .empty := by
    apply SortedMap.eq_empty_of_get?
    intro node
    rw [get?_failures]
    cases hget : outcomes.get? node with
    | none => rfl
    | some outcome => exact (whole node outcome hget).1
  have hgroups : (aggregate desc assignment outcomes).missingGroups = .empty :=
    collects_missingGroups.eq_empty fun node outcome hget => by
      simp [Aggregation.missingGroups, (whole node outcome hget).2.1]
  have hpartitions : (aggregate desc assignment outcomes).missingPartitions = .empty :=
    collects_missingPartitions.eq_empty fun node outcome hget => by
      simp [Aggregation.missingPartitions, (whole node outcome hget).2.2.1]
  have hmetadata : (aggregate desc assignment outcomes).missingMetadata = .empty :=
    collects_missingMetadata.eq_empty fun node outcome hget => by
      simp [Aggregation.missingMetadata, (whole node outcome hget).2.2.2]
  have hconflicts : (aggregate desc assignment outcomes).conflicts = .empty := by
    apply SortedMap.eq_empty_of_get?
    intro key
    rw [← Option.not_isSome_iff_eq_none]
    intro hkey
    obtain ⟨records, hrecords, hconflict⟩ := (contains_conflicts _ key).mp hkey
    obtain ⟨ra, hra, rb, hrb, hne⟩ := exists_of_inConflict hconflict
    obtain ⟨a, ha⟩ := SortedMap.mem_values.mp hra
    obtain ⟨b, hb⟩ := SortedMap.mem_values.mp hrb
    exact hne (agree key a b ra rb (Option.bind_eq_some_iff.mpr ⟨records, hrecords, ha⟩)
      (Option.bind_eq_some_iff.mpr ⟨records, hrecords, hb⟩))
  rw [Verdict.clean, missingCount, hfailures, hgroups, hpartitions, hmetadata, hconflicts]
  rfl

end Verdict

end SnapshotAudit
