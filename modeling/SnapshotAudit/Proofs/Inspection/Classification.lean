import SnapshotAudit.Proofs.Inspection.Stages
import SnapshotAudit.Proofs.Lists

/-!
This module contains what an inspection says about each thing that was expected. An inspection that
does not fail has put every expected partition of every group that is there in exactly one place:
among its records or among what is missing.
-/

namespace SnapshotAudit

theorem FileTree.isFile_iff {tree : FileTree} {path : Text}
    : tree.isFile path = true ↔ ∃ id, tree.file path = .ok id := by
  unfold FileTree.isFile FileTree.file
  cases tree.status path with
  | error reason => simp [bind, Except.bind]
  | ok entry => cases entry <;> simp [bind, Except.bind]

theorem FileTree.isFile_eq_false_iff {tree : FileTree} {path : Text}
    : tree.isFile path = false ↔ ∃ reason, tree.file path = .error reason := by
  unfold FileTree.isFile FileTree.file
  cases tree.status path with
  | error reason => simp [bind, Except.bind]
  | ok entry => cases entry <;> simp [bind, Except.bind]

namespace Inspector

variable (inspector : Inspector) (tree : FileTree) (request : VerifyRequest)

def presentGroups : List ExpectedGroup :=
  request.groups.filter fun group => tree.isDirectory (inspector.groupDirectory request group)

def expectedPartitions : List (ExpectedGroup × UInt32) :=
  (inspector.presentGroups tree request).flatMap fun group =>
    group.partitions.map fun p => (group, p)

def holdsFile (expected : ExpectedGroup × UInt32) : Bool :=
  tree.isFile (inspector.partitionPath request expected.1 expected.2)

/--
A record is the one of a partition: the file of the partition is there, nothing in it is damaged,
and the record tells its update counter and how many of its pages were written.
-/
structure IsRecordOf (expected : ExpectedGroup × UInt32) (record : PartitionRecord) : Prop where
  key : record.key = ⟨expected.1.id, expected.2⟩
  present : record.present = true
  crcOk : record.crcOk = true
  file : ∃ bytes,
    tree.read (inspector.partitionPath request expected.1 expected.2) = .ok bytes ∧
      PartitionFile.Sound request.pageSize expected.2 bytes ∧
      PartitionFile.Counts (PartitionFile.image request.pageSize.toNat 0 bytes) record.counter ∧
      record.pages.toNat = (List.range (bytes.length / request.pageSize.toNat)).countP
        (PartitionFile.writtenAt request.pageSize.toNat bytes)

structure Classified (outcome : NodeOutcome) : Prop where
  node : outcome.node = inspector.node
  missingGroups : outcome.missingGroups =
    (request.groups.filter fun group =>
      !tree.isDirectory (inspector.groupDirectory request group)).map ExpectedGroup.id
  records : List.Forall₂ (inspector.IsRecordOf tree request)
    ((inspector.expectedPartitions tree request).filter (inspector.holdsFile tree request))
    outcome.partitions
  missingPartitions : outcome.missingPartitions =
    ((inspector.expectedPartitions tree request).filter fun expected =>
      !inspector.holdsFile tree request expected).map fun expected =>
        ⟨expected.1.id, expected.2⟩
  missingMetadata : outcome.missingMetadata =
    (if tree.isFile (inspector.metafilePath request) then []
      else [⟨none, FileName.metafile inspector.node⟩]) ++
    ((inspector.presentGroups tree request).filter fun group =>
      !tree.isFile (inspector.groupDataPath request group)).map fun group =>
        ⟨some group.id, FileName.groupData⟩

variable {inspector tree request}

/-!
What each check says about a file that is there or missing.
-/

theorem checkPartition_eq_none_iff {group : ExpectedGroup} {p : UInt32}
    : inspector.checkPartition tree request group p = .ok none ↔
      inspector.holdsFile tree request (group, p) = false := by
  unfold holdsFile partitionPath checkPartition
  rw [FileTree.isFile_eq_false_iff]
  dsimp only
  split
  next reason hfile => simp [hfile]
  next id hfile =>
    rw [hfile]
    split <;> simp

theorem isRecordOf_of_check {group : ExpectedGroup} {p : UInt32} {record : PartitionRecord}
    (h : inspector.checkPartition tree request group p = .ok (some record))
    : inspector.IsRecordOf tree request (group, p) record := by
  obtain ⟨bytes, file, pages, hread, hsize, haudit, hrecord⟩ := checkPartition_eq_some h
  obtain ⟨hsound, hcounts⟩ := (PartitionFile.audited_iff _ _ _ _ _).mp ⟨file, pages, hsize, haudit⟩
  have hword : (bytes.length / request.pageSize.toNat).toUInt32.toNat =
      bytes.length / request.pageSize.toNat := UInt32.toNat_ofNat_of_lt' hsound.countable
  obtain ⟨_, _, _, _, _, rfl⟩ := (PartitionFile.ofSize_eq_ok_iff _ _ _ _ _).mp hsize
  have hpages := PartitionFile.visited_of_audit hsound.minimum
    (Nat.le_of_eq (by rw [hword, Nat.div_mul_cancel hsound.even])) haudit
  rw [hword] at hpages
  -- no more pages were written than there are, and their number fits a word
  have hfew : pages < UInt32.size := by
    apply Nat.lt_of_le_of_lt _ hsound.countable
    rw [hpages]
    exact Nat.le_trans List.countP_le_length (Nat.le_of_eq List.length_range)
  rw [hrecord]
  exact ⟨rfl, rfl, rfl, bytes, hread, hsound, hcounts,
    (UInt32.toNat_ofNat_of_lt' hfew).trans hpages⟩

theorem lacks_eq (group : ExpectedGroup) (p : UInt32)
    : inspector.lacks tree request group p = !inspector.holdsFile tree request (group, p) := by
  rw [Bool.eq_iff_iff, Bool.not_eq_true', ← checkPartition_eq_none_iff, lacks, decide_eq_true_iff]
  cases inspector.checkPartition tree request group p <;> simp [Except.toOption]

theorem checkMetafile_ok {missing : List MissingMetadata}
    (h : inspector.checkMetafile tree request = .ok missing)
    : missing = if tree.isFile (inspector.metafilePath request) then []
        else [⟨none, FileName.metafile inspector.node⟩] := by
  unfold checkMetafile at h
  unfold metafilePath
  dsimp only at h
  split at h
  next reason hfile =>
    cases h
    simp [FileTree.isFile_eq_false_iff.mpr ⟨reason, hfile⟩]
  next id hfile =>
    rw [FileTree.isFile_iff.mpr ⟨id, hfile⟩, if_pos rfl]
    split at h
    next => cases h
    next =>
      split at h
      next => cases h
      next => exact (Except.ok.inj h).symm

theorem checkGroupData_ok {group : ExpectedGroup} {missing : List MissingMetadata}
    (h : inspector.checkGroupData tree request group = .ok missing)
    : missing = if tree.isFile (inspector.groupDataPath request group) then []
        else [⟨some group.id, FileName.groupData⟩] := by
  unfold checkGroupData at h
  unfold groupDataPath
  dsimp only at h
  split at h
  next reason hfile =>
    cases h
    simp [FileTree.isFile_eq_false_iff.mpr ⟨reason, hfile⟩]
  next id hfile =>
    rw [FileTree.isFile_iff.mpr ⟨id, hfile⟩, if_pos rfl]
    split at h
    next => cases h
    next =>
      split at h
      next => cases h
      next => exact (Except.ok.inj h).symm

/-!
What is found in all groups together.
-/

theorem flatMap_missingGroups
    : request.groups.flatMap (fun group => (inspector.findings tree request group).missingGroups) =
      (request.groups.filter fun group =>
        !tree.isDirectory (inspector.groupDirectory request group)).map ExpectedGroup.id := by
  rw [List.map_eq_flatMap, flatMap_filter]
  apply List.flatMap_congr
  intro group _
  unfold findings
  cases tree.isDirectory (inspector.groupDirectory request group) <;> rfl

theorem flatMap_missingPartitions
    : request.groups.flatMap
        (fun group => (inspector.findings tree request group).missingPartitions) =
      ((inspector.expectedPartitions tree request).filter fun expected =>
        !inspector.holdsFile tree request expected).map fun expected =>
          ⟨expected.1.id, expected.2⟩ := by
  rw [expectedPartitions, presentGroups, flatMap_filter, List.filter_flatMap, List.map_flatMap]
  apply List.flatMap_congr
  intro group _
  unfold findings
  cases tree.isDirectory (inspector.groupDirectory request group) with
  | false => rfl
  | true =>
    simp only [if_true, List.filter_map, List.map_map]
    congr 2
    funext p
    exact lacks_eq group p

theorem flatMap_partitions
    : request.groups.flatMap (fun group => (inspector.findings tree request group).partitions) =
      (inspector.expectedPartitions tree request).filterMap fun expected =>
        inspector.recordOf? tree request expected.1 expected.2 := by
  rw [expectedPartitions, presentGroups, flatMap_filter, List.filterMap_flatMap]
  apply List.flatMap_congr
  intro group _
  unfold findings
  cases tree.isDirectory (inspector.groupDirectory request group) with
  | false => rfl
  | true => simp only [if_true, List.filterMap_map, Function.comp_def]

theorem flatMap_missingMetadata
    (hintact : ∀ group ∈ request.groups, inspector.Intact tree request group)
    : (request.groups.flatMap fun group =>
        (inspector.findings tree request group).missingMetadata) =
      ((inspector.presentGroups tree request).filter fun group =>
        !tree.isFile (inspector.groupDataPath request group)).map fun group =>
          ⟨some group.id, FileName.groupData⟩ := by
  rw [List.map_eq_flatMap, flatMap_filter, presentGroups, flatMap_filter]
  apply List.flatMap_congr
  intro group hgroup
  unfold findings
  cases hdirectory : tree.isDirectory (inspector.groupDirectory request group) with
  | false => rfl
  | true =>
    obtain ⟨missing, hmissing⟩ := (hintact group hgroup).groupData hdirectory
    rw [hmissing, checkGroupData_ok hmissing]
    cases tree.isFile (inspector.groupDataPath request group) <;> rfl

theorem forall₂_records
    (hintact : ∀ group ∈ request.groups, inspector.Intact tree request group)
    : List.Forall₂ (inspector.IsRecordOf tree request)
        ((inspector.expectedPartitions tree request).filter (inspector.holdsFile tree request))
        ((inspector.expectedPartitions tree request).filterMap fun expected =>
          inspector.recordOf? tree request expected.1 expected.2) := by
  apply forall₂_filter_filterMap
  . rintro ⟨group, p⟩ hexpected hfile
    simp only [expectedPartitions, presentGroups, List.mem_flatMap, List.mem_filter, List.mem_map,
      Prod.mk.injEq] at hexpected
    obtain ⟨_, ⟨hgroup, hdirectory⟩, _, hp, rfl, rfl⟩ := hexpected
    obtain ⟨found, hfound⟩ := (hintact _ hgroup).partitions hdirectory _ hp
    cases found with
    | none =>
      rw [checkPartition_eq_none_iff.mp hfound] at hfile
      cases hfile
    | some record => exact ⟨record, recordOf?_eq_some_iff.mpr hfound, isRecordOf_of_check hfound⟩
  . rintro ⟨group, p⟩ _ hfile
    simp [recordOf?, checkPartition_eq_none_iff.mpr hfile, Except.toOption]

theorem classified_of_inspect {cancelled : Nat → Bool}
    (h : (inspector.inspect tree request cancelled).1.outcome.failure = none)
    : inspector.Classified tree request
        (inspector.inspect tree request cancelled).1.outcome := by
  obtain ⟨missing, _, hmissing, hintact, houtcome⟩ := inspect_ok h
  rw [houtcome]
  constructor
  . rfl
  . simp only [enter, NodeOutcome.blank, List.nil_append, List.flatMap_map]
    exact flatMap_missingGroups
  . simp only [enter, NodeOutcome.blank, List.nil_append, List.flatMap_map]
    rw [flatMap_partitions]
    exact forall₂_records hintact
  . simp only [enter, NodeOutcome.blank, List.nil_append, List.flatMap_map]
    exact flatMap_missingPartitions
  . simp only [enter, List.flatMap_map]
    rw [flatMap_missingMetadata hintact, checkMetafile_ok hmissing]

/--
An inspection fails as a whole, with the first violation in its order and with nothing else to say,
or it finds no violation and everything that was expected is in its place.
-/
theorem inspect_classifies (inspector : Inspector) (tree : FileTree) (request : VerifyRequest)
    (cancelled : Nat → Bool)
    : let outcome := (inspector.inspect tree request cancelled).1.outcome
      (∀ failure, outcome.failure = some failure ↔
        inspector.FirstViolation tree request cancelled failure) ∧
      (∀ failure, outcome.failure = some failure →
        outcome = .failedWith inspector.node failure ∧
        (failure.kind = .snapshotNotFound ∨ failure.kind = .cancelled ∨
          PartitionFile.IsDamage failure.kind)) ∧
      (outcome.failure = none → inspector.Classified tree request outcome) := by
  refine ⟨fun failure => failure_eq_some_iff, ?_, classified_of_inspect⟩
  intro failure h
  exact ⟨outcome_of_failure h, (failure_eq_some_iff.mp h).kind⟩

end Inspector

end SnapshotAudit
