import SnapshotAudit.Inspection
import SnapshotAudit.Proofs.PartitionFile.Audits

/-!
This module contains what an inspection that does not fail has found: it has looked at everything
that was expected, nothing of it was damaged, and what is missing is noted. An inspection that says
that it was cancelled was told so, and one that is told nothing and finds nothing damaged does not
fail.
-/

namespace SnapshotAudit

theorem PartitionError.kind_ne_cancelled (error : PartitionError) : error.kind ≠ .cancelled := by
  cases error <;> simp [kind, FailureKind.corruptPage, FailureKind.internal,
    FailureKind.structureViolation, FailureKind.cancelled]

@[simp]
theorem InspectionError.kind_failure (error : InspectionError)
    : error.failure.kind = error.kind := by
  cases error <;> rfl

namespace Inspector

variable (inspector : Inspector) (tree : FileTree) (request : VerifyRequest)

/-!
What there is to be found, check by check.
-/

def recordOf? (group : ExpectedGroup) (partition : UInt32) : Option PartitionRecord :=
  (inspector.checkPartition tree request group partition).toOption.join

def lacks (group : ExpectedGroup) (partition : UInt32) : Bool :=
  (inspector.checkPartition tree request group partition).toOption = some none

def findings (group : ExpectedGroup) : NodeOutcome :=
  let blank := NodeOutcome.blank inspector.node
  if tree.isDirectory (inspector.groupDirectory request group) then
    { blank with
      partitions := group.partitions.filterMap (inspector.recordOf? tree request group)
      missingPartitions :=
        (group.partitions.filter (inspector.lacks tree request group)).map fun p => ⟨group.id, p⟩
      missingMetadata := (inspector.checkGroupData tree request group).toOption.getD [] }
  else { blank with missingGroups := [group.id] }

structure Intact (group : ExpectedGroup) : Prop where
  groupData : tree.isDirectory (inspector.groupDirectory request group) = true →
    ∃ missing, inspector.checkGroupData tree request group = .ok missing
  partitions : tree.isDirectory (inspector.groupDirectory request group) = true →
    ∀ p ∈ group.partitions, ∃ found, inspector.checkPartition tree request group p = .ok found

def enter (outcome : NodeOutcome) (groups : List ExpectedGroup) : NodeOutcome :=
  let found := groups.map (inspector.findings tree request)
  { outcome with
    partitions := outcome.partitions ++ found.flatMap NodeOutcome.partitions
    missingGroups := outcome.missingGroups ++ found.flatMap NodeOutcome.missingGroups
    missingPartitions := outcome.missingPartitions ++ found.flatMap NodeOutcome.missingPartitions
    missingMetadata := outcome.missingMetadata ++ found.flatMap NodeOutcome.missingMetadata }

variable {inspector tree request}

theorem enter_nil (outcome : NodeOutcome) : inspector.enter tree request outcome [] = outcome := by
  simp [enter]

theorem enter_cons (outcome : NodeOutcome) (group : ExpectedGroup) (rest : List ExpectedGroup)
    : inspector.enter tree request (inspector.enter tree request outcome [group]) rest =
      inspector.enter tree request outcome (group :: rest) := by
  simp [enter]

/-!
What comes of a walk that reaches its end.
-/

variable {cancelled : Nat → Bool}

section Walk

-- without this the equations below take long to see: the check of a file would be unfolded
attribute [local irreducible] checkPartition

theorem checkPartitions_nil (group : ExpectedGroup) (state : Inspection)
    : inspector.checkPartitions tree request cancelled group state [] = (state, none) := rfl

theorem checkPartitions_cons (group : ExpectedGroup) (state : Inspection) (p : UInt32)
    (rest : List UInt32)
    : inspector.checkPartitions tree request cancelled group state (p :: rest) =
      match inspector.poll request cancelled state with
      | (state, some error) => (state, some error)
      | (state, none) =>
        match inspector.checkPartition tree request group p with
        | .error error => (state, some error)
        | .ok found =>
          let outcome :=
            match found with
            | none =>
              { state.outcome with
                missingPartitions := state.outcome.missingPartitions ++ [⟨group.id, p⟩] }
            | some record =>
              { state.outcome with partitions := state.outcome.partitions ++ [record] }
          inspector.checkPartitions tree request cancelled group { state with outcome } rest := rfl

end Walk

theorem poll_ok {state next : Inspection}
    (h : inspector.poll request cancelled state = (next, none)) : next.outcome = state.outcome := by
  simp only [poll, Prod.mk.injEq] at h
  rw [← h.1]

theorem checkPartitions_ok {group : ExpectedGroup} {partitions : List UInt32}
    {state final : Inspection}
    (h : inspector.checkPartitions tree request cancelled group state partitions = (final, none))
    : (∀ p ∈ partitions, ∃ found, inspector.checkPartition tree request group p = .ok found) ∧
      final.outcome = { state.outcome with
        partitions := state.outcome.partitions ++
          partitions.filterMap (inspector.recordOf? tree request group)
        missingPartitions := state.outcome.missingPartitions ++
          (partitions.filter (inspector.lacks tree request group)).map
            fun p => ⟨group.id, p⟩ } := by
  induction partitions generalizing state with
  | nil =>
    simp only [checkPartitions_nil, Prod.mk.injEq, and_true] at h
    simp [h]
  | cons p rest ih =>
    rw [checkPartitions_cons] at h
    split at h
    next => simp at h
    next next hpoll =>
      have hsame := poll_ok hpoll
      split at h
      next => simp at h
      next found hfound =>
        obtain ⟨hrest, houtcome⟩ := ih h
        refine ⟨List.forall_mem_cons.mpr ⟨⟨found, hfound⟩, hrest⟩, ?_⟩
        rw [houtcome, List.filterMap_cons, List.filter_cons]
        simp only [recordOf?, lacks, hfound, hsame, Except.toOption]
        cases found with
        | none => simp
        | some record => simp

theorem checkGroup_ok {group : ExpectedGroup} {state final : Inspection}
    (h : inspector.checkGroup tree request cancelled state group = (final, none))
    : inspector.Intact tree request group ∧
      final.outcome = inspector.enter tree request state.outcome [group] := by
  unfold checkGroup at h
  split at h
  next hdirectory =>
    split at h
    next => simp at h
    next missing hmissing =>
      obtain ⟨hpartitions, houtcome⟩ := checkPartitions_ok h
      refine ⟨⟨fun _ => ⟨missing, hmissing⟩, fun _ => hpartitions⟩, ?_⟩
      rw [houtcome]
      simp [enter, findings, hdirectory, hmissing, NodeOutcome.blank, Except.toOption]
  next hdirectory =>
    refine ⟨⟨fun h => absurd h hdirectory, fun h => absurd h hdirectory⟩, ?_⟩
    simp only [Prod.mk.injEq, and_true] at h
    simp [← h, enter, findings, hdirectory, NodeOutcome.blank]

theorem checkGroups_ok {groups : List ExpectedGroup} {state final : Inspection}
    (h : inspector.checkGroups tree request cancelled state groups = (final, none))
    : (∀ group ∈ groups, inspector.Intact tree request group) ∧
      final.outcome = inspector.enter tree request state.outcome groups := by
  induction groups generalizing state with
  | nil =>
    simp only [checkGroups, Prod.mk.injEq, and_true] at h
    simp [h, enter_nil]
  | cons group rest ih =>
    simp only [checkGroups] at h
    split at h
    next => simp at h
    next next hpoll =>
      split at h
      next => simp at h
      next last hgroup =>
        obtain ⟨hintact, hlast⟩ := checkGroup_ok hgroup
        obtain ⟨hrest, houtcome⟩ := ih h
        refine ⟨List.forall_mem_cons.mpr ⟨hintact, hrest⟩, ?_⟩
        rw [houtcome, hlast, poll_ok hpoll, enter_cons]

theorem inspect_ok
    (h : (inspector.inspect tree request cancelled).1.outcome.failure = none)
    : ∃ missing, tree.isDirectory (inspector.directory request) = true ∧
        inspector.checkMetafile tree request = .ok missing ∧
        (∀ group ∈ request.groups, inspector.Intact tree request group) ∧
        (inspector.inspect tree request cancelled).1.outcome =
          inspector.enter tree request
            { NodeOutcome.blank inspector.node with missingMetadata := missing }
            request.groups := by
  unfold inspect at h ⊢
  cases hwalk : inspector.walk tree request cancelled with
  | mk final error =>
    cases error with
    | some error => simp [hwalk, NodeOutcome.failedWith] at h
    | none =>
      dsimp only
      unfold walk at hwalk
      dsimp only at hwalk
      split at hwalk
      next => simp at hwalk
      next hdirectory =>
        split at hwalk
        next => simp at hwalk
        next missing hmissing =>
          obtain ⟨hintact, houtcome⟩ := checkGroups_ok hwalk
          exact ⟨missing, by simp_all, hmissing, hintact, houtcome⟩

/-!
What it means that something is found, in terms of the files.
-/

theorem read_eq_ok_iff {path : Text} {bytes : Bytes}
    : tree.read path = .ok bytes ↔ ∃ id, tree.file path = .ok id ∧ bytes = tree.bytesOf id := by
  unfold FileTree.read
  cases tree.file path with
  | error error => simp [bind, Except.bind]
  | ok id => simp [bind, Except.bind, pure, Except.pure, eq_comm]

def HoldsPartition (tree : FileTree) (path : Text) (pageSize partition : UInt32)
    (counter : UInt64) : Prop :=
  ∃ bytes, tree.read path = .ok bytes ∧ PartitionFile.Sound pageSize partition bytes ∧
    PartitionFile.Counts (PartitionFile.image pageSize.toNat 0 bytes) counter

def HoldsGroupData (tree : FileTree) (path : Text) (group : Int32) : Prop :=
  ∃ bytes data, tree.read path = .ok bytes ∧ GroupData.decode? bytes = some data ∧
    data.id = group

def HoldsMetafile (tree : FileTree) (path snapshot node : Text) : Prop :=
  ∃ bytes metadata, tree.read path = .ok bytes ∧
    SnapshotMetadata.decode? bytes = some metadata ∧ metadata.descriptor.name = snapshot ∧
    metadata.node = node

theorem checkPartition_eq_some {group : ExpectedGroup} {partition : UInt32}
    {record : PartitionRecord}
    (h : inspector.checkPartition tree request group partition = .ok (some record))
    : ∃ bytes file pages,
        tree.read (Path.join (inspector.groupDirectory request group)
          (FileName.partition partition)) = .ok bytes ∧
        PartitionFile.ofSize (Path.join (inspector.groupDirectory request group)
          (FileName.partition partition)) request.pageSize partition bytes.length = .ok file ∧
        file.audit bytes = .ok (record.counter, pages) ∧
        record = ⟨⟨group.id, partition⟩, record.counter, true, true, pages.toUInt32⟩ := by
  unfold checkPartition at h
  dsimp only at h
  split at h
  next => cases h
  next id hfile =>
    split at h
    next => cases h
    next counter pages haudit =>
      cases h
      have hread := read_eq_ok_iff.mpr ⟨id, hfile, rfl⟩
      cases hsize : PartitionFile.ofSize
          (Path.join (inspector.groupDirectory request group) (FileName.partition partition))
          request.pageSize partition (tree.bytesOf id).length with
      | error error =>
        rw [hsize] at haudit
        cases haudit
      | ok file =>
        rw [hsize] at haudit
        exact ⟨_, file, pages, hread, hsize, haudit, rfl⟩

theorem recordOf?_eq_some_iff {group : ExpectedGroup} {partition : UInt32}
    {record : PartitionRecord}
    : inspector.recordOf? tree request group partition = some record ↔
      inspector.checkPartition tree request group partition = .ok (some record) := by
  unfold recordOf?
  cases inspector.checkPartition tree request group partition <;> simp [Except.toOption]

theorem recordOf?_eq_some {group : ExpectedGroup} {partition : UInt32} {record : PartitionRecord}
    (h : inspector.recordOf? tree request group partition = some record)
    : record.key = ⟨group.id, partition⟩ ∧
      HoldsPartition tree
        (Path.join (inspector.groupDirectory request group) (FileName.partition partition))
        request.pageSize partition record.counter := by
  obtain ⟨bytes, file, pages, hread, hsize, haudit, hrecord⟩ :=
    checkPartition_eq_some (recordOf?_eq_some_iff.mp h)
  exact ⟨congrArg PartitionRecord.key hrecord, bytes, hread,
    (PartitionFile.audited_iff _ _ _ _ _).mp ⟨file, pages, hsize, haudit⟩⟩

theorem recordOf?_of_not_lacks {group : ExpectedGroup} {partition : UInt32}
    (h : ∃ found, inspector.checkPartition tree request group partition = .ok found)
    (hlacks : inspector.lacks tree request group partition = false)
    : ∃ record, inspector.recordOf? tree request group partition = some record := by
  obtain ⟨found, hfound⟩ := h
  cases found with
  | none => simp [lacks, hfound, Except.toOption] at hlacks
  | some record => exact ⟨record, by simp [recordOf?, hfound, Except.toOption]⟩

theorem holdsGroupData_of_check {group : ExpectedGroup}
    (h : inspector.checkGroupData tree request group = .ok [])
    : HoldsGroupData tree
        (Path.join (inspector.groupDirectory request group) FileName.groupData) group.id := by
  unfold checkGroupData at h
  dsimp only at h
  split at h
  next => cases h
  next id hfile =>
    split at h
    next => cases h
    next data hdata =>
      split at h
      next => cases h
      next hid =>
        exact ⟨tree.bytesOf id, data, read_eq_ok_iff.mpr ⟨id, hfile, rfl⟩, hdata,
          Decidable.not_not.mp hid⟩

theorem holdsMetafile_of_check (h : inspector.checkMetafile tree request = .ok [])
    : HoldsMetafile tree
        (Path.join (inspector.directory request) (FileName.metafile inspector.node))
        request.snapshot inspector.node := by
  unfold checkMetafile at h
  dsimp only at h
  split at h
  next => cases h
  next id hfile =>
    split at h
    next => cases h
    next metadata hmetadata =>
      split at h
      next => cases h
      next hown =>
        simp only [Bool.or_eq_true, decide_eq_true_eq, not_or, Decidable.not_not] at hown
        exact ⟨tree.bytesOf id, metadata, read_eq_ok_iff.mpr ⟨id, hfile, rfl⟩, hmetadata,
          hown.1, hown.2⟩

theorem recordOf?_of_mem_partitions
    (h : (inspector.inspect tree request cancelled).1.outcome.failure = none)
    {record : PartitionRecord}
    (hrecord : record ∈ (inspector.inspect tree request cancelled).1.outcome.partitions)
    : ∃ group ∈ request.groups, ∃ p ∈ group.partitions,
        inspector.recordOf? tree request group p = some record := by
  obtain ⟨missing, _, _, _, houtcome⟩ := inspect_ok h
  rw [houtcome] at hrecord
  simp only [enter, NodeOutcome.blank, List.nil_append, List.mem_flatMap, List.mem_map] at hrecord
  obtain ⟨_, ⟨group, hgroup, rfl⟩, hfound⟩ := hrecord
  unfold findings at hfound
  dsimp only at hfound
  split at hfound
  next =>
    obtain ⟨p, hp, hrecord⟩ := List.mem_filterMap.mp hfound
    exact ⟨group, hgroup, p, hp, hrecord⟩
  next => simp [NodeOutcome.blank] at hfound

theorem inspect_node (h : (inspector.inspect tree request cancelled).1.outcome.failure = none)
    : (inspector.inspect tree request cancelled).1.outcome.node = inspector.node := by
  obtain ⟨missing, _, _, _, houtcome⟩ := inspect_ok h
  rw [houtcome]
  rfl

theorem exists_of_mem_missingGroups
    (h : (inspector.inspect tree request cancelled).1.outcome.failure = none) {id : Int32}
    (hid : id ∈ (inspector.inspect tree request cancelled).1.outcome.missingGroups)
    : ∃ group ∈ request.groups, id = group.id := by
  obtain ⟨missing, _, _, _, houtcome⟩ := inspect_ok h
  rw [houtcome] at hid
  simp only [enter, NodeOutcome.blank, List.nil_append, List.mem_flatMap, List.mem_map] at hid
  obtain ⟨_, ⟨group, hgroup, rfl⟩, hfound⟩ := hid
  unfold findings at hfound
  dsimp only at hfound
  split at hfound
  next => simp [NodeOutcome.blank] at hfound
  next => exact ⟨group, hgroup, List.mem_singleton.mp hfound⟩

theorem exists_of_mem_missingPartitions
    (h : (inspector.inspect tree request cancelled).1.outcome.failure = none) {key : PartitionKey}
    (hkey : key ∈ (inspector.inspect tree request cancelled).1.outcome.missingPartitions)
    : ∃ group ∈ request.groups, ∃ p ∈ group.partitions, key = ⟨group.id, p⟩ := by
  obtain ⟨missing, _, _, _, houtcome⟩ := inspect_ok h
  rw [houtcome] at hkey
  simp only [enter, NodeOutcome.blank, List.nil_append, List.mem_flatMap, List.mem_map] at hkey
  obtain ⟨_, ⟨group, hgroup, rfl⟩, hfound⟩ := hkey
  unfold findings at hfound
  dsimp only at hfound
  split at hfound
  next =>
    obtain ⟨p, hp, rfl⟩ := List.mem_map.mp hfound
    exact ⟨group, hgroup, p, (List.mem_filter.mp hp).1, rfl⟩
  next => simp [NodeOutcome.blank] at hfound

theorem complete_of_inspect
    (h : (inspector.inspect tree request cancelled).1.outcome.failure = none)
    (hgroups : (inspector.inspect tree request cancelled).1.outcome.missingGroups = [])
    (hpartitions : (inspector.inspect tree request cancelled).1.outcome.missingPartitions = [])
    (hmetadata : (inspector.inspect tree request cancelled).1.outcome.missingMetadata = [])
    : inspector.checkMetafile tree request = .ok [] ∧
      ∀ group ∈ request.groups,
        tree.isDirectory (inspector.groupDirectory request group) = true ∧
        inspector.checkGroupData tree request group = .ok [] ∧
        ∀ p ∈ group.partitions,
          ∃ record ∈ (inspector.inspect tree request cancelled).1.outcome.partitions,
            inspector.recordOf? tree request group p = some record := by
  obtain ⟨missing, _, hmissing, hintact, houtcome⟩ := inspect_ok h
  rw [houtcome] at hgroups hpartitions hmetadata ⊢
  simp only [enter, NodeOutcome.blank, List.nil_append, List.append_eq_nil_iff,
    List.flatMap_eq_nil_iff, List.forall_mem_map] at hgroups hpartitions hmetadata
  refine ⟨hmetadata.1 ▸ hmissing, ?_⟩
  intro group hgroup
  -- without the directory the group itself would be among what is missing
  have hdirectory : tree.isDirectory (inspector.groupDirectory request group) = true := by
    apply Classical.byContradiction
    intro hnone
    have := hgroups group hgroup
    simp [findings, hnone] at this
  have hfindings : inspector.findings tree request group = { NodeOutcome.blank inspector.node with
      partitions := group.partitions.filterMap (inspector.recordOf? tree request group)
      missingPartitions := (group.partitions.filter (inspector.lacks tree request group)).map
        fun p => ⟨group.id, p⟩
      missingMetadata := (inspector.checkGroupData tree request group).toOption.getD [] } := by
    simp [findings, hdirectory]
  refine ⟨hdirectory, ?_, ?_⟩
  . obtain ⟨lost, hlost⟩ := (hintact group hgroup).groupData hdirectory
    have hnone := hmetadata.2 group hgroup
    rw [hfindings, hlost] at hnone
    rw [hlost, show lost = [] from hnone]
  . intro p hp
    have hnone := hpartitions group hgroup
    rw [hfindings] at hnone
    simp only [List.map_eq_nil_iff, List.filter_eq_nil_iff, Bool.not_eq_true] at hnone
    obtain ⟨record, hrecord⟩ := recordOf?_of_not_lacks
      ((hintact group hgroup).partitions hdirectory p hp) (hnone p hp)
    refine ⟨record, ?_, hrecord⟩
    simp only [enter, NodeOutcome.blank, List.nil_append, List.mem_flatMap, List.mem_map]
    refine ⟨_, ⟨group, hgroup, rfl⟩, ?_⟩
    rw [hfindings]
    exact List.mem_filterMap.mpr ⟨p, hp, hrecord⟩

theorem failure_of_walk {final : Inspection}
    (h : inspector.walk tree request cancelled = (final, none)) : final.outcome.failure = none := by
  unfold walk at h
  dsimp only at h
  split at h
  next => cases h
  next =>
    split at h
    next => cases h
    next =>
      rw [(checkGroups_ok h).2]
      rfl

/-!
A walk over a copy in which nothing is damaged reaches its end, unless it is told to stop.
-/

section Calm

variable (calm : ∀ n, cancelled n = false)

include calm

theorem poll_of_calm (state : Inspection)
    : inspector.poll request cancelled state = ({ state with polls := state.polls + 1 }, none) := by
  simp [poll, calm]

theorem checkPartitions_of_intact {group : ExpectedGroup} {partitions : List UInt32}
    (h : ∀ p ∈ partitions, ∃ found, inspector.checkPartition tree request group p = .ok found)
    (state : Inspection)
    : (inspector.checkPartitions tree request cancelled group state partitions).2 = none := by
  induction partitions generalizing state with
  | nil => rfl
  | cons p rest ih =>
    obtain ⟨⟨found, hfound⟩, hrest⟩ := List.forall_mem_cons.mp h
    rw [checkPartitions_cons, poll_of_calm calm, hfound]
    exact ih hrest _

theorem checkGroup_of_intact {group : ExpectedGroup} (h : inspector.Intact tree request group)
    (state : Inspection)
    : (inspector.checkGroup tree request cancelled state group).2 = none := by
  unfold checkGroup
  split
  next hdirectory =>
    obtain ⟨missing, hmissing⟩ := h.groupData hdirectory
    rw [hmissing]
    exact checkPartitions_of_intact calm (h.partitions hdirectory) _
  next => rfl

theorem checkGroups_of_intact {groups : List ExpectedGroup}
    (h : ∀ group ∈ groups, inspector.Intact tree request group) (state : Inspection)
    : (inspector.checkGroups tree request cancelled state groups).2 = none := by
  induction groups generalizing state with
  | nil => rfl
  | cons group rest ih =>
    obtain ⟨hgroup, hrest⟩ := List.forall_mem_cons.mp h
    rw [checkGroups, poll_of_calm calm]
    dsimp only
    split
    next failed error hfailed =>
      have hnone := checkGroup_of_intact calm hgroup { state with polls := state.polls + 1 }
      rw [hfailed] at hnone
      cases hnone
    next => exact ih hrest _

theorem failure_of_intact {missing : List MissingMetadata} (hsnapshot : request.snapshot ≠ [])
    (hdirectory : tree.isDirectory (inspector.directory request) = true)
    (hmissing : inspector.checkMetafile tree request = .ok missing)
    (h : ∀ group ∈ request.groups, inspector.Intact tree request group)
    : (inspector.inspect tree request cancelled).1.outcome.failure = none := by
  have hwalk : (inspector.walk tree request cancelled).2 = none := by
    have hempty : request.snapshot.isEmpty = false := by simpa using hsnapshot
    simp only [walk, hempty, hdirectory, Bool.not_true, Bool.or_self, Bool.false_eq_true, if_false,
      hmissing]
    exact checkGroups_of_intact calm h _
  unfold inspect
  split
  next final hend => exact failure_of_walk hend
  next final error hend =>
    rw [hend] at hwalk
    cases hwalk

end Calm

end Inspector

end SnapshotAudit
