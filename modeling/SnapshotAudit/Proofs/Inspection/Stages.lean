import SnapshotAudit.Proofs.Inspection
import SnapshotAudit.Proofs.PartitionFile.Damage

/-!
This module contains in which order an inspection looks at things, and that it stops at the first
one that is not as it must be. What was found before that is forgotten.
-/

namespace SnapshotAudit

namespace Inspector

/--
What an inspection does, one thing after the other: look for the directory of the snapshot and for
the metafile, ask whether it is still wanted, and look into the data files and partition files.
-/
inductive Stage where
  | directory
  | metafile
  | poll
  | groupData (group : ExpectedGroup)
  | partition (group : ExpectedGroup) (partition : UInt32)

namespace Stage

def polls (stages : List Stage) : Nat :=
  stages.countP fun stage => stage matches poll

theorem polls_append (front back : List Stage) : polls (front ++ back) = polls front + polls back :=
  List.countP_append

end Stage

variable (inspector : Inspector) (tree : FileTree) (request : VerifyRequest)

def metafilePath : Text :=
  Path.join (inspector.directory request) (FileName.metafile inspector.node)

def groupDataPath (group : ExpectedGroup) : Text :=
  Path.join (inspector.groupDirectory request group) FileName.groupData

def partitionPath (group : ExpectedGroup) (partition : UInt32) : Text :=
  Path.join (inspector.groupDirectory request group) (FileName.partition partition)

def stagesOfPartitions (group : ExpectedGroup) (partitions : List UInt32) : List Stage :=
  partitions.flatMap fun p => [.poll, .partition group p]

def stagesOfGroup (group : ExpectedGroup) : List Stage :=
  if tree.isDirectory (inspector.groupDirectory request group) then
    .groupData group :: stagesOfPartitions group group.partitions
  else []

def stagesOfGroups (groups : List ExpectedGroup) : List Stage :=
  groups.flatMap fun group => .poll :: inspector.stagesOfGroup tree request group

def stages : List Stage :=
  .directory :: .metafile :: inspector.stagesOfGroups tree request request.groups

variable (cancelled : Nat → Bool)

/--
A stage is violated: what is there is not as it must be, or the inspection is told to stop. With it
comes what the inspection fails with. The question whether to go on was asked `asked` times before.
-/
inductive Violated (asked : Nat) : Stage → NodeFailure → Prop where
  | notFound
    (absent : request.snapshot = [] ∨ tree.isDirectory (inspector.directory request) = false)
    : Violated asked .directory (.single .snapshotNotFound
        (InspectionError.snapshotNotFound request.snapshot inspector.node
          (inspector.directory request)).message.beforeZero)
  | metafileUnparsable {bytes : Bytes}
    (read : tree.read (inspector.metafilePath request) = .ok bytes)
    (unparsable : SnapshotMetadata.decode? bytes = none)
    : Violated asked .metafile (.single .structureViolation
        (InspectionError.metafileUnparsable (inspector.metafilePath request)).message.beforeZero)
  | metafileForeign {bytes : Bytes} {metadata : SnapshotMetadata}
    (read : tree.read (inspector.metafilePath request) = .ok bytes)
    (decoded : SnapshotMetadata.decode? bytes = some metadata)
    (foreign : metadata.descriptor.name ≠ request.snapshot ∨ metadata.node ≠ inspector.node)
    : Violated asked .metafile (.single .structureViolation
        (InspectionError.metafileForeign (inspector.metafilePath request) metadata.descriptor.name
          metadata.node).message.beforeZero)
  | cancelled (told : cancelled (asked + 1) = true)
    : Violated asked .poll (.single .cancelled
        (InspectionError.cancelled request.job inspector.node).message.beforeZero)
  | groupDataUnparsable {group : ExpectedGroup} {bytes : Bytes}
    (read : tree.read (inspector.groupDataPath request group) = .ok bytes)
    (unparsable : GroupData.decode? bytes = none)
    : Violated asked (.groupData group) (.single .structureViolation
        (InspectionError.groupDataUnparsable
          (inspector.groupDataPath request group)).message.beforeZero)
  | groupDataForeign {group : ExpectedGroup} {bytes : Bytes} {data : GroupData}
    (read : tree.read (inspector.groupDataPath request group) = .ok bytes)
    (decoded : GroupData.decode? bytes = some data) (foreign : data.id ≠ group.id)
    : Violated asked (.groupData group) (.single .structureViolation
        (InspectionError.groupDataForeign (inspector.groupDataPath request group) data.id
          group.id).message.beforeZero)
  /-- Around the damage of a partition stands where it was found. -/
  | damaged {group : ExpectedGroup} {partition : UInt32} {bytes : Bytes} {cause : PartitionError}
    (read : tree.read (inspector.partitionPath request group partition) = .ok bytes)
    (damage : PartitionFile.Damaged (inspector.partitionPath request group partition)
      request.pageSize partition bytes cause)
    : Violated asked (.partition group partition)
        ⟨[⟨cause.kind, (InspectionError.partition inspector.node group.name ⟨group.id, partition⟩
            (inspector.partitionPath request group partition) cause).message.beforeZero⟩,
          ⟨cause.kind, cause.message.beforeZero⟩]⟩

def FirstViolation (failure : NodeFailure) : Prop :=
  ∃ before stage after, inspector.stages tree request = before ++ stage :: after ∧
    (∀ front earlier back failure, before = front ++ earlier :: back →
      ¬inspector.Violated tree request cancelled (Stage.polls front) earlier failure) ∧
    inspector.Violated tree request cancelled (Stage.polls before) stage failure

theorem FirstViolation.kind {inspector : Inspector} {tree : FileTree} {request : VerifyRequest}
    {cancelled : Nat → Bool} {failure : NodeFailure}
    (h : inspector.FirstViolation tree request cancelled failure)
    : failure.kind = .snapshotNotFound ∨ failure.kind = .cancelled ∨
        PartitionFile.IsDamage failure.kind := by
  obtain ⟨_, _, _, _, _, hviolated⟩ := h
  cases hviolated with
  | notFound => exact .inl rfl
  | cancelled => exact .inr (.inl rfl)
  | damaged _ damage => exact .inr (.inr damage.isDamage)
  | _ => exact .inr (.inr (.inr rfl))

/-!
What an inspection stops with, computed along its stages.
-/

def errorOf {α : Type} (checked : Except InspectionError α) : Option InspectionError :=
  match checked with
  | .error error => some error
  | .ok _ => none

def violation? (asked : Nat) (stage : Stage) : Option InspectionError :=
  match stage with
  | .directory =>
    if request.snapshot.isEmpty || !tree.isDirectory (inspector.directory request) then
      some (.snapshotNotFound request.snapshot inspector.node (inspector.directory request))
    else none
  | .metafile => errorOf (inspector.checkMetafile tree request)
  | .poll =>
    if cancelled (asked + 1) then some (.cancelled request.job inspector.node) else none
  | .groupData group => errorOf (inspector.checkGroupData tree request group)
  | .partition group p => errorOf (inspector.checkPartition tree request group p)

def firstViolation? (asked : Nat) (stages : List Stage) : Option InspectionError :=
  match stages with
  | [] => none
  | stage :: rest =>
    (inspector.violation? tree request cancelled asked stage).or
      (firstViolation? (asked + Stage.polls [stage]) rest)

theorem errorOf_eq_some_iff {α : Type} {checked : Except InspectionError α}
    {error : InspectionError}
    : errorOf checked = some error ↔ checked = .error error := by
  cases checked <;> simp [errorOf]

theorem errorOf_of_ok {α : Type} {checked : Except InspectionError α} {found : α}
    (h : checked = .ok found) : errorOf checked = none := by
  rw [h]
  rfl

variable {inspector tree request cancelled}

theorem firstViolation?_append (asked : Nat) (front back : List Stage)
    : inspector.firstViolation? tree request cancelled asked (front ++ back) =
      (inspector.firstViolation? tree request cancelled asked front).or
        (inspector.firstViolation? tree request cancelled (asked + Stage.polls front) back) := by
  induction front generalizing asked with
  | nil => rfl
  | cons stage rest ih =>
    have hpolls : Stage.polls (stage :: rest) = Stage.polls [stage] + Stage.polls rest :=
      Stage.polls_append [stage] rest
    rw [List.cons_append, firstViolation?, firstViolation?, ih, hpolls, Option.or_assoc,
      Nat.add_assoc]

theorem firstViolation?_eq_some_iff {stages : List Stage} {asked : Nat} {error : InspectionError}
    : inspector.firstViolation? tree request cancelled asked stages = some error ↔
      ∃ before stage after, stages = before ++ stage :: after ∧
        (∀ front earlier back, before = front ++ earlier :: back →
          inspector.violation? tree request cancelled (asked + Stage.polls front) earlier = none) ∧
        inspector.violation? tree request cancelled (asked + Stage.polls before) stage =
          some error := by
  induction stages generalizing asked with
  | nil => simp [firstViolation?]
  | cons first rest ih =>
    have hpolls (later : List Stage) :
        asked + Stage.polls [first] + Stage.polls later = asked + Stage.polls (first :: later) := by
      rw [Nat.add_assoc, ← Stage.polls_append, List.singleton_append]
    rw [firstViolation?]
    cases hfirst : inspector.violation? tree request cancelled asked first with
    | some found =>
      rw [Option.some_or]
      constructor
      . rintro ⟨⟩
        exact ⟨[], first, rest, rfl, by simp, hfirst⟩
      . rintro ⟨before, stage, after, hstages, hclear, hviolation⟩
        cases before with
        | nil =>
          cases hstages
          exact hfirst.symm.trans hviolation
        | cons other before =>
          cases hstages
          cases hfirst.symm.trans (hclear [] first before rfl)
    | none =>
      rw [Option.none_or, ih]
      constructor
      . rintro ⟨before, stage, after, rfl, hclear, hviolation⟩
        refine ⟨first :: before, stage, after, rfl, ?_, hpolls before ▸ hviolation⟩
        intro front earlier back hbefore
        cases front with
        | nil =>
          cases hbefore
          exact hfirst
        | cons other front =>
          cases hbefore
          exact hpolls front ▸ hclear front earlier back rfl
      . rintro ⟨before, stage, after, hstages, hclear, hviolation⟩
        cases before with
        | nil =>
          cases hstages
          cases hfirst.symm.trans hviolation
        | cons other before =>
          cases hstages
          refine ⟨before, stage, after, rfl, ?_, (hpolls before).symm ▸ hviolation⟩
          intro front earlier back hbefore
          exact (hpolls front).symm ▸ hclear (first :: front) earlier back (hbefore ▸ rfl)

/-!
Both ways to say that a stage is violated agree.
-/

theorem Violated.violation?_eq {asked : Nat} {stage : Stage} {failure : NodeFailure}
    (h : inspector.Violated tree request cancelled asked stage failure)
    : ∃ error, inspector.violation? tree request cancelled asked stage = some error ∧
        failure = error.failure := by
  cases h with
  | notFound absent =>
    refine ⟨.snapshotNotFound _ _ _, if_pos ?_, rfl⟩
    cases absent with
    | inl hempty => simp [hempty]
    | inr hdirectory => simp [hdirectory]
  | metafileUnparsable read unparsable =>
    obtain ⟨id, hfile, rfl⟩ := read_eq_ok_iff.mp read
    refine ⟨.metafileUnparsable _, errorOf_eq_some_iff.mpr ?_, rfl⟩
    unfold metafilePath at hfile
    unfold checkMetafile
    simp only [hfile, unparsable, metafilePath]
  | metafileForeign read decoded foreign =>
    obtain ⟨id, hfile, rfl⟩ := read_eq_ok_iff.mp read
    refine ⟨.metafileForeign _ _ _, errorOf_eq_some_iff.mpr ?_, rfl⟩
    unfold metafilePath at hfile
    unfold checkMetafile
    simp only [hfile, decoded, foreign, metafilePath,
      Bool.or_eq_true, decide_eq_true_eq, if_true]
  | cancelled told => exact ⟨.cancelled _ _, if_pos told, rfl⟩
  | groupDataUnparsable read unparsable =>
    obtain ⟨id, hfile, rfl⟩ := read_eq_ok_iff.mp read
    refine ⟨.groupDataUnparsable _, errorOf_eq_some_iff.mpr ?_, rfl⟩
    unfold groupDataPath at hfile
    unfold checkGroupData
    simp only [hfile, unparsable, groupDataPath]
  | groupDataForeign read decoded foreign =>
    obtain ⟨id, hfile, rfl⟩ := read_eq_ok_iff.mp read
    refine ⟨.groupDataForeign _ _ _, errorOf_eq_some_iff.mpr ?_, rfl⟩
    unfold groupDataPath at hfile
    unfold checkGroupData
    simp only [hfile, decoded, foreign, groupDataPath, ne_eq,
      not_false_eq_true, if_true]
  | damaged read damage =>
    have damage := damage.examine_eq
    obtain ⟨id, hfile, rfl⟩ := read_eq_ok_iff.mp read
    refine ⟨.partition _ _ _ _ _, errorOf_eq_some_iff.mpr ?_, rfl⟩
    unfold checkPartition
    dsimp only
    split
    next hnone => cases hfile.symm.trans hnone
    next other hother =>
      cases hfile.symm.trans hother
      split
      next cause hcause =>
        cases damage.symm.trans hcause
        rfl
      next hok => cases damage.symm.trans hok

theorem violated_of_violation? {asked : Nat} {stage : Stage} {error : InspectionError}
    (h : inspector.violation? tree request cancelled asked stage = some error)
    : inspector.Violated tree request cancelled asked stage error.failure := by
  cases stage with
  | directory =>
    unfold violation? at h
    obtain ⟨habsent, herror⟩ := Option.ite_none_right_eq_some.mp h
    cases herror
    exact .notFound (by simpa using habsent)
  | metafile =>
    have hchecked := errorOf_eq_some_iff.mp h
    unfold checkMetafile at hchecked
    dsimp only at hchecked
    split at hchecked
    next => cases hchecked
    next id hfile =>
      have hread := read_eq_ok_iff.mpr ⟨id, hfile, rfl⟩
      split at hchecked
      next hnone =>
        cases hchecked
        exact .metafileUnparsable hread hnone
      next metadata hsome =>
        split at hchecked
        next hforeign =>
          cases hchecked
          exact .metafileForeign hread hsome (by simpa using hforeign)
        next => cases hchecked
  | poll =>
    unfold violation? at h
    obtain ⟨htold, herror⟩ := Option.ite_none_right_eq_some.mp h
    cases herror
    exact .cancelled htold
  | groupData group =>
    have hchecked := errorOf_eq_some_iff.mp h
    unfold checkGroupData at hchecked
    dsimp only at hchecked
    split at hchecked
    next => cases hchecked
    next id hfile =>
      have hread := read_eq_ok_iff.mpr ⟨id, hfile, rfl⟩
      split at hchecked
      next hnone =>
        cases hchecked
        exact .groupDataUnparsable hread hnone
      next data hsome =>
        split at hchecked
        next hforeign =>
          cases hchecked
          exact .groupDataForeign hread hsome hforeign
        next => cases hchecked
  | partition group p =>
    have hchecked := errorOf_eq_some_iff.mp h
    unfold checkPartition at hchecked
    dsimp only at hchecked
    split at hchecked
    next => cases hchecked
    next id hfile =>
      have hread := read_eq_ok_iff.mpr ⟨id, hfile, rfl⟩
      split at hchecked
      next cause hdamage =>
        cases hchecked
        exact .damaged hread (PartitionFile.examine_eq_error_iff.mp hdamage)
      next => cases hchecked

theorem firstViolation_iff {failure : NodeFailure}
    : inspector.FirstViolation tree request cancelled failure ↔
      ∃ error, inspector.firstViolation? tree request cancelled 0
          (inspector.stages tree request) = some error ∧ failure = error.failure := by
  simp only [firstViolation?_eq_some_iff, Nat.zero_add]
  constructor
  . rintro ⟨before, stage, after, hstages, hclear, hviolated⟩
    obtain ⟨error, herror, rfl⟩ := hviolated.violation?_eq
    refine ⟨error, ⟨before, stage, after, hstages, ?_, herror⟩, rfl⟩
    intro front earlier back hbefore
    rw [Option.eq_none_iff_forall_ne_some]
    intro other hother
    exact hclear front earlier back _ hbefore (violated_of_violation? hother)
  . rintro ⟨error, ⟨before, stage, after, hstages, hclear, herror⟩, rfl⟩
    refine ⟨before, stage, after, hstages, ?_, violated_of_violation? herror⟩
    intro front earlier back failure hbefore hviolated
    obtain ⟨other, hother, _⟩ := hviolated.violation?_eq
    rw [hclear front earlier back hbefore] at hother
    cases hother

/-!
The walk of an inspection stops at the first violation.
-/

variable (inspector tree request cancelled) in
/--
How a part of an inspection ends: it stops with the first violation of its stages, or it has asked
as often as they say.
-/
structure StopsAt (stages : List Stage) (start : Inspection)
    (ending : Inspection × Option InspectionError) : Prop where
  error : ending.2 = inspector.firstViolation? tree request cancelled start.polls stages
  polls : ending.2 = none → ending.1.polls = start.polls + Stage.polls stages

theorem StopsAt.nil (start : Inspection)
    : inspector.StopsAt tree request cancelled [] start (start, none) :=
  ⟨rfl, fun _ => rfl⟩

theorem StopsAt.append {front back : List Stage} {start between : Inspection}
    {ending : Inspection × Option InspectionError}
    (hfront : inspector.StopsAt tree request cancelled front start (between, none))
    (hback : inspector.StopsAt tree request cancelled back between ending)
    : inspector.StopsAt tree request cancelled (front ++ back) start ending := by
  have hpolls : between.polls = start.polls + Stage.polls front := hfront.polls rfl
  constructor
  . rw [firstViolation?_append, ← hfront.error, ← hpolls, Option.none_or, hback.error]
  . intro hnone
    rw [hback.polls hnone, hpolls, Stage.polls_append, Nat.add_assoc]

theorem StopsAt.stopped {front : List Stage} (back : List Stage) {start last : Inspection}
    {error : InspectionError}
    (hfront : inspector.StopsAt tree request cancelled front start (last, some error))
    : inspector.StopsAt tree request cancelled (front ++ back) start (last, some error) := by
  constructor
  . rw [firstViolation?_append, ← hfront.error, Option.some_or]
  . intro hnone
    cases hnone

theorem stopsAt_of_violation {stage : Stage} {state : Inspection} {error : InspectionError}
    (h : inspector.violation? tree request cancelled state.polls stage = some error)
    : inspector.StopsAt tree request cancelled [stage] state (state, some error) := by
  constructor
  . rw [firstViolation?, h, Option.some_or]
  . intro hnone
    cases hnone

theorem stopsAt_of_passed {stage : Stage} {state next : Inspection}
    (h : inspector.violation? tree request cancelled state.polls stage = none)
    (hpolls : next.polls = state.polls + Stage.polls [stage])
    : inspector.StopsAt tree request cancelled [stage] state (next, none) := by
  constructor
  . rw [firstViolation?, h, Option.none_or, firstViolation?]
  . intro
    exact hpolls

theorem poll_stopsAt (state : Inspection)
    : inspector.StopsAt tree request cancelled [.poll] state
        (inspector.poll request cancelled state) := by
  constructor
  . simp [poll, firstViolation?, violation?]
  . intro
    rfl

section Walk

attribute [local irreducible] checkPartition

theorem checkPartitions_stopsAt (group : ExpectedGroup) (partitions : List UInt32)
    (state : Inspection)
    : inspector.StopsAt tree request cancelled (stagesOfPartitions group partitions) state
        (inspector.checkPartitions tree request cancelled group state partitions) := by
  induction partitions generalizing state with
  | nil => exact .nil state
  | cons p rest ih =>
    have hstages : stagesOfPartitions group (p :: rest) =
        [.poll] ++ ([.partition group p] ++ stagesOfPartitions group rest) := rfl
    have hpoll : inspector.StopsAt tree request cancelled [.poll] state
        (inspector.poll request cancelled state) := poll_stopsAt state
    rw [hstages, checkPartitions_cons]
    split
    next last error hlast =>
      rw [hlast] at hpoll
      exact hpoll.stopped _
    next next hnext =>
      rw [hnext] at hpoll
      apply hpoll.append
      split
      next error hfound =>
        apply StopsAt.stopped
        apply stopsAt_of_violation
        exact errorOf_eq_some_iff.mpr hfound
      next found hfound =>
        dsimp only
        refine StopsAt.append (stopsAt_of_passed ?_ ?_) (ih _)
        . exact errorOf_of_ok hfound
        . rfl

end Walk

theorem checkGroup_stopsAt (group : ExpectedGroup) (state : Inspection)
    : inspector.StopsAt tree request cancelled (inspector.stagesOfGroup tree request group) state
        (inspector.checkGroup tree request cancelled state group) := by
  unfold checkGroup stagesOfGroup
  split
  next =>
    rw [← List.singleton_append]
    split
    next error hchecked =>
      apply StopsAt.stopped
      apply stopsAt_of_violation
      exact errorOf_eq_some_iff.mpr hchecked
    next missing hchecked =>
      dsimp only
      refine StopsAt.append (stopsAt_of_passed ?_ ?_) (checkPartitions_stopsAt group _ _)
      . exact errorOf_of_ok hchecked
      . rfl
  next => exact ⟨rfl, fun _ => rfl⟩

theorem checkGroups_stopsAt (groups : List ExpectedGroup) (state : Inspection)
    : inspector.StopsAt tree request cancelled (inspector.stagesOfGroups tree request groups) state
        (inspector.checkGroups tree request cancelled state groups) := by
  induction groups generalizing state with
  | nil => exact .nil state
  | cons group rest ih =>
    have hstages : inspector.stagesOfGroups tree request (group :: rest) =
        [.poll] ++ (inspector.stagesOfGroup tree request group ++
          inspector.stagesOfGroups tree request rest) := rfl
    have hpoll : inspector.StopsAt tree request cancelled [.poll] state
        (inspector.poll request cancelled state) := poll_stopsAt state
    rw [hstages, checkGroups]
    split
    next last error hlast =>
      rw [hlast] at hpoll
      exact hpoll.stopped _
    next next hnext =>
      rw [hnext] at hpoll
      apply hpoll.append
      have hgroup : inspector.StopsAt tree request cancelled
          (inspector.stagesOfGroup tree request group) next
          (inspector.checkGroup tree request cancelled next group) := checkGroup_stopsAt group next
      split
      next last error hlast =>
        rw [hlast] at hgroup
        exact hgroup.stopped _
      next last hlast =>
        rw [hlast] at hgroup
        exact hgroup.append (ih last)

theorem walk_stops
    : (inspector.walk tree request cancelled).2 =
      inspector.firstViolation? tree request cancelled 0 (inspector.stages tree request) := by
  unfold walk stages
  dsimp only
  rw [firstViolation?, firstViolation?]
  split
  next habsent => simp [violation?, habsent]
  next hpresent =>
    have hdirectory : inspector.violation? tree request cancelled 0 .directory = none := by
      simp [violation?, hpresent]
    rw [hdirectory, Option.none_or]
    split
    next error hchecked => simp [violation?, errorOf, hchecked]
    next missing hchecked =>
      have hmetafile (asked : Nat) :
          inspector.violation? tree request cancelled asked .metafile = none :=
        errorOf_of_ok hchecked
      rw [hmetafile, Option.none_or]
      exact (checkGroups_stopsAt request.groups _).error

/--
An inspection fails with the first violation, and then says nothing else.
-/
theorem failure_eq_some_iff {failure : NodeFailure}
    : (inspector.inspect tree request cancelled).1.outcome.failure = some failure ↔
      inspector.FirstViolation tree request cancelled failure := by
  rw [firstViolation_iff, ← walk_stops]
  unfold inspect
  split
  next final hwalk => simp [hwalk, failure_of_walk hwalk]
  next final error hwalk => simp [hwalk, NodeOutcome.failedWith, eq_comm]

theorem told_of_inspect {failure : NodeFailure}
    (h : (inspector.inspect tree request cancelled).1.outcome.failure = some failure)
    (hkind : failure.kind = .cancelled) : ∃ n, cancelled n = true := by
  obtain ⟨_, _, _, _, _, hviolated⟩ := failure_eq_some_iff.mp h
  cases hviolated with
  | cancelled told => exact ⟨_, told⟩
  | damaged _ _ => exact absurd hkind (PartitionError.kind_ne_cancelled _)
  | _ => cases hkind

theorem outcome_of_failure {failure : NodeFailure}
    (h : (inspector.inspect tree request cancelled).1.outcome.failure = some failure)
    : (inspector.inspect tree request cancelled).1.outcome =
        .failedWith inspector.node failure := by
  unfold inspect at h ⊢
  split
  next final hwalk =>
    rw [hwalk] at h
    cases (failure_of_walk hwalk).symm.trans h
  next final error hwalk =>
    rw [hwalk] at h
    cases h
    rfl

end Inspector

end SnapshotAudit
