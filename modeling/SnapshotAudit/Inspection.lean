import SnapshotAudit.Catalog
import SnapshotAudit.PartitionFile
import SnapshotAudit.Snapshot.Outcome

/-!
This module contains the inspection of a node: its copy of a snapshot is compared with what the node
is expected to hold. What is missing is noted, and the first thing that is damaged ends the
inspection.
-/

namespace SnapshotAudit

inductive InspectionError where
  | snapshotNotFound (snapshot node directory : Text)
  | metafileUnparsable (file : Text)
  | metafileForeign (file snapshot node : Text)
  | groupDataUnparsable (file : Text)
  | groupDataForeign (file : Text) (found expected : Int32)
  | cancelled (job : UInt64) (node : Text)
  | partition (node group : Text) (key : PartitionKey) (file : Text) (cause : PartitionError)
deriving DecidableEq

namespace InspectionError

def message (error : InspectionError) : Text :=
  match error with
  | snapshotNotFound snapshot node directory =>
    .join ["Snapshot \"", snapshot, "\" not found on node ", node, ": ", directory]
  | metafileUnparsable file => .join ["Snapshot metafile cannot be parsed: ", file]
  | metafileForeign file snapshot node =>
    .join ["Snapshot metafile ", file, " belongs to snapshot \"", snapshot, "\" of node ", node]
  | groupDataUnparsable file => .join ["Cache group data cannot be parsed: ", file]
  | groupDataForeign file found expected =>
    .join ["Cache group data ", file, " describes group ", .signed found.toInt, ", expected ",
      .signed expected.toInt]
  | cancelled job node =>
    .join ["Snapshot check job ", .decimal job.toNat, " cancelled on node ", node]
  | partition node group key file _ =>
    .join ["Failed to verify snapshot partition [node=", node, ", grpName=", group, ", key=",
      key.text, ", file=", file, "]"]

def kind (error : InspectionError) : FailureKind :=
  match error with
  | snapshotNotFound .. => .snapshotNotFound
  | cancelled .. => .cancelled
  | partition _ _ _ _ cause => cause.kind
  | _ => .structureViolation

def raised (error : InspectionError) : List Raised :=
  let outer := .fault (.audit error.kind error.message)
  match error with
  | partition _ _ _ _ cause => [outer, .fault cause.fault]
  | _ => [outer]

def failure (error : InspectionError) : NodeFailure :=
  .ofRaised error.raised

end InspectionError

structure Inspector where
  node : Text
  root : Text

/--
How far an inspection has come: what it has found and how often it has asked whether to go on.
-/
structure Inspection where
  outcome : NodeOutcome
  polls : Nat

namespace Inspector

variable (inspector : Inspector) (tree : FileTree) (request : VerifyRequest)

def directory : Text :=
  Path.join inspector.root request.snapshot

def groupDirectory (group : ExpectedGroup) : Text :=
  Path.join (inspector.directory request) (FileName.groupDirectory group.name)

def checkMetafile : Except InspectionError (List MissingMetadata) :=
  let name := FileName.metafile inspector.node
  let path := Path.join (inspector.directory request) name
  match tree.file path with
  | .error _ => .ok [⟨none, name⟩]
  | .ok id =>
    match SnapshotMetadata.decode? (tree.bytesOf id) with
    | none => .error (.metafileUnparsable path)
    | some metadata =>
      if metadata.descriptor.name ≠ request.snapshot || metadata.node ≠ inspector.node then
        .error (.metafileForeign path metadata.descriptor.name metadata.node)
      else .ok []

def checkGroupData (group : ExpectedGroup) : Except InspectionError (List MissingMetadata) :=
  let path := Path.join (inspector.groupDirectory request group) FileName.groupData
  match tree.file path with
  | .error _ => .ok [⟨some group.id, FileName.groupData⟩]
  | .ok id =>
    match GroupData.decode? (tree.bytesOf id) with
    | none => .error (.groupDataUnparsable path)
    | some data =>
      if data.id ≠ group.id then .error (.groupDataForeign path data.id group.id) else .ok []

def checkPartition (group : ExpectedGroup) (partition : UInt32)
    : Except InspectionError (Option PartitionRecord) :=
  let key := ⟨group.id, partition⟩
  let path := Path.join (inspector.groupDirectory request group) (FileName.partition partition)
  match tree.file path with
  | .error _ => .ok none
  | .ok id =>
    let bytes := tree.bytesOf id
    let audited := do
      (← PartitionFile.ofSize path request.pageSize partition bytes.length).audit bytes
    match audited with
    | .error cause => .error (.partition inspector.node group.name key path cause)
    | .ok (counter, pages) => .ok (some ⟨key, counter, true, true, pages.toUInt32⟩)

/--
Ask whether the inspection is still wanted. The answer may depend on how often it was asked before.
-/
def poll (cancelled : Nat → Bool) (state : Inspection) : Inspection × Option InspectionError :=
  let state := { state with polls := state.polls + 1 }
  (state, if cancelled state.polls then some (.cancelled request.job inspector.node) else none)

def checkPartitions (cancelled : Nat → Bool) (group : ExpectedGroup) (state : Inspection)
    (partitions : List UInt32) : Inspection × Option InspectionError :=
  match partitions with
  | [] => (state, none)
  | p :: rest =>
    match inspector.poll request cancelled state with
    | (state, some error) => (state, some error)
    | (state, none) =>
      match inspector.checkPartition tree request group p with
      | .error error => (state, some error)
      | .ok found =>
        let outcome :=
          match found with
          | none =>
            { state.outcome with
              missingPartitions := state.outcome.missingPartitions ++ [⟨group.id, p⟩] }
          | some record =>
            { state.outcome with partitions := state.outcome.partitions ++ [record] }
        checkPartitions cancelled group { state with outcome } rest

/--
Check a group. Of a group without a directory nothing else is looked at.
-/
def checkGroup (cancelled : Nat → Bool) (state : Inspection) (group : ExpectedGroup)
    : Inspection × Option InspectionError :=
  if tree.isDirectory (inspector.groupDirectory request group) then
    match inspector.checkGroupData tree request group with
    | .error error => (state, some error)
    | .ok missing =>
      let outcome :=
        { state.outcome with missingMetadata := state.outcome.missingMetadata ++ missing }
      inspector.checkPartitions tree request cancelled group { state with outcome }
        group.partitions
  else
    let outcome :=
      { state.outcome with missingGroups := state.outcome.missingGroups ++ [group.id] }
    ({ state with outcome }, none)

def checkGroups (cancelled : Nat → Bool) (state : Inspection) (groups : List ExpectedGroup)
    : Inspection × Option InspectionError :=
  match groups with
  | [] => (state, none)
  | group :: rest =>
    match inspector.poll request cancelled state with
    | (state, some error) => (state, some error)
    | (state, none) =>
      match inspector.checkGroup tree request cancelled state group with
      | (state, some error) => (state, some error)
      | (state, none) => checkGroups cancelled state rest

def walk (cancelled : Nat → Bool) : Inspection × Option InspectionError :=
  let start := ⟨NodeOutcome.blank inspector.node, 0⟩
  let dir := inspector.directory request
  if request.snapshot.isEmpty || !tree.isDirectory dir then
    (start, some (.snapshotNotFound request.snapshot inspector.node dir))
  else
    match inspector.checkMetafile tree request with
    | .error error => (start, some error)
    | .ok missing =>
      let outcome := { start.outcome with missingMetadata := missing }
      inspector.checkGroups tree request cancelled { start with outcome } request.groups

def failureNotice (error : InspectionError) : Text :=
  .join ["[SnapshotInspector ", inspector.node, "] check of \"", request.snapshot, "\" failed: ",
    error.failure.rootCause.message]

/--
Inspect the copy of a snapshot. The answer says what was found, or nothing but why the inspection
failed; with it come the log and the number of times the inspection asked whether to go on.
-/
def inspect (cancelled : Nat → Bool) : Inspection × List Text :=
  match inspector.walk tree request cancelled with
  | (state, none) => (state, [])
  | (state, some error) =>
    ({ state with outcome := .failedWith inspector.node error.failure },
      [inspector.failureNotice request error])

end Inspector

end SnapshotAudit
