import SnapshotAudit.Snapshot.Outcome
import SnapshotAudit.Wire.Frame
import SnapshotAudit.Wire.Metafile

/-!
This module contains the bodies of the messages that coordinators and nodes exchange. A body is read
as a whole: bytes behind the last field make it invalid.
-/

namespace SnapshotAudit

namespace Message

namespace VerifyRequest

def encodeGroup (group : ExpectedGroup) : Bytes :=
  Encode.i32 group.id ++ Encode.text group.name ++ Encode.list Encode.u32 group.partitions

def groupDecoder : Decoder ExpectedGroup := do
  let id ← Decoder.i32
  let name ← Decoder.text
  let partitions ← Decoder.list Decoder.u32
  return { id, name, partitions }

def encode (request : SnapshotAudit.VerifyRequest) : Bytes :=
  Encode.u64 request.job ++ Encode.text request.snapshot ++ Encode.u32 request.pageSize ++
    Encode.list encodeGroup request.groups

def decoder : Decoder SnapshotAudit.VerifyRequest := do
  let job ← Decoder.u64
  let snapshot ← Decoder.text
  let pageSize ← Decoder.u32
  let groups ← Decoder.list groupDecoder
  return { job, snapshot, pageSize, groups }

def decode? (body : Bytes) : Option SnapshotAudit.VerifyRequest :=
  decoder.all body

end VerifyRequest

namespace Outcome

def encodeCause (cause : FailureCause) : Bytes :=
  Encode.u8 cause.kind.code ++ Encode.text cause.message

def kindDecoder : Decoder FailureKind := do
  (FailureKind.ofCode? (← Decoder.u8) : Option FailureKind)

def causeDecoder : Decoder FailureCause := do
  let kind ← kindDecoder
  let message ← Decoder.text
  return { kind, message }

def encodeFailure (failure : Option NodeFailure) : Bytes :=
  match failure with
  | none => Encode.flag false
  | some failure => Encode.flag true ++ Encode.list encodeCause failure.causes

def failureDecoder : Decoder (Option NodeFailure) := do
  if ← Decoder.flag then
    return some ⟨← Decoder.list causeDecoder⟩
  else
    return none

def encodeKey (key : PartitionKey) : Bytes :=
  Encode.i32 key.group ++ Encode.u32 key.partition

def keyDecoder : Decoder PartitionKey := do
  let group ← Decoder.i32
  let partition ← Decoder.u32
  return { group, partition }

def encodeRecord (record : PartitionRecord) : Bytes :=
  encodeKey record.key ++ Encode.u64 record.counter ++ Encode.flag record.crcOk ++
    Encode.flag record.present ++ Encode.u32 record.pages

def recordDecoder : Decoder PartitionRecord := do
  let key ← keyDecoder
  let counter ← Decoder.u64
  let crcOk ← Decoder.flag
  let present ← Decoder.flag
  let pages ← Decoder.u32
  return { key, counter, crcOk, present, pages }

/--
A missing file has a flag for whether it belongs to a group, the group (zero without one) and its
name.
-/
def encodeMissing (missing : MissingMetadata) : Bytes :=
  Encode.flag missing.group.isSome ++ Encode.i32 (missing.group.getD 0) ++ Encode.text missing.file

def missingDecoder : Decoder MissingMetadata := do
  let grouped ← Decoder.flag
  let group ← Decoder.i32
  let file ← Decoder.text
  return { group := if grouped then some group else none, file }

def encode (outcome : NodeOutcome) : Bytes :=
  Encode.text outcome.node ++ encodeFailure outcome.failure ++
    Encode.list encodeRecord outcome.partitions ++ Encode.list Encode.i32 outcome.missingGroups ++
    Encode.list encodeKey outcome.missingPartitions ++
    Encode.list encodeMissing outcome.missingMetadata

def decoder : Decoder NodeOutcome := do
  let node ← Decoder.text
  let failure ← failureDecoder
  let partitions ← Decoder.list recordDecoder
  let missingGroups ← Decoder.list Decoder.i32
  let missingPartitions ← Decoder.list keyDecoder
  let missingMetadata ← Decoder.list missingDecoder
  return { node, failure, partitions, missingGroups, missingPartitions, missingMetadata }

def decode? (body : Bytes) : Option NodeOutcome :=
  decoder.all body

end Outcome

namespace CancelRequest

def encode (job : UInt64) : Bytes :=
  Encode.u64 job

def decode? (body : Bytes) : Option UInt64 :=
  Decoder.u64.all body

end CancelRequest

namespace CancelAck

def encode (wasPending : Bool) : Bytes :=
  Encode.flag wasPending

def decode? (body : Bytes) : Option Bool :=
  Decoder.flag.all body

end CancelAck

namespace Error

def encode (message : Text) : Bytes :=
  Encode.text message

def decode? (body : Bytes) : Option Text :=
  Decoder.text.all body

end Error

namespace DescribeRequest

def encode (snapshot : Text) : Bytes :=
  Encode.text snapshot

def decode? (body : Bytes) : Option Text :=
  Decoder.text.all body

end DescribeRequest

/-!
A describe response is a flag for whether the node holds the snapshot. If it does, a metafile of the
snapshot that names no node follows behind its length.
-/

namespace DescribeResponse

def encode (desc : Option SnapshotDescriptor) : Bytes :=
  match desc with
  | none => Encode.flag false
  | some desc => Encode.flag true ++ Encode.text (SnapshotMetadata.encode ⟨desc, []⟩)

def decoder : Decoder (Option SnapshotDescriptor) := do
  if ← Decoder.flag then
    let metadata ← SnapshotMetadata.decode? (← Decoder.text)
    return some metadata.descriptor
  else
    return none

def decode? (body : Bytes) : Option (Option SnapshotDescriptor) :=
  decoder.all body

end DescribeResponse

end Message

end SnapshotAudit
