import SnapshotAudit.Failure
import SnapshotAudit.Snapshot.Descriptor

/-!
This module contains the question that a node is asked in a check and the answer that it gives.
-/

namespace SnapshotAudit

structure ExpectedGroup where
  id : Int32
  name : Text
  partitions : List UInt32
deriving DecidableEq

structure VerifyRequest where
  job : UInt64
  snapshot : Text
  pageSize : UInt32
  groups : List ExpectedGroup
deriving DecidableEq

namespace VerifyRequest

def sameQuestion (a b : VerifyRequest) : Bool :=
  a.snapshot = b.snapshot && a.pageSize = b.pageSize && a.groups = b.groups

end VerifyRequest

structure PartitionRecord where
  key : PartitionKey
  counter : UInt64
  crcOk : Bool
  present : Bool
  pages : UInt32
deriving DecidableEq

structure MissingMetadata where
  group : Option Int32
  file : Text
deriving DecidableEq

structure NodeOutcome where
  node : Text
  failure : Option NodeFailure
  partitions : List PartitionRecord
  missingGroups : List Int32
  missingPartitions : List PartitionKey
  missingMetadata : List MissingMetadata
deriving DecidableEq

namespace NodeOutcome

def blank (node : Text) : NodeOutcome :=
  ⟨node, none, [], [], [], []⟩

def failedWith (node : Text) (failure : NodeFailure) : NodeOutcome :=
  { blank node with failure := some failure }

def failed (outcome : NodeOutcome) : Bool :=
  outcome.failure.isSome

end NodeOutcome

end SnapshotAudit
