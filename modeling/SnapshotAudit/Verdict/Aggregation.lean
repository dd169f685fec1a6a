import SnapshotAudit.Assignment
import SnapshotAudit.Verdict.Basic

/-!
This module contains how the outcomes of the nodes become a verdict. A failed node contributes its
failure and nothing else. What the other nodes report counts as far as it is about the snapshot, and
update counters are compared among the nodes that own a partition.
-/

namespace SnapshotAudit

namespace Aggregation

def missingGroups (desc : SnapshotDescriptor) (node : Text) (outcome : NodeOutcome)
    : List MissingGroupEntry :=
  outcome.missingGroups.filterMap fun id =>
    (desc.group? id).map fun group => ⟨id, group.name, node⟩

def groupOfKey? (desc : SnapshotDescriptor) (key : PartitionKey) : Option GroupDescriptor :=
  (desc.group? key.group).filter fun group => key.partition < group.partitions

def missingPartitions (desc : SnapshotDescriptor) (node : Text) (outcome : NodeOutcome)
    : List MissingPartitionEntry :=
  outcome.missingPartitions.filterMap fun key =>
    (groupOfKey? desc key).map fun group => ⟨key, group.name, node⟩

def missingMetadata (node : Text) (outcome : NodeOutcome) : List MissingMetadataEntry :=
  outcome.missingMetadata.map fun missing => ⟨node, missing.group, missing.file⟩

def counts (desc : SnapshotDescriptor) (assignment : Assignment) (node : Text)
    (record : PartitionRecord) : Bool :=
  (desc.group? record.key.group).isSome && assignment.isOwner record.key node

/--
Enter a record; a later record of the same node and partition replaces an earlier one.
-/
def enterRecord (node : Text)
    (partitions : SortedMap PartitionKey (SortedMap Text PartitionRecord))
    (record : PartitionRecord) : SortedMap PartitionKey (SortedMap Text PartitionRecord) :=
  partitions.insert record.key ((partitions.getD record.key .empty).insert node record)

def enter (desc : SnapshotDescriptor) (assignment : Assignment) (verdict : Verdict)
    (node : Text) (outcome : NodeOutcome) : Verdict :=
  let verdict := { verdict with nodes := verdict.nodes.add node }
  match outcome.failure with
  | some failure => { verdict with failures := verdict.failures.insertIfNew node failure }
  | none =>
    { verdict with
      missingGroups := (missingGroups desc node outcome).foldl .add verdict.missingGroups
      missingPartitions :=
        (missingPartitions desc node outcome).foldl .add verdict.missingPartitions
      missingMetadata := (missingMetadata node outcome).foldl .add verdict.missingMetadata
      partitions :=
        (outcome.partitions.filter (counts desc assignment node)).foldl (enterRecord node)
          verdict.partitions }

def countersOf (records : SortedMap Text PartitionRecord) : SortedMap Text UInt64 :=
  .ofList (records.entries.map fun e => (e.1, e.2.counter))

/--
Copies are in conflict when one counter differs from the first.
-/
def inConflict (records : SortedMap Text PartitionRecord) : Bool :=
  match records.values with
  | [] => false
  | first :: rest => rest.any fun record => record.counter ≠ first.counter

def conflicts (partitions : SortedMap PartitionKey (SortedMap Text PartitionRecord))
    : SortedMap PartitionKey (SortedMap Text UInt64) :=
  .ofList ((partitions.entries.filter fun e => inConflict e.2).map fun e =>
    (e.1, countersOf e.2))

/--
A verdict into which no outcome was entered. Of groups with the same identity the last one gives the
name.
-/
def start (desc : SnapshotDescriptor) : Verdict where
  snapshot := desc.name
  epoch := desc.epoch
  nodes := .empty
  failures := .empty
  missingGroups := .empty
  missingPartitions := .empty
  missingMetadata := .empty
  conflicts := .empty
  partitions := .empty
  groupNames := .ofList (desc.groups.map fun group => (group.id, group.name))

/-!
What does not count is dropped with a line in the log.
-/

def dropped (what : List Text) : Text :=
  .join ("[ResultAggregator] dropping " :: what)

def notices (desc : SnapshotDescriptor) (assignment : Assignment) (node : Text)
    (outcome : NodeOutcome) : List Text :=
  if outcome.failed then []
  else
    (outcome.missingGroups.filterMap fun id =>
      if (desc.group? id).isSome then none
      else some (dropped ["missing group ", .signed id.toInt, " reported by ", node,
        ": not part of snapshot"])) ++
    (outcome.missingPartitions.filterMap fun key =>
      if (groupOfKey? desc key).isSome then none
      else some (dropped ["missing partition ", key.text, " reported by ", node,
        ": not part of snapshot"])) ++
    outcome.partitions.filterMap fun record =>
      if (desc.group? record.key.group).isNone then
        some (dropped ["record ", record.key.text, " from ", node, ": unknown cache group"])
      else if !assignment.isOwner record.key node then
        some (dropped ["record ", record.key.text, " from ", node, ": node is not an owner"])
      else
        none

end Aggregation

def aggregate (desc : SnapshotDescriptor) (assignment : Assignment)
    (outcomes : SortedMap Text NodeOutcome) : Verdict :=
  let verdict := outcomes.entries.foldl
    (fun verdict e => Aggregation.enter desc assignment verdict e.1 e.2) (Aggregation.start desc)
  { verdict with conflicts := Aggregation.conflicts verdict.partitions }

def aggregationLog (desc : SnapshotDescriptor) (assignment : Assignment)
    (outcomes : SortedMap Text NodeOutcome) : List Text :=
  outcomes.entries.flatMap fun e => Aggregation.notices desc assignment e.1 e.2

end SnapshotAudit
