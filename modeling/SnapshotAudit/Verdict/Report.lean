import SnapshotAudit.Verdict.Basic

/-!
This module contains the text of a verdict, section by section. A section without entries is left
out, and the last line sums up.
-/

namespace SnapshotAudit

namespace Verdict

def nodesPhrase (n : Nat) : Text :=
  .join [.decimal n, if n = 1 then " node" else " nodes"]

def bracketed (entries : List Text) : Text :=
  .join ["[", .joinWith ", " entries, "]\n"]

def listing (heading : Text) (entries : List Text) : Text :=
  if entries.isEmpty then [] else heading ++ bracketed entries

def failureText (node : Text) (failure : NodeFailure) : Text :=
  .join [
    "  node ", node, " [", failure.kind.name, "]\n",
    .join (failure.causes.mapIdx fun i cause =>
      .join [if i = 0 then "    " else "    caused by: ", cause.message, "\n"])]

def failuresText (verdict : Verdict) : Text :=
  if verdict.failures.isEmpty then []
  else
    .join [
      "The check procedure failed on ", nodesPhrase verdict.failures.size, ":\n",
      .join (verdict.failures.entries.map fun e => failureText e.1 e.2)]

def missingGroupsText (verdict : Verdict) : Text :=
  listing "Snapshot data doesn't contain required cache groups " <|
    verdict.missingGroups.elements.map fun e =>
      .join ["grpName=", e.name, ", grpId=", .signed e.group.toInt, ", node=", e.node]

def missingPartitionsText (verdict : Verdict) : Text :=
  listing "Snapshot data doesn't contain required cache group partition " <|
    verdict.missingPartitions.elements.map fun e =>
      .join ["grpName=", e.name, ", partId=", .decimal e.key.partition.toNat, ", node=", e.node]

def missingMetadataText (verdict : Verdict) : Text :=
  listing "Some metadata is missing from the snapshot " <|
    verdict.missingMetadata.elements.map fun e =>
      .join ["file=", e.file, ", node=", e.node,
        match e.group with
        | none => []
        | some group => .join [", grpName=", verdict.groupName group]]

def conflictText (verdict : Verdict) (key : PartitionKey) (counters : SortedMap Text UInt64)
    : Text :=
  .join [
    "Conflict partition: PartitionKey [grpId=", .signed key.group.toInt,
    ", grpName=", verdict.groupName key.group, ", partId=", .decimal key.partition.toNat, "]\n",
    "Partition instances: ",
    bracketed (counters.entries.map fun e =>
      .join [e.1, ":updateCntr=", .decimal e.2.toNat])]

def partitionText (verdict : Verdict) (key : PartitionKey)
    (records : SortedMap Text PartitionRecord) : Text :=
  .join [
    "Partition ", key.text, " grpName=", verdict.groupName key.group, ": ",
    bracketed (records.entries.map fun e =>
      .join [e.1, ":updateCntr=", .decimal e.2.counter.toNat, ", pages=",
        .decimal e.2.pages.toNat])]

def agreedText (verdict : Verdict) : Text :=
  .join <|
    (verdict.partitions.entries.filter fun e => !verdict.conflicts.contains e.1).map fun e =>
      verdict.partitionText e.1 e.2

def summaryText (verdict : Verdict) : Text :=
  if !verdict.failures.isEmpty then
    .join ["The check procedure failed on ", nodesPhrase verdict.failures.size, ".\n"]
  else if !verdict.clean then
    .join [
      "The check procedure has finished, found ", .decimal verdict.conflicts.size,
      " conflict partitions",
      if verdict.missingCount > 0 then
        .join [" and ", .decimal verdict.missingCount, " missing snapshot entries"]
      else
        [],
      ".\n"]
  else
    "The check procedure has finished, no conflicts have been found.\n"

def report (verdict : Verdict) (verbose : Bool) : Text :=
  .join [
    "Snapshot check for \"", verdict.snapshot, "\" (epoch ", .decimal verdict.epoch.toNat, "), ",
    nodesPhrase verdict.nodes.size, " checked.\n",
    verdict.failuresText,
    verdict.missingGroupsText,
    verdict.missingPartitionsText,
    verdict.missingMetadataText,
    .join (verdict.conflicts.entries.map fun e => verdict.conflictText e.1 e.2),
    if verbose then verdict.agreedText else [],
    verdict.summaryText]

end Verdict

end SnapshotAudit
