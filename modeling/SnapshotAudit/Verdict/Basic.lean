import SnapshotAudit.Ordered.Set
import SnapshotAudit.Snapshot.Outcome

/-!
This module contains the verdict on a snapshot. All of its parts are ordered, so that two verdicts
on the same outcomes are equal whatever the order in which the outcomes came in.
-/

namespace SnapshotAudit

structure MissingGroupEntry where
  group : Int32
  name : Text
  node : Text
deriving DecidableEq

namespace MissingGroupEntry

instance : Ord MissingGroupEntry where
  compare := compareLex (compareOn group) (compareLex (compareOn name) (compareOn node))

instance : Std.TransOrd MissingGroupEntry :=
  inferInstanceAs (Std.TransCmp
    (compareLex (compareOn group) (compareLex (compareOn name) (compareOn node))))

instance : Std.LawfulEqOrd MissingGroupEntry where
  eq_of_compare {a b} h := by
    have h : (compare a.group b.group).then
        ((compare a.name b.name).then (compare a.node b.node)) = .eq := h
    simp only [Ordering.then_eq_eq, Std.LawfulEqOrd.compare_eq_iff_eq] at h
    cases a
    cases b
    simp_all

end MissingGroupEntry

structure MissingPartitionEntry where
  key : PartitionKey
  name : Text
  node : Text
deriving DecidableEq

namespace MissingPartitionEntry

instance : Ord MissingPartitionEntry where
  compare := compareLex (compareOn key) (compareLex (compareOn name) (compareOn node))

instance : Std.TransOrd MissingPartitionEntry :=
  inferInstanceAs (Std.TransCmp
    (compareLex (compareOn key) (compareLex (compareOn name) (compareOn node))))

instance : Std.LawfulEqOrd MissingPartitionEntry where
  eq_of_compare {a b} h := by
    have h : (compare a.key b.key).then
        ((compare a.name b.name).then (compare a.node b.node)) = .eq := h
    simp only [Ordering.then_eq_eq, Std.LawfulEqOrd.compare_eq_iff_eq] at h
    cases a
    cases b
    simp_all

end MissingPartitionEntry

structure MissingMetadataEntry where
  node : Text
  group : Option Int32
  file : Text
deriving DecidableEq

namespace MissingMetadataEntry

instance : Ord MissingMetadataEntry where
  compare := compareLex (compareOn node) (compareLex (compareOn group) (compareOn file))

instance : Std.TransOrd MissingMetadataEntry :=
  inferInstanceAs (Std.TransCmp
    (compareLex (compareOn node) (compareLex (compareOn group) (compareOn file))))

instance : Std.LawfulEqOrd MissingMetadataEntry where
  eq_of_compare {a b} h := by
    have h : (compare a.node b.node).then
        ((compare a.group b.group).then (compare a.file b.file)) = .eq := h
    simp only [Ordering.then_eq_eq, Std.LawfulEqOrd.compare_eq_iff_eq] at h
    cases a
    cases b
    simp_all

end MissingMetadataEntry

structure Verdict where
  snapshot : Text
  epoch : UInt64
  nodes : SortedSet Text
  failures : SortedMap Text NodeFailure
  missingGroups : SortedSet MissingGroupEntry
  missingPartitions : SortedSet MissingPartitionEntry
  missingMetadata : SortedSet MissingMetadataEntry
  conflicts : SortedMap PartitionKey (SortedMap Text UInt64)
  partitions : SortedMap PartitionKey (SortedMap Text PartitionRecord)
  groupNames : SortedMap Int32 Text
deriving DecidableEq

namespace Verdict

def missingCount (verdict : Verdict) : Nat :=
  verdict.missingGroups.size + verdict.missingPartitions.size + verdict.missingMetadata.size

def clean (verdict : Verdict) : Bool :=
  verdict.failures.isEmpty && verdict.missingCount = 0 && verdict.conflicts.isEmpty

def isMissingGroup (verdict : Verdict) (group : Int32) : Bool :=
  verdict.missingGroups.elements.any fun entry => entry.group = group

def isMissingPartition (verdict : Verdict) (key : PartitionKey) : Bool :=
  verdict.missingPartitions.elements.any fun entry => entry.key = key

def groupName (verdict : Verdict) (group : Int32) : Text :=
  verdict.groupNames.getD group (.signed group.toInt)

end Verdict

end SnapshotAudit
