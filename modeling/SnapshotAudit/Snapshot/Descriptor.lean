import SnapshotAudit.Text

/-!
This module contains what a snapshot is: a name, the nodes that took part when it was made, and
cache groups whose partitions are spread over those nodes. It also contains the names of the files
and directories in which a node keeps its share.
-/

namespace SnapshotAudit

structure PartitionKey where
  group : Int32
  partition : UInt32
deriving DecidableEq

namespace PartitionKey

instance : Ord PartitionKey where
  compare := compareLex (compareOn group) (compareOn partition)

instance : Std.TransOrd PartitionKey :=
  inferInstanceAs (Std.TransCmp (compareLex (compareOn group) (compareOn partition)))

instance : Std.LawfulEqOrd PartitionKey where
  eq_of_compare {a b} h := by
    have h : (compare a.group b.group).then (compare a.partition b.partition) = .eq := h
    rw [Ordering.then_eq_eq] at h
    cases a
    cases b
    simp_all

def text (key : PartitionKey) : Text :=
  .join ["[grpId=", .signed key.group.toInt, ", partId=", .decimal key.partition.toNat, "]"]

end PartitionKey

structure GroupDescriptor where
  id : Int32
  name : Text
  partitions : UInt32
  backups : UInt32
  nodeFilter : List Text
deriving DecidableEq

namespace GroupDescriptor

def admits (group : GroupDescriptor) (node : Text) : Bool :=
  group.nodeFilter.isEmpty || node ∈ group.nodeFilter

/--
The identity of a group: a hash of its name with 31 as the base, computed in signed 32-bit words.
-/
def idOfName (name : Text) : Int32 :=
  (name.foldl (fun (h : UInt32) (b : UInt8) => h * 31 + b.toUInt32) 0).toInt32

end GroupDescriptor

structure SnapshotDescriptor where
  name : Text
  epoch : UInt64
  pageSize : UInt32
  baseline : List Text
  groups : List GroupDescriptor
deriving DecidableEq

namespace SnapshotDescriptor

def group? (desc : SnapshotDescriptor) (id : Int32) : Option GroupDescriptor :=
  desc.groups.find? fun group => group.id = id

end SnapshotDescriptor

namespace FileName

def snapshots : Text := "snapshots"

def metafileExtension : Text := ".smf"

def groupData : Text := "cache_data.dat"

def groupDirectory (group : Text) : Text :=
  "cache-" ++ group

def partition (id : UInt32) : Text :=
  .join ["part-", .decimal id.toNat, ".bin"]

def metafile (node : Text) : Text :=
  node ++ metafileExtension

end FileName

end SnapshotAudit
