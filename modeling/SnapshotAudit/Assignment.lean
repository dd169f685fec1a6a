import SnapshotAudit.Checksum
import SnapshotAudit.Ordered.Set
import SnapshotAudit.Snapshot.Outcome

/-!
This module contains which node holds which partition. Every partition goes to the nodes with the
largest weights, and a weight depends on nothing but the node, the group and the partition: all
nodes come to the same assignment without talking to each other.
-/

namespace SnapshotAudit

/--
The owners of each partition, the primary first, and the nodes that may hold something of each
group.
-/
structure Assignment where
  owners : SortedMap PartitionKey (List Text)
  eligible : SortedMap Int32 (SortedSet Text)
deriving DecidableEq

namespace Assignment

def isOwner (assignment : Assignment) (key : PartitionKey) (node : Text) : Bool :=
  node ∈ assignment.owners.getD key []

def isEligible (assignment : Assignment) (node : Text) : Bool :=
  assignment.eligible.values.any fun nodes => nodes.contains node

def ownedPartitions (assignment : Assignment) (group : GroupDescriptor) (node : Text)
    : List UInt32 :=
  (assignment.owners.entries.filter fun e =>
    e.1.group = group.id && e.1.partition < group.partitions && node ∈ e.2).map fun e =>
      e.1.partition

/--
What a node must hold: every group it is eligible for, each with the partitions it owns. A group may
be expected without any partition.
-/
def expectedFor (assignment : Assignment) (desc : SnapshotDescriptor) (node : Text)
    : List ExpectedGroup :=
  (desc.groups.filter fun group => (assignment.eligible.getD group.id .empty).contains node).map
    fun group => ⟨group.id, group.name, assignment.ownedPartitions group node⟩

end Assignment

namespace Rendezvous

/--
Scatter the bits of a word. Every step can be undone, so that two words never become one.
-/
def mix (x : UInt64) : UInt64 :=
  let x := x + 0x9e3779b97f4a7c15
  let x := (x ^^^ (x >>> 30)) * 0xbf58476d1ce4e5b9
  let x := (x ^^^ (x >>> 27)) * 0x94d049bb133111eb
  x ^^^ (x >>> 31)

def slot (group : Int32) (partition : UInt32) : UInt64 :=
  group.toUInt32.toUInt64 <<< 32 ||| partition.toUInt64

def weight (node : Text) (group : Int32) (partition : UInt32) : UInt64 :=
  mix ((crc32 node).toUInt64 ^^^ slot group partition)

def goesFirst (a b : UInt64 × Text) : Bool :=
  if a.1 ≠ b.1 then a.1 > b.1 else (compare a.2 b.2).isLE

def ranking (nodes : List Text) (group : Int32) (partition : UInt32) : List Text :=
  ((nodes.map fun node => (weight node group partition, node)).mergeSort goesFirst).map Prod.snd

def admitted (desc : SnapshotDescriptor) (group : GroupDescriptor) : List Text :=
  desc.baseline.filter group.admits

def ownersOf (desc : SnapshotDescriptor) (group : GroupDescriptor) (partition : UInt32)
    : List Text :=
  (ranking (admitted desc group) group.id partition).take (group.backups.toNat + 1)

/--
Spread the partitions of one more group. When two groups have the same identity, the owners of the
later one are put behind the owners of the earlier one.
-/
def assignGroup (desc : SnapshotDescriptor) (assignment : Assignment) (group : GroupDescriptor)
    : Assignment where
  owners := (List.range group.partitions.toNat).foldr (fun p owners =>
      owners.update ⟨group.id, p.toUInt32⟩ fun earlier =>
        earlier.getD [] ++ ownersOf desc group p.toUInt32)
    assignment.owners
  eligible := assignment.eligible.insert group.id (.ofElements (admitted desc group))

def assign (desc : SnapshotDescriptor) : Assignment :=
  desc.groups.foldl (assignGroup desc) ⟨.empty, .empty⟩

end Rendezvous

end SnapshotAudit
