import SnapshotAudit.Layout.Snapshot
import SnapshotAudit.Cluster.Dispatching

/-!
This module contains how the things in a cluster are named by whoever steers it, and the
steps on its files.
-/

namespace SnapshotAudit

namespace Cluster

inductive Kind where
  | service
  | job
  | dispatcher
  | call
  | coordinator
  | handle
  | server
  | connection
  | gossip
  | node
  | reader
deriving DecidableEq

namespace Kind

def label (kind : Kind) : Text :=
  match kind with
  | service => "svc"
  | job => "job"
  | dispatcher => "disp"
  | call => "call"
  | coordinator => "coord"
  | handle => "handle"
  | server => "server"
  | connection => "conn"
  | gossip => "gossip"
  | node => "peer"
  | reader => "reader"

end Kind

def absent (what name : Text) : Fault :=
  .invalidArgument (.join ["no such ", what, ": ", name])

def noSuch (kind : Kind) (name : Text) : Fault :=
  absent kind.label name

def bindName (kind : Kind) (name : Text) (id : Id) : ClusterM Unit :=
  modify fun w =>
    { w with
      names := w.names.insert kind.label ((w.names.getD kind.label .empty).insert name id) }

def dropName (kind : Kind) (name : Text) : ClusterM Unit :=
  modify fun w =>
    { w with names := w.names.insert kind.label ((w.names.getD kind.label .empty).erase name) }

def lookup? (cluster : Cluster) (kind : Kind) (name : Text) : Option Id :=
  (cluster.names.getD kind.label .empty).get? name

def previous (kind : Kind) (name : Text) (drop : Id → ClusterM Unit) : ClusterM Unit := do
  match lookup? (← get) kind name with
  | none => return
  | some id => drop id

def allNamed (cluster : Cluster) (kind : Kind) : List Id :=
  (cluster.names.getD kind.label .empty).values

def named (kind : Kind) (name : Text) : Action Id := do
  match lookup? (← get) kind name with
  | some id => return id
  | none => throw (noSuch kind name)

def present {α : Type} (fault : Fault) (value : Option α) : Action α :=
  match value with
  | some v => return v
  | none => throw fault

def object {α : Type} (kind : Kind) (table : Cluster → Table α) (name : Text)
    : Action (Id × α) := do
  let id ← named kind name
  return (id, ← present (noSuch kind name) ((table (← get)).get? id))

def ofFiles {α : Type} (f : FileTree → Except Fault α) : Action α := do
  match f (← get).files with
  | .ok v => return v
  | .error fault => throw fault

def editFiles (f : FileTree → Except Fault FileTree) : Action Unit := do
  let files ← ofFiles f
  modify fun w => { w with files }

def editPath (what path : Text) (f : FileTree → Except PathError FileTree) : Action Unit :=
  editFiles fun tree =>
    match f tree with
    | .ok tree => .ok tree
    | .error error => .error (.system (.join ["cannot ", what, " ", path, ": ", error.message]))

def changeFiles (f : FileTree → FileTree × Option Fault) : Action Unit := do
  let (files, fault) := f (← get).files
  modify fun w => { w with files }
  match fault with
  | none => return
  | some fault => throw fault

def laySnapshot (desc : SnapshotDescriptor) : Action Unit :=
  changeFiles fun tree => Layout.laySnapshot tree desc

def openReader (name path : Text) (pageSize partition : UInt32) : Action PartitionFile := do
  let (partitionFile, file) ← ofFiles fun tree =>
    match PartitionFile.find tree path pageSize partition with
    | .ok found => .ok found
    | .error error => .error error.fault
  modify fun w => { w with readers := w.readers.insert name ⟨partitionFile, file⟩ }
  return partitionFile

def reader (name : Text) : Action (PartitionFile × Bytes) := do
  let r ← present (noSuch .reader name) ((← get).readers.get? name)
  return (r.partitionFile, (← get).files.bytesOf r.file)

def readPage (name : Text) (index : UInt32) : Action Page := do
  let (file, bytes) ← reader name
  match file.readPage bytes index with
  | .ok page => return page
  | .error error => throw error.fault

def readAll (name : Text) : Action (List UInt32 × Except Fault Nat) := do
  let (file, bytes) ← reader name
  let (seen, result) := file.visitAll bytes
  return (seen, match result with | .ok n => .ok n | .error error => .error error.fault)

end Cluster

end SnapshotAudit
