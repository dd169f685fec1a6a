import SnapshotAudit.Failure
import SnapshotAudit.FileTree.Edit
import SnapshotAudit.Wire.Metafile

/-!
This module contains how a node finds out what a snapshot is: from the metafiles in the directory of
the snapshot. Its own metafile is preferred; any other that names the snapshot will do.
-/

namespace SnapshotAudit

namespace Metafile

/--
What is read from a file that should describe something: nothing when it is not there or cannot be
parsed. A directory in its place is a fault of the machine.
-/
def read {α : Type} (decode : Bytes → Option α) (tree : FileTree) (path : Text)
    : Except Fault (Option α) :=
  match tree.read path with
  | .ok bytes => .ok (decode bytes)
  | .error .isDirectory =>
    .error (.system "basic_filebuf::underflow error reading the file: Is a directory")
  | .error _ => .ok none

def readSnapshot (tree : FileTree) (path : Text) : Except Fault (Option SnapshotMetadata) :=
  read SnapshotMetadata.decode? tree path

def readGroup (tree : FileTree) (path : Text) : Except Fault (Option GroupData) :=
  read GroupData.decode? tree path

def write (tree : FileTree) (path : Text) (bytes : Bytes) : Except Fault FileTree :=
  match tree.write path bytes with
  | .ok tree => .ok tree
  | .error _ => .error (.system ("Failed to open for writing: " ++ path))

end Metafile

structure Catalog where
  root : Text
  node : Text

namespace Catalog

def directory (catalog : Catalog) (snapshot : Text) : Text :=
  Path.join catalog.root snapshot

def candidates (catalog : Catalog) (tree : FileTree) (snapshot : Text) : List Text :=
  let files := (tree.children (catalog.directory snapshot)).filter fun (name, entry) =>
    entry ≠ .directory && Path.extensionOf name = FileName.metafileExtension
  (files.map fun (name, _) => Path.join (catalog.directory snapshot) name).mergeSort
    fun a b => (compare a b).isLE

def descriptorFor? (snapshot : Text) (metadata : Option SnapshotMetadata)
    : Option SnapshotDescriptor :=
  (metadata.map SnapshotMetadata.descriptor).filter fun desc => desc.name = snapshot

def ignored (catalog : Catalog) (path : Text) : Text :=
  .join ["[SnapshotCatalog ", catalog.node, "] ignoring unreadable metafile ", path]

/--
The first candidate that describes the snapshot, and a line in the log for every one in front of it.
-/
def firstMatch (catalog : Catalog) (tree : FileTree) (snapshot : Text) (files : List Text)
    : Except Fault (Option SnapshotDescriptor) × List Text :=
  match files with
  | [] => (.ok none, [])
  | path :: rest =>
    match Metafile.readSnapshot tree path with
    | .error fault => (.error fault, [])
    | .ok metadata =>
      match descriptorFor? snapshot metadata with
      | some desc => (.ok (some desc), [])
      | none =>
        let (found, log) := catalog.firstMatch tree snapshot rest
        (found, catalog.ignored path :: log)

def search (catalog : Catalog) (tree : FileTree) (snapshot : Text)
    : Except Fault (Option SnapshotDescriptor) × List Text :=
  let dir := catalog.directory snapshot
  if tree.isDirectory dir then
    match Metafile.readSnapshot tree (Path.join dir (FileName.metafile catalog.node)) with
    | .error fault => (.error fault, [])
    | .ok own =>
      match descriptorFor? snapshot own with
      | some desc => (.ok (some desc), [])
      | none => catalog.firstMatch tree snapshot (catalog.candidates tree snapshot)
  else
    (.ok none, [])

def find (catalog : Catalog) (tree : FileTree) (snapshot : Text)
    : Except Fault (Option SnapshotDescriptor) :=
  (catalog.search tree snapshot).1

def list (catalog : Catalog) (tree : FileTree) : List Text :=
  (tree.children catalog.root).filterMap fun (name, entry) =>
    if entry = .directory then some name else none

end Catalog

end SnapshotAudit
