import SnapshotAudit.Assignment
import SnapshotAudit.Catalog
import SnapshotAudit.Layout.PartitionFile

/-!
This module contains how an intact snapshot is laid out: every node of the baseline gets its
metafile and, for every group it may hold, a directory with the group data and the partitions that
it owns.
-/

namespace SnapshotAudit

namespace Layout

def base : Text := "data"

def snapshotRoot (node : Text) : Text :=
  Path.join (Path.join base node) FileName.snapshots

def layDirectory (tree : FileTree) (dir file : Text) (bytes : Bytes) : FileTree × Option Fault :=
  FileTree.andThen (tree.createDirectories dir) fun tree =>
    tree.attempt (Metafile.write tree (Path.join dir file) bytes)

def layGroup (desc : SnapshotDescriptor) (dir : Text) (tree : FileTree) (expected : ExpectedGroup)
    : FileTree × Option Fault :=
  match desc.group? expected.id with
  | none => (tree, none)
  | some group =>
    let groupDir := Path.join dir (FileName.groupDirectory expected.name)
    FileTree.andThen (layDirectory tree groupDir FileName.groupData
        (GroupData.encode ⟨group.id, group.name, group.partitions, group.backups⟩)) fun tree =>
      tree.sequence expected.partitions fun tree p =>
        writePartition tree (Path.join groupDir (FileName.partition p)) desc.pageSize p

def layNode (desc : SnapshotDescriptor) (assignment : Assignment) (tree : FileTree)
    (node : Text) : FileTree × Option Fault :=
  let dir := Path.join (snapshotRoot node) desc.name
  FileTree.andThen (layDirectory tree dir (FileName.metafile node)
      (SnapshotMetadata.encode ⟨desc, node⟩)) fun tree =>
    tree.sequence (assignment.expectedFor desc node) (layGroup desc dir)

def laySnapshot (tree : FileTree) (desc : SnapshotDescriptor) : FileTree × Option Fault :=
  FileTree.andThen (tree.remove base) fun tree =>
    tree.sequence desc.baseline (layNode desc (Rendezvous.assign desc))

end Layout

end SnapshotAudit
