import SnapshotAudit.FileTree.Edit
import SnapshotAudit.Page.Image

/-!
This module contains how partition files are made: from descriptions of their pages, or from a few
pages whose content is fixed by the partition. It also contains how a page of a file is damaged and
how its counter is changed.
-/

namespace SnapshotAudit

structure PageSpec where
  type : UInt16
  partition : UInt32
  index : UInt32
  fill : Option UInt8
  counter : Option UInt64
  size : Option UInt64
  state : Option UInt8
  crc : Option UInt32

namespace PageSpec

def apply {α : Type} (image : PageImage) (value : Option α) (set : PageImage → α → PageImage)
    : PageImage :=
  match value with
  | none => image
  | some v => set image v

/--
The image of the page, with the right checksum unless another one is given.
-/
def image (spec : PageSpec) (pageSize : UInt32) : Except Fault PageImage := do
  match (← PageImage.blank pageSize).start spec.type spec.partition spec.index with
  | (_, some error) => .error error.fault
  | (started, none) =>
    let image := apply started spec.fill PageImage.fill
    let image := apply image spec.counter PageImage.setCounter
    let image := apply image spec.size PageImage.setSize
    let image := apply image spec.state PageImage.setState
    match spec.crc with
    | none => return image.sealed
    | some crc => return image.setCrc crc

end PageSpec

inductive PageSource where
  | raw (bytes : Bytes)
  | zero
  | spec (description : PageSpec)

namespace PageSource

def bytes (source : PageSource) (pageSize : UInt32) : Except Fault Bytes :=
  match source with
  | raw bytes => .ok bytes
  | zero => return (← PageImage.blank pageSize).bytes
  | spec description => return (← description.image pageSize).bytes

end PageSource

namespace Layout

def orCannotCreate (path : Text) (result : Except PathError FileTree) : Except Fault FileTree :=
  match result with
  | .ok tree => .ok tree
  | .error _ => .error (.system ("cannot create " ++ path))

def writePages (tree : FileTree) (path : Text) (pageSize : UInt32) (pages : List PageSource)
    : Except Fault FileTree := do
  let images ← pages.mapM fun page => page.bytes pageSize
  orCannotCreate path (tree.write path images.flatten)

def pagesPerPartition : Nat := 4

def firstCounter (partition : UInt32) : UInt64 :=
  100 + partition.toUInt64

/--
A page with fixed content: the meta page at position 0, a page that was never written at position 2
and data elsewhere.
-/
def fixedPage (partition : UInt32) (index : Nat) : PageSource :=
  let counter := firstCounter partition
  match index with
  | 0 => .spec ⟨PageLayout.metaType, partition, 0, none, some counter, some (counter * 2), some 1,
      none⟩
  | 2 => .zero
  | _ => .spec ⟨PageLayout.dataType, partition, index.toUInt32,
      some (partition * 7 + index.toUInt32).toUInt8, none, none, none, none⟩

/--
Write a partition file with fixed content. When a page cannot be made, the pages in front of it have
been written.
-/
def writePartition (tree : FileTree) (path : Text) (pageSize partition : UInt32)
    : FileTree × Option Fault :=
  match orCannotCreate path (tree.write path []) with
  | .error fault => (tree, some fault)
  | .ok tree => go tree ((List.range pagesPerPartition).map (fixedPage partition))
where
  go (tree : FileTree) (pages : List PageSource) : FileTree × Option Fault :=
    match pages with
    | [] => (tree, none)
    | page :: rest =>
      let written := do orCannotCreate path (tree.append path (← page.bytes pageSize))
      match written with
      | .error fault => (tree, some fault)
      | .ok tree => go tree rest

def readRaw (tree : FileTree) (path : Text) (pageSize index : UInt32) : Except Fault Bytes :=
  let fault := .system (.join ["cannot read page ", .decimal index.toNat, " of ", path])
  match tree.read path with
  | .error _ => .error fault
  | .ok bytes =>
    let page := (bytes.drop (index.toNat * pageSize.toNat)).take pageSize.toNat
    if page.length = pageSize.toNat then .ok page else .error fault

def changePage (tree : FileTree) (path : Text) (pageSize index : UInt32)
    (change : PageImage → PageImage) : Except Fault FileTree := do
  let image ← PageImage.ofBytes (← readRaw tree path pageSize index)
  match tree.overwrite path (index.toNat * pageSize.toNat) (change image).bytes with
  | .ok tree => .ok tree
  | .error _ =>
    .error (.system (.join ["cannot write page ", .decimal index.toNat, " of ", path]))

def corrupt (tree : FileTree) (path : Text) (pageSize index : UInt32) : Except Fault FileTree :=
  changePage tree path pageSize index fun image =>
    image.setCrc (~~~ PageLayout.crc image.bytes)

def setCounter (tree : FileTree) (path : Text) (pageSize : UInt32) (counter : UInt64)
    : Except Fault FileTree :=
  changePage tree path pageSize 0 fun image => (image.setCounter counter).sealed

end Layout

end SnapshotAudit
