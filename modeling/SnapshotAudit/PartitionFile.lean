import SnapshotAudit.FileTree.Basic
import SnapshotAudit.Page.Basic

/-!
This module contains the reading of partition files. A partition file is a sequence of pages of one
size; page `n` starts at `n` times that size, carries its own checksum and names its partition and
position, unless it was never written.
-/

namespace SnapshotAudit

inductive PartitionError where
  | pageSize (path : Text) (bytes : UInt32)
  | partitionTooLarge (path : Text) (partition : UInt32)
  | unreadable (path : Text) (reason : PathError)
  | empty (path : Text)
  | unevenSize (path : Text) (size : Nat) (pageBytes : UInt32)
  | tooManyPages (path : Text)
  | outOfRange (path : Text) (index pageCount : UInt32)
  | shortRead (path : Text) (index : UInt32)
  | corrupt (path : Text) (index : UInt32) (id : PageId) (stored computed : UInt32)
  | misplaced (path : Text) (id : PageId) (partition index : UInt32)
  | noMetaPage (path : Text)
  | page (error : PageError)
deriving DecidableEq

namespace PartitionError

def kind (error : PartitionError) : FailureKind :=
  match error with
  | corrupt .. => .corruptPage
  | unreadable .. => .internal
  | _ => .structureViolation

def message (error : PartitionError) : Text :=
  match error with
  | pageSize path bytes =>
    .join ["Invalid page size ", .decimal bytes.toNat, " for partition file: ", path]
  | partitionTooLarge path partition =>
    .join ["Partition id ", .decimal partition.toNat, " exceeds ",
      .decimal PageLayout.maximumPartition.toNat, ": ", path]
  | unreadable path reason =>
    .join ["Failed to stat partition file: ", path, ": ", reason.message]
  | empty path => .join ["Partition file is empty: ", path]
  | unevenSize path size pageBytes =>
    .join ["Partition file size ", .decimal size, " is not a multiple of page size ",
      .decimal pageBytes.toNat, ": ", path]
  | tooManyPages path =>
    .join ["Partition file has more than ", .decimal (UInt32.size - 1), " pages: ", path]
  | outOfRange path index pageCount =>
    .join ["Page index ", .decimal index.toNat, " is out of range [0, ",
      .decimal pageCount.toNat, ") in ", path]
  | shortRead path index => .join ["Short read of page ", .decimal index.toNat, " in ", path]
  | corrupt path index id stored computed =>
    .join ["Failed to read page [file=", path, ", pageIdx=", .decimal index.toNat, ", pageId=",
      .hexadecimal id.bits.toNat, "]: CRC mismatch (stored=", .hexadecimal stored.toNat,
      ", calculated=", .hexadecimal computed.toNat, ")"]
  | misplaced path id partition index =>
    .join ["Page id ", .hexadecimal id.bits.toNat, " does not match position [partId=",
      .decimal partition.toNat, ", pageIdx=", .decimal index.toNat, "] in ", path]
  | noMetaPage path => .join ["Partition meta page is missing in ", path]
  | page error => error.message

def fault (error : PartitionError) : Fault :=
  .audit error.kind error.message

end PartitionError

structure PartitionFile where
  path : Text
  pageSize : UInt32
  partition : UInt32
  pageCount : UInt32
deriving DecidableEq

namespace PartitionFile

def checkParameters (path : Text) (pageSize partition : UInt32) : Except PartitionError Unit :=
  if pageSize.toNat < PageLayout.minimumSize then .error (.pageSize path pageSize)
  else if partition > PageLayout.maximumPartition then .error (.partitionTooLarge path partition)
  else .ok ()

/--
The file of a given size: a positive multiple of the page size, with a number of pages that fits a
word.
-/
def ofSize (path : Text) (pageSize partition : UInt32) (size : Nat)
    : Except PartitionError PartitionFile := do
  checkParameters path pageSize partition
  if size = 0 then .error (.empty path)
  else if size % pageSize.toNat ≠ 0 then .error (.unevenSize path size pageSize)
  else if UInt32.size - 1 < size / pageSize.toNat then .error (.tooManyPages path)
  else .ok ⟨path, pageSize, partition, (size / pageSize.toNat).toUInt32⟩

def find (tree : FileTree) (path : Text) (pageSize partition : UInt32)
    : Except PartitionError (PartitionFile × FileId) := do
  checkParameters path pageSize partition
  match tree.file path with
  | .error reason => .error (.unreadable path reason)
  | .ok id => return (← ofSize path pageSize partition (tree.bytesOf id).length, id)

def checkPage (file : PartitionFile) (page : Page) : Except PartitionError Page :=
  if page.isEmpty then .ok page
  else if page.storedCrc ≠ page.computedCrc then
    .error (.corrupt file.path page.index page.id page.storedCrc page.computedCrc)
  else if page.id.index ≠ page.index || page.id.partition ≠ file.partition then
    .error (.misplaced file.path page.id file.partition page.index)
  else .ok page

def pageAt (file : PartitionFile) (index : UInt32) (bytes : Bytes) : Except PartitionError Page :=
  let image := bytes.take file.pageSize.toNat
  if image.length ≠ file.pageSize.toNat then .error (.shortRead file.path index)
  else
    match Page.ofBytes index image with
    | .error error => .error (.page error)
    | .ok page => file.checkPage page

def readPage (file : PartitionFile) (bytes : Bytes) (index : UInt32)
    : Except PartitionError Page :=
  if file.pageCount ≤ index then .error (.outOfRange file.path index file.pageCount)
  else file.pageAt index (bytes.drop (index.toNat * file.pageSize.toNat))

/--
Read the pages from `index` on in their order, the bytes being those that start there, and show
those that were written to a visitor. The first error, of a page or of the visitor, ends the scan.
The result is what the visitor has come to and how many pages it has seen.
-/
def scanFrom {σ : Type} (file : PartitionFile) (visit : σ → Page → Except PartitionError σ)
    (left index visited : Nat) (bytes : Bytes) (state : σ) : σ × Except PartitionError Nat :=
  match left with
  | 0 => (state, .ok visited)
  | left + 1 =>
    match file.pageAt index.toUInt32 bytes with
    | .error error => (state, .error error)
    | .ok page =>
      let rest := bytes.drop file.pageSize.toNat
      if page.isEmpty then file.scanFrom visit left (index + 1) visited rest state
      else
        match visit state page with
        | .error error => (state, .error error)
        | .ok state => file.scanFrom visit left (index + 1) (visited + 1) rest state

def scan {σ : Type} (file : PartitionFile) (bytes : Bytes)
    (visit : σ → Page → Except PartitionError σ) (state : σ) : σ × Except PartitionError Nat :=
  file.scanFrom visit file.pageCount.toNat 0 0 bytes state

def visitAll (file : PartitionFile) (bytes : Bytes) : List UInt32 × Except PartitionError Nat :=
  let (seen, result) := file.scan bytes (fun seen page => .ok (page.index :: seen)) []
  (seen.reverse, result)

/--
Take the update counter from the first page, which must be a meta page.
-/
def noteCounter (counter : Option UInt64) (page : Page)
    : Except PartitionError (Option UInt64) :=
  if page.index = 0 then
    match page.partitionMeta with
    | .error error => .error (.page error)
    | .ok m => .ok (some m.counter)
  else .ok counter

def audit (file : PartitionFile) (bytes : Bytes) : Except PartitionError (UInt64 × Nat) :=
  match file.scan bytes noteCounter none with
  | (_, .error error) => .error error
  | (none, .ok _) => .error (.noMetaPage file.path)
  | (some counter, .ok pages) => .ok (counter, pages)

end PartitionFile

end SnapshotAudit
