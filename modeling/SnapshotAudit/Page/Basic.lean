import SnapshotAudit.Checksum
import SnapshotAudit.Endian
import SnapshotAudit.Failure

/-!
This module contains pages, the units of a partition file. A page starts with a header of 24 bytes:
type, format version, checksum, page id and eight reserved bytes. The meta page of a partition goes
on with an update counter, a size and a state. All numbers have their least significant byte first.
-/

namespace SnapshotAudit

namespace PageLayout

def minimumSize : Nat := 64

def typeOffset : Nat := 0
def versionOffset : Nat := 2
def crcOffset : Nat := 4
def idOffset : Nat := 8
def headerSize : Nat := 24
def counterOffset : Nat := 24
def sizeOffset : Nat := 32
def stateOffset : Nat := 40

def version : UInt16 := 1

def dataType : UInt16 := 1

def metaType : UInt16 := 2

def maximumPartition : UInt32 := 0xFFFF

def dataFlags : UInt8 := 1

def field (offset width : Nat) (bytes : Bytes) : Nat :=
  ofLittleEndian ((bytes.drop offset).take width)

def crc (bytes : Bytes) : UInt32 :=
  crc32 (bytes.take crcOffset ++ bytes.drop idOffset)

end PageLayout

inductive PageError where
  | partitionTooLarge (partition : UInt32)
  | tooShort (index : UInt32)
  | notMeta (index : UInt32) (type : UInt16)
deriving DecidableEq

namespace PageError

def message (error : PageError) : Text :=
  match error with
  | partitionTooLarge partition =>
    .join ["Partition id ", .decimal partition.toNat, " does not fit a page id"]
  | tooShort index =>
    .join ["Page ", .decimal index.toNat, " is shorter than ", .decimal PageLayout.minimumSize,
      " bytes"]
  | notMeta index type =>
    .join ["Page ", .decimal index.toNat, " is not a partition meta page (type=",
      .decimal type.toNat, ")"]

def fault (error : PageError) : Fault :=
  .structureViolation error.message

end PageError

/--
The identity of a page: flags in the highest byte, then sixteen bits for the partition from bit 32
on and the position of the page in the lowest 32 bits.
-/
structure PageId where
  bits : UInt64
deriving DecidableEq

namespace PageId

def ofParts (flags : UInt8) (partition index : UInt32) : Except PageError PageId :=
  if partition > PageLayout.maximumPartition then
    .error (.partitionTooLarge partition)
  else
    .ok ⟨flags.toUInt64 <<< 56 ||| partition.toUInt64 <<< 32 ||| index.toUInt64⟩

def index (id : PageId) : UInt32 :=
  id.bits.toUInt32

def partition (id : PageId) : UInt32 :=
  (id.bits >>> 32).toUInt32 &&& 0xFFFF

end PageId

structure Page where
  index : UInt32
  bytes : Bytes
  long : PageLayout.minimumSize ≤ bytes.length
deriving DecidableEq

namespace Page

def ofBytes (index : UInt32) (bytes : Bytes) : Except PageError Page :=
  if h : PageLayout.minimumSize ≤ bytes.length then
    .ok ⟨index, bytes, h⟩
  else
    .error (.tooShort index)

def size (page : Page) : Nat :=
  page.bytes.length

def type (page : Page) : UInt16 :=
  (PageLayout.field PageLayout.typeOffset 2 page.bytes).toUInt16

def version (page : Page) : UInt16 :=
  (PageLayout.field PageLayout.versionOffset 2 page.bytes).toUInt16

def isMeta (page : Page) : Bool :=
  page.type = PageLayout.metaType

def storedCrc (page : Page) : UInt32 :=
  (PageLayout.field PageLayout.crcOffset 4 page.bytes).toUInt32

def computedCrc (page : Page) : UInt32 :=
  PageLayout.crc page.bytes

def id (page : Page) : PageId :=
  ⟨(PageLayout.field PageLayout.idOffset 8 page.bytes).toUInt64⟩

def isEmpty (page : Page) : Bool :=
  page.bytes.all (· = 0)

structure Meta where
  counter : UInt64
  size : UInt64
  state : UInt8
deriving DecidableEq

def partitionMeta (page : Page) : Except PageError Meta :=
  if page.isMeta then
    .ok {
      counter := (PageLayout.field PageLayout.counterOffset 8 page.bytes).toUInt64
      size := (PageLayout.field PageLayout.sizeOffset 8 page.bytes).toUInt64
      state := (PageLayout.field PageLayout.stateOffset 1 page.bytes).toUInt8
    }
  else
    .error (.notMeta page.index page.type)

end Page

end SnapshotAudit
