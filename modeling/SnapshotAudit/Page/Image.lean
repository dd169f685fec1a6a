import SnapshotAudit.Page.Basic

/-!
This module contains the images from which partition files are laid out. Fields are written one by
one, and sealing stores the checksum; no write changes the size of an image.
-/

namespace SnapshotAudit

structure PageImage where
  bytes : Bytes
  long : PageLayout.minimumSize ≤ bytes.length

namespace PageImage

theorem bytes_inj {a b : PageImage} : a.bytes = b.bytes ↔ a = b := by
  cases a
  cases b
  simp

instance : DecidableEq PageImage :=
  fun _ _ => decidable_of_iff _ bytes_inj

def blank (size : UInt32) : Except Fault PageImage :=
  if h : PageLayout.minimumSize ≤ size.toNat then
    .ok ⟨List.replicate size.toNat 0, by simpa using h⟩
  else
    .error (.invalidArgument (.join ["page size must be at least ",
      .decimal PageLayout.minimumSize]))

def ofBytes (bytes : Bytes) : Except Fault PageImage :=
  if h : PageLayout.minimumSize ≤ bytes.length then
    .ok ⟨bytes, h⟩
  else
    .error (.invalidArgument (.join ["page image shorter than ",
      .decimal PageLayout.minimumSize]))

def write (image : PageImage) (offset width n : Nat)
    (fits : offset + width ≤ PageLayout.minimumSize := by decide) : PageImage where
  bytes := image.bytes.take offset ++ littleEndian width n ++ image.bytes.drop (offset + width)
  long := by
    have := image.long
    simp only [List.length_append, List.length_take, length_littleEndian, List.length_drop]
    omega

def clear (image : PageImage) : PageImage where
  bytes := image.bytes.map fun _ => 0
  long := by simpa using image.long

def start (image : PageImage) (type : UInt16) (partition index : UInt32)
    : PageImage × Option PageError :=
  let headed := image.clear
    |>.write PageLayout.typeOffset 2 type.toNat
    |>.write PageLayout.versionOffset 2 PageLayout.version.toNat
  match PageId.ofParts PageLayout.dataFlags partition index with
  | .error error => (headed, some error)
  | .ok id => (headed.write PageLayout.idOffset 8 id.bits.toNat, none)

def setCounter (image : PageImage) (counter : UInt64) : PageImage :=
  image.write PageLayout.counterOffset 8 counter.toNat

def setSize (image : PageImage) (size : UInt64) : PageImage :=
  image.write PageLayout.sizeOffset 8 size.toNat

def setState (image : PageImage) (state : UInt8) : PageImage :=
  image.write PageLayout.stateOffset 1 state.toNat

def setCrc (image : PageImage) (crc : UInt32) : PageImage :=
  image.write PageLayout.crcOffset 4 crc.toNat

def fill (image : PageImage) (seed : UInt8) : PageImage where
  bytes := image.bytes.mapIdx fun i b =>
    if PageLayout.headerSize ≤ i then seed + (7 * i).toUInt8 else b
  long := by simpa using image.long

def sealed (image : PageImage) : PageImage :=
  image.setCrc (PageLayout.crc image.bytes)

def page (image : PageImage) (index : UInt32) : Page :=
  ⟨index, image.bytes, image.long⟩

@[simp]
theorem length_write (image : PageImage) (offset width n : Nat)
    (fits : offset + width ≤ PageLayout.minimumSize)
    : (image.write offset width n fits).bytes.length = image.bytes.length := by
  have := image.long
  simp only [write, List.length_append, List.length_take, length_littleEndian, List.length_drop]
  omega

end PageImage

end SnapshotAudit
