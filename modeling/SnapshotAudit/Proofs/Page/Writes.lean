import Mathlib.Data.List.Induction
import SnapshotAudit.Proofs.Layout.Pages
import SnapshotAudit.Proofs.PartitionFile.Scans

/-!
This module contains what a reader finds in a page that was started, written to in any order and
sealed. The writes overlap: a fill covers the meta fields, and sealing covers a checksum that was
written by hand. None of them reaches the rest of the header.
-/

namespace SnapshotAudit

inductive PageWrite where
  | counter (value : UInt64)
  | size (value : UInt64)
  | state (value : UInt8)
  | crc (value : UInt32)
  | fill (seed : UInt8)
deriving DecidableEq

inductive MetaField where
  | counter
  | size
  | state
deriving DecidableEq

namespace MetaField

def offset (field : MetaField) : Nat :=
  match field with
  | counter => PageLayout.counterOffset
  | size => PageLayout.sizeOffset
  | state => PageLayout.stateOffset

def width (field : MetaField) : Nat :=
  match field with
  | counter => 8
  | size => 8
  | state => 1

def get (field : MetaField) (bytes : Bytes) : Nat :=
  PageLayout.field field.offset field.width bytes

def pattern (field : MetaField) (seed : UInt8) : Nat :=
  ofLittleEndian ((List.range' field.offset field.width).map fun i => seed + (7 * i).toUInt8)

theorem fits (field : MetaField) : field.offset + field.width ≤ PageLayout.minimumSize := by
  cases field <;> decide

theorem behind_header (field : MetaField) : PageLayout.headerSize ≤ field.offset := by
  cases field <;> decide

theorem disjoint {field other : MetaField} (h : field ≠ other)
    : field.offset + field.width ≤ other.offset ∨ other.offset + other.width ≤ field.offset := by
  cases field <;> cases other <;> first | exact absurd rfl h | decide

end MetaField

namespace PageWrite

def apply (image : PageImage) (write : PageWrite) : PageImage :=
  match write with
  | counter value => image.setCounter value
  | size value => image.setSize value
  | state value => image.setState value
  | crc value => image.setCrc value
  | fill seed => image.fill seed

def leaves? (field : MetaField) (write : PageWrite) : Option Nat :=
  match field, write with
  | .counter, counter value => some value.toNat
  | .size, size value => some value.toNat
  | .state, state value => some value.toNat
  | field, fill seed => some (field.pattern seed)
  | _, _ => none

/--
What the last write that covers a field leaves in it. A page starts with zeros.
-/
def lastLeft (field : MetaField) (writes : List PageWrite) : Nat :=
  (writes.filterMap (leaves? field)).getLast?.getD 0

def lastMeta (writes : List PageWrite) : Page.Meta where
  counter := (lastLeft .counter writes).toUInt64
  size := (lastLeft .size writes).toUInt64
  state := (lastLeft .state writes).toUInt8

theorem lastLeft_concat (field : MetaField) (writes : List PageWrite) (write : PageWrite)
    : lastLeft field (writes ++ [write]) = (leaves? field write).getD (lastLeft field writes) := by
  unfold lastLeft
  rw [List.filterMap_append]
  cases hleaves : leaves? field write <;> simp [hleaves]

end PageWrite

namespace PageImage

variable (image : PageImage)

def written (started : PageImage) (writes : List PageWrite) : PageImage :=
  writes.foldl PageWrite.apply started

def put (field : MetaField) (n : Nat) : PageImage :=
  image.write field.offset field.width n field.fits

theorem written_concat (writes : List PageWrite) (write : PageWrite)
    : image.written (writes ++ [write]) = write.apply (image.written writes) :=
  List.foldl_concat ..

theorem length_put (field : MetaField) (n : Nat)
    : (image.put field n).bytes.length = image.bytes.length :=
  image.length_write ..

theorem length_apply (write : PageWrite)
    : (write.apply image).bytes.length = image.bytes.length := by
  cases write with
  | counter value => exact length_put image .counter value.toNat
  | size value => exact length_put image .size value.toNat
  | state value => exact length_put image .state value.toNat
  | crc value => exact image.length_write _ _ _ (by decide)
  | fill seed => exact length_fill image seed

/-!
The header.
-/

def Kept (start size : Nat) : Prop :=
  start + size ≤ PageLayout.crcOffset ∨
    PageLayout.idOffset ≤ start ∧ start + size ≤ PageLayout.headerSize

theorem kept_type : Kept PageLayout.typeOffset 2 :=
  .inl (by decide)

theorem kept_version : Kept PageLayout.versionOffset 2 :=
  .inl (by decide)

theorem kept_id : Kept PageLayout.idOffset 8 :=
  .inr (by decide)

variable {start size : Nat}

theorem Kept.in_header (h : Kept start size) : start + size ≤ PageLayout.headerSize :=
  h.elim (fun hfront => Nat.le_trans hfront (by decide)) And.right

theorem Kept.field_sealed (h : Kept start size)
    : PageLayout.field start size image.sealed.bytes = PageLayout.field start size image.bytes :=
  PageImage.field_sealed image (h.imp_right And.left)

theorem Kept.field_put (h : Kept start size) (field : MetaField) (n : Nat)
    : PageLayout.field start size (image.put field n).bytes =
      PageLayout.field start size image.bytes :=
  field_write_other image _ _ n field.fits (.inl (Nat.le_trans h.in_header field.behind_header))

theorem Kept.field_apply (h : Kept start size) (write : PageWrite)
    : PageLayout.field start size (write.apply image).bytes =
      PageLayout.field start size image.bytes := by
  cases write with
  | counter value => exact h.field_put image .counter value.toNat
  | size value => exact h.field_put image .size value.toNat
  | state value => exact h.field_put image .state value.toNat
  | crc value => exact field_write_other image _ _ _ (by decide) (h.imp_right And.left)
  | fill seed => exact field_fill image seed h.in_header

theorem Kept.field_written (h : Kept start size) (writes : List PageWrite)
    : PageLayout.field start size (image.written writes).bytes =
      PageLayout.field start size image.bytes := by
  induction writes using List.reverseRecOn with
  | nil => rfl
  | append_singleton writes write ih => rw [written_concat, h.field_apply, ih]

theorem length_written (writes : List PageWrite)
    : (image.written writes).bytes.length = image.bytes.length := by
  induction writes using List.reverseRecOn with
  | nil => rfl
  | append_singleton writes write ih => rw [written_concat, length_apply, ih]

variable {image} {length : Nat} {type : UInt16} {partition index : UInt32}

theorem Headed.written_to (h : image.Headed length type partition index)
    (writes : List PageWrite) : (image.written writes).Headed length type partition index := by
  obtain ⟨id, hid, hfield⟩ := h.id_eq
  exact ⟨(length_written image writes).trans h.length_eq,
    (kept_type.field_written image writes).trans h.type_eq,
    id, hid, (kept_id.field_written image writes).trans hfield⟩

theorem version_start {started : PageImage}
    (h : image.start type partition index = (started, none))
    : PageLayout.field PageLayout.versionOffset 2 started.bytes = PageLayout.version.toNat := by
  unfold start at h
  dsimp only at h
  split at h
  next => cases h
  next =>
    cases h
    rw [field_write_other _ _ _ _ _ (.inl (by decide)), field_write_self]
    rfl

/-!
The meta fields.
-/

theorem get_start {started : PageImage}
    (h : image.start type partition index = (started, none)) (field : MetaField)
    : field.get started.bytes = 0 := by
  have hbehind (offset width : Nat) (hheader : offset + width ≤ PageLayout.headerSize)
      : offset + width ≤ field.offset :=
    Nat.le_trans hheader field.behind_header
  have hclear : PageLayout.field field.offset field.width image.clear.bytes = 0 := by
    apply PartitionFile.ofLittleEndian_eq_zero
    intro b hb
    have hzero : b ∈ image.bytes.map fun _ => 0 := List.mem_of_mem_drop (List.mem_of_mem_take hb)
    obtain ⟨_, _, rfl⟩ := List.mem_map.mp hzero
    rfl
  unfold start at h
  dsimp only at h
  split at h
  next => cases h
  next =>
    cases h
    unfold MetaField.get
    rw [field_write_other _ _ _ _ _ (.inr (hbehind _ _ (by decide))),
      field_write_other _ _ _ _ _ (.inr (hbehind _ _ (by decide))),
      field_write_other _ _ _ _ _ (.inr (hbehind _ _ (by decide))), hclear]

theorem get_fill (seed : UInt8) (field : MetaField)
    : field.get (image.fill seed).bytes = field.pattern seed := by
  have hlong := Nat.le_trans field.fits image.long
  have hbehind := field.behind_header
  have hbytes : ((image.fill seed).bytes.drop field.offset).take field.width =
      (List.range' field.offset field.width).map fun i => seed + (7 * i).toUInt8 := by
    apply List.ext_getElem
    . simp
      omega
    . intro i hi _
      simp only [List.length_take, List.length_drop, length_fill] at hi
      have hheader : PageLayout.headerSize ≤ field.offset + i := by omega
      simp [fill, hheader]
  rw [MetaField.get, PageLayout.field, hbytes, MetaField.pattern]

theorem get_put (other : MetaField) {n : Nat} (h : n < 256 ^ other.width) (field : MetaField)
    : field.get (image.put other n).bytes = if other = field then n else field.get image.bytes := by
  split
  next heq =>
    subst heq
    rw [put, MetaField.get, field_write_self, Nat.mod_eq_of_lt h]
  next hne => exact field_write_other image _ _ n other.fits (MetaField.disjoint (Ne.symm hne))

theorem get_setCrc (crc : UInt32) (field : MetaField)
    : field.get (image.setCrc crc).bytes = field.get image.bytes :=
  field_write_other image _ _ _ (by decide) (.inr (Nat.le_trans (by decide) field.behind_header))

theorem get_apply (write : PageWrite) (field : MetaField)
    : field.get (write.apply image).bytes =
      (write.leaves? field).getD (field.get image.bytes) := by
  cases write with
  | counter value =>
    refine (get_put .counter value.toNat_lt field).trans ?_
    cases field <;> rfl
  | size value =>
    refine (get_put .size value.toNat_lt field).trans ?_
    cases field <;> rfl
  | state value =>
    refine (get_put .state value.toNat_lt field).trans ?_
    cases field <;> rfl
  | crc value =>
    refine (get_setCrc value field).trans ?_
    cases field <;> rfl
  | fill seed =>
    refine (get_fill seed field).trans ?_
    cases field <;> rfl

theorem get_written {started : PageImage}
    (h : image.start type partition index = (started, none)) (writes : List PageWrite)
    (field : MetaField)
    : field.get (started.written writes).bytes = PageWrite.lastLeft field writes := by
  induction writes using List.reverseRecOn with
  | nil => exact get_start h field
  | append_singleton writes write ih =>
    rw [written_concat, get_apply, ih, PageWrite.lastLeft_concat]

/-!
What a reader finds.
-/

structure StandsIn (image : PageImage) (pageSize index : UInt32) (bytes : Bytes) : Prop where
  even : pageSize.toNat ∣ bytes.length
  countable : bytes.length / pageSize.toNat < UInt32.size
  inside : index.toNat < bytes.length / pageSize.toNat
  image_eq : PartitionFile.image pageSize.toNat index.toNat bytes = image.bytes

/--
A page that was written reads back as it was written, and every file of its partition that has it at
its position gives it out.
-/
structure Survives (image : PageImage) (pageSize : UInt32) (type : UInt16)
    (partition index : UInt32) (writes : List PageWrite) : Prop where
  length_eq : image.bytes.length = pageSize.toNat
  nonempty : (image.page index).isEmpty = false
  crc_eq : (image.page index).storedCrc = (image.page index).computedCrc
  type_eq : (image.page index).type = type
  version_eq : (image.page index).version = PageLayout.version
  index_eq : (image.page index).id.index = index
  partition_eq : (image.page index).id.partition = partition
  meta_eq : (image.page index).partitionMeta =
    if type = PageLayout.metaType then .ok (PageWrite.lastMeta writes)
    else .error (.notMeta index type)
  checked : ∀ file : PartitionFile, file.partition = partition →
    file.checkPage (image.page index) = .ok (image.page index)
  accepted : ∀ (tree : FileTree) (path : Text) (id : FileId), tree.file path = .ok id →
    image.StandsIn pageSize index (tree.bytesOf id) →
    ∃ file, PartitionFile.find tree path pageSize partition = .ok (file, id) ∧
      file.readPage (tree.bytesOf id) index = .ok (image.page index)

theorem StandsIn.shaped {pageSize : UInt32} {bytes : Bytes}
    (h : image.StandsIn pageSize index bytes) (minimum : PageLayout.minimumSize ≤ pageSize.toNat)
    (maximum : partition ≤ PageLayout.maximumPartition)
    : PartitionFile.Shaped pageSize partition bytes.length where
  minimum := minimum
  maximum := maximum
  positive :=
    have hcount := Nat.div_pos_iff.mp (Nat.zero_lt_of_lt h.inside)
    Nat.lt_of_lt_of_le hcount.1 hcount.2
  even := h.even
  countable := h.countable

theorem StandsIn.readPage {pageSize : UInt32} {bytes : Bytes}
    (h : image.StandsIn pageSize index bytes) (minimum : PageLayout.minimumSize ≤ pageSize.toNat)
    (maximum : partition ≤ PageLayout.maximumPartition)
    (placed : PartitionFile.Placed partition index.toNat image.bytes) (path : Text)
    : (PartitionFile.opened path pageSize partition bytes).readPage bytes index =
      .ok (image.page index) := by
  have shaped := h.shaped minimum maximum
  have hinside : ¬(PartitionFile.opened path pageSize partition bytes).pageCount ≤ index := by
    rw [UInt32.le_iff_toNat_le, shaped.pageCount_opened path]
    exact Nat.not_le_of_lt h.inside
  have hlength : pageSize.toNat ≤ (bytes.drop (index.toNat * pageSize.toNat)).length := by
    have hend : (index.toNat + 1) * pageSize.toNat ≤ bytes.length :=
      Nat.mul_le_of_le_div _ _ _ h.inside
    rw [List.length_drop]
    rw [Nat.succ_mul] at hend
    omega
  unfold PartitionFile.readPage
  rw [if_neg hinside]
  have himage : (bytes.drop (index.toNat * pageSize.toNat)).take pageSize.toNat = image.bytes :=
    h.image_eq
  exact (PartitionFile.pageAt_eq_ok_iff minimum hlength index (image.page index)).mpr
    ⟨himage ▸ placed, rfl, himage.symm⟩

theorem standsIn_append {pageSize : UInt32} {front : Bytes}
    (hlength : image.bytes.length = pageSize.toNat) (positive : 0 < pageSize.toNat)
    (hfront : front.length = index.toNat * pageSize.toNat) (hindex : index.toNat + 1 < UInt32.size)
    : image.StandsIn pageSize index (front ++ image.bytes) := by
  have hbytes : (front ++ image.bytes).length = (index.toNat + 1) * pageSize.toNat := by
    rw [List.length_append, hfront, hlength, Nat.succ_mul]
  have hcount : (front ++ image.bytes).length / pageSize.toNat = index.toNat + 1 := by
    rw [hbytes, Nat.mul_div_cancel _ positive]
  refine ⟨hbytes ▸ Nat.dvd_mul_left _ _, by rwa [hcount], by omega, ?_⟩
  rw [PartitionFile.image, List.drop_left' hfront, List.take_of_length_le (Nat.le_of_eq hlength)]

section Read

variable {started : PageImage} {writes : List PageWrite}

theorem get_sealed (h : image.start type partition index = (started, none)) (field : MetaField)
    : field.get (started.written writes).sealed.bytes = PageWrite.lastLeft field writes :=
  (field_sealed _ (.inr (Nat.le_trans (by decide) field.behind_header))).trans
    (get_written h writes field)

theorem version_page (h : image.start type partition index = (started, none))
    : ((started.written writes).sealed.page index).version = PageLayout.version := by
  have hfield : PageLayout.field PageLayout.versionOffset 2 (started.written writes).sealed.bytes =
      PageLayout.version.toNat := by
    rw [kept_version.field_sealed, kept_version.field_written, version_start h]
  simp [page, Page.version, hfield]

theorem isEmpty_of_version {page : Page} (h : page.version = PageLayout.version)
    : page.isEmpty = false := by
  by_contra hempty
  -- a page of zeros would be of version zero
  have hzero : ∀ b ∈ page.bytes, b = 0 := by simpa [Page.isEmpty] using hempty
  have hfield : PageLayout.field PageLayout.versionOffset 2 page.bytes = 0 :=
    PartitionFile.ofLittleEndian_eq_zero
      fun b hb => hzero b (List.mem_of_mem_drop (List.mem_of_mem_take hb))
  rw [Page.version, hfield] at h
  exact absurd h (by decide)

theorem partitionMeta_page (h : image.start type partition index = (started, none))
    (htype : ((started.written writes).sealed.page index).type = type)
    : ((started.written writes).sealed.page index).partitionMeta =
      if type = PageLayout.metaType then .ok (PageWrite.lastMeta writes)
      else .error (.notMeta index type) := by
  simp only [Page.partitionMeta, Page.isMeta, htype, decide_eq_true_eq]
  split
  next =>
    simp only [PageWrite.lastMeta, ← get_sealed h]
    rfl
  next => rfl

theorem survives_of_start {pageSize : UInt32}
    (minimum : PageLayout.minimumSize ≤ pageSize.toNat)
    (hlength : image.bytes.length = pageSize.toNat)
    (h : image.start type partition index = (started, none))
    : (started.written writes).sealed.Survives pageSize type partition index writes := by
  have headed := (headed_start hlength h).written_to writes
  have placed := headed.placed
  obtain ⟨id, hid, hfield⟩ := headed.id_eq
  have maximum := (PageId.ofParts_ok hid).1
  have hpage : ((started.written writes).sealed.page index).id = id := by
    simp [page, Page.id, kept_id.field_sealed, hfield]
  have htype : ((started.written writes).sealed.page index).type = type := by
    simp [page, Page.type, kept_type.field_sealed, headed.type_eq]
  exact {
    length_eq := (length_sealed _).trans headed.length_eq
    nonempty := isEmpty_of_version (version_page h)
    crc_eq := storedCrc_sealed _
    type_eq := htype
    version_eq := version_page h
    index_eq := hpage ▸ PageId.index_of_ofParts hid
    partition_eq := hpage ▸ PageId.partition_of_ofParts hid
    meta_eq := partitionMeta_page h htype
    checked := by
      rintro file rfl
      exact (PartitionFile.checkPage_eq_ok_iff ..).mpr ⟨placed, rfl⟩
    accepted := by
      intro tree path id hfile stands
      have shaped := stands.shaped minimum maximum
      refine ⟨_, ?_, stands.readPage minimum maximum placed path⟩
      rw [PartitionFile.find_eq hfile, PartitionFile.ofSize_of_shaped shaped]
      rfl
  }

end Read

theorem blank_ok {size : UInt32} (minimum : PageLayout.minimumSize ≤ size.toNat)
    : ∃ image, blank size = .ok image :=
  ⟨_, dif_pos minimum⟩

theorem start_ok (image : PageImage) (maximum : partition ≤ PageLayout.maximumPartition)
    : ∃ started, image.start type partition index = (started, none) := by
  simp [start, PageId.ofParts, UInt32.not_lt.mpr maximum]

theorem start_error (large : PageLayout.maximumPartition < partition)
    : (image.start type partition index).2 = some (.partitionTooLarge partition) := by
  simp [start, PageId.ofParts, large]

/--
A page survives writing and reading, whatever is written into it and in whatever order. A partition
that no page id can hold is refused.
-/
theorem survives_writing (pageSize : UInt32)
    (minimum : PageLayout.minimumSize ≤ pageSize.toNat) (type : UInt16) (partition index : UInt32)
    (writes : List PageWrite)
    : (∃ image, blank pageSize = .ok image ∧ image.bytes.length = pageSize.toNat) ∧
      ∀ image : PageImage, image.bytes.length = pageSize.toNat →
        (partition ≤ PageLayout.maximumPartition →
          ∃ started, image.start type partition index = (started, none) ∧
            (started.written writes).sealed.Survives pageSize type partition index writes) ∧
        (PageLayout.maximumPartition < partition →
          ∃ error, (image.start type partition index).2 = some error ∧
            error.fault = .structureViolation
              (.join ["Partition id ", .decimal partition.toNat, " does not fit a page id"])) := by
  obtain ⟨image, hblank⟩ := blank_ok minimum
  refine ⟨⟨image, hblank, length_blank hblank⟩, ?_⟩
  intro image hlength
  constructor
  . intro maximum
    obtain ⟨started, hstart⟩ := start_ok image maximum
    exact ⟨started, hstart, survives_of_start minimum hlength hstart⟩
  . intro large
    exact ⟨_, start_error large, rfl⟩

theorem survives_writing_overlapping
    : let writes := [PageWrite.counter 5, .crc 9, .fill 3, .state 2]
      ∃ image, blank 64 = .ok image ∧
      ∃ started, image.start PageLayout.metaType 65535 1 = (started, none) ∧
      let page := (started.written writes).sealed
      page.Survives 64 PageLayout.metaType 65535 1 writes ∧
        page.StandsIn 64 1 (List.replicate 64 0 ++ page.bytes) ∧
        (page.page 1).partitionMeta = .ok ⟨0xDCD5CEC7C0B9B2AB, 0x140D06FFF8F1EAE3, 2⟩ := by
  intro writes
  obtain ⟨⟨image, hblank, hlength⟩, h⟩ :=
    survives_writing 64 (by decide) PageLayout.metaType 65535 1 writes
  obtain ⟨started, hstart, survives⟩ := (h image hlength).1 (by decide)
  have stands : (started.written writes).sealed.StandsIn 64 1
      (List.replicate 64 0 ++ (started.written writes).sealed.bytes) :=
    standsIn_append survives.length_eq (by decide) (by decide) (by decide)
  exact ⟨image, hblank, started, hstart, survives, stands, survives.meta_eq.trans (by decide)⟩

end PageImage

end SnapshotAudit
