import SnapshotAudit.Layout.PartitionFile
import SnapshotAudit.Proofs.Endian
import SnapshotAudit.Proofs.PartitionFile.Audits

/-!
This module contains what is read from a page that was laid out: each field holds what was written
into it last, and a sealed page carries its own checksum. The pages of a partition may therefore
stand where they were put.
-/

namespace SnapshotAudit

namespace PageLayout

theorem field_congr {offset width : Nat} {bytes other : Bytes}
    (h : ∀ i, offset ≤ i → i < offset + width → bytes[i]? = other[i]?)
    : field offset width bytes = field offset width other := by
  have htake : (bytes.drop offset).take width = (other.drop offset).take width := by
    apply List.ext_getElem?
    intro i
    by_cases hi : i < width
    . simp only [List.getElem?_take_of_lt hi, List.getElem?_drop]
      exact h (offset + i) (by omega) (by omega)
    . rw [List.getElem?_take_eq_none (by omega), List.getElem?_take_eq_none (by omega)]
  rw [field, htake, field]

end PageLayout

namespace PageImage

variable (image : PageImage) (offset width n : Nat)
variable (fits : offset + width ≤ PageLayout.minimumSize)

theorem getElem?_write_outside {i : Nat} (h : i < offset ∨ offset + width ≤ i)
    : (image.write offset width n fits).bytes[i]? = image.bytes[i]? := by
  have := image.long
  have htake : (image.bytes.take offset).length = offset := by
    rw [List.length_take]
    omega
  simp only [write, List.append_assoc]
  cases h with
  | inl hbefore =>
    rw [List.getElem?_append_left (by omega), List.getElem?_take_of_lt hbefore]
  | inr hbehind =>
    rw [List.getElem?_append_right (by omega), htake,
      List.getElem?_append_right (by rw [length_littleEndian]; omega), length_littleEndian,
      List.getElem?_drop]
    congr 1
    omega

theorem field_write_self
    : PageLayout.field offset width (image.write offset width n fits).bytes = n % 256 ^ width := by
  have := image.long
  have htake : (image.bytes.take offset).length = offset := by
    rw [List.length_take]
    omega
  have hfield : ((image.write offset width n fits).bytes.drop offset).take width =
      littleEndian width n := by
    simp only [write, List.append_assoc]
    rw [List.drop_left' htake, List.take_left' (length_littleEndian width n)]
  rw [PageLayout.field, hfield, ofLittleEndian_littleEndian]

theorem field_write_other {start size : Nat}
    (h : start + size ≤ offset ∨ offset + width ≤ start)
    : PageLayout.field start size (image.write offset width n fits).bytes =
      PageLayout.field start size image.bytes := by
  apply PageLayout.field_congr
  intro i hstart hend
  exact getElem?_write_outside image offset width n fits (by omega)

theorem field_fill (seed : UInt8) {start size : Nat} (h : start + size ≤ PageLayout.headerSize)
    : PageLayout.field start size (image.fill seed).bytes =
      PageLayout.field start size image.bytes := by
  apply PageLayout.field_congr
  intro i _ hend
  have hheader : ¬PageLayout.headerSize ≤ i := by omega
  simp [fill, hheader]

@[simp]
theorem length_fill (seed : UInt8) : (image.fill seed).bytes.length = image.bytes.length := by
  simp [fill]

@[simp]
theorem length_clear : image.clear.bytes.length = image.bytes.length := by
  simp [clear]

/-!
Sealing.
-/

theorem crc_setCrc (crc : UInt32)
    : PageLayout.crc (image.setCrc crc).bytes = PageLayout.crc image.bytes := by
  -- nothing is written but the bytes that the checksum leaves out
  have hfront : (image.setCrc crc).bytes.take PageLayout.crcOffset =
      image.bytes.take PageLayout.crcOffset := by
    apply List.ext_getElem?
    intro i
    by_cases hi : i < PageLayout.crcOffset
    . simp only [List.getElem?_take_of_lt hi]
      exact getElem?_write_outside _ _ _ _ _ (.inl hi)
    . rw [List.getElem?_take_eq_none (by omega), List.getElem?_take_eq_none (by omega)]
  have hback : (image.setCrc crc).bytes.drop PageLayout.idOffset =
      image.bytes.drop PageLayout.idOffset := by
    apply List.ext_getElem?
    intro i
    simp only [List.getElem?_drop]
    exact getElem?_write_outside _ _ _ _ _ (.inr (Nat.le_add_right _ _))
  rw [PageLayout.crc, hfront, hback, PageLayout.crc]

@[simp]
theorem length_sealed : image.sealed.bytes.length = image.bytes.length := by
  simp [sealed, setCrc]

theorem storedCrc_sealed
    : (PageLayout.field PageLayout.crcOffset 4 image.sealed.bytes).toUInt32 =
      PageLayout.crc image.sealed.bytes := by
  have hfield : PageLayout.field PageLayout.crcOffset 4 image.sealed.bytes =
      (PageLayout.crc image.bytes).toNat := by
    rw [sealed, setCrc, field_write_self]
    exact Nat.mod_eq_of_lt (PageLayout.crc image.bytes).toNat_lt
  rw [hfield, sealed, crc_setCrc]
  simp

theorem field_sealed {start size : Nat}
    (h : start + size ≤ PageLayout.crcOffset ∨ PageLayout.idOffset ≤ start)
    : PageLayout.field start size image.sealed.bytes =
      PageLayout.field start size image.bytes :=
  field_write_other image PageLayout.crcOffset 4 _ (by decide) h

end PageImage

/-!
Page ids.
-/

namespace PageId

variable {flags : UInt8} {partition index : UInt32} {id : PageId}

theorem ofParts_ok (h : ofParts flags partition index = .ok id)
    : partition ≤ PageLayout.maximumPartition ∧
      id.bits = flags.toUInt64 <<< 56 ||| partition.toUInt64 <<< 32 ||| index.toUInt64 := by
  unfold ofParts at h
  split at h
  next => cases h
  next hsmall =>
    cases h
    exact ⟨UInt32.not_lt.mp hsmall, rfl⟩

theorem index_of_ofParts (h : ofParts flags partition index = .ok id) : id.index = index := by
  obtain ⟨_, hbits⟩ := ofParts_ok h
  apply UInt32.toBitVec_inj.mp
  apply BitVec.eq_of_getLsbD_eq
  intro i hi
  rw [PageId.index, hbits]
  simp

theorem partition_of_ofParts (h : ofParts flags partition index = .ok id)
    : id.partition = partition := by
  obtain ⟨hsmall, hbits⟩ := ofParts_ok h
  have hword : partition.toNat < 2 ^ 16 := Nat.lt_succ_of_le (UInt32.le_iff_toNat_le.mp hsmall)
  have hmask : UInt32.toNat 65535 = 2 ^ 16 - 1 := rfl
  apply UInt32.toNat_inj.mp
  apply Nat.eq_of_testBit_eq
  intro i
  rw [PageId.partition, hbits, UInt32.toNat_and, hmask]
  simp only [UInt64.toNat_toUInt32, UInt64.toNat_shiftRight, UInt64.toNat_or,
    UInt64.toNat_shiftLeft, UInt8.toNat_toUInt64, UInt32.toNat_toUInt64, UInt64.reduceToNat,
    Nat.reduceMod, Nat.testBit_and, Nat.testBit_two_pow_sub_one, Nat.testBit_mod_two_pow,
    Nat.testBit_shiftRight, Nat.testBit_or, Nat.testBit_shiftLeft]
  by_cases hi : i < 16
  . have hindex : index.toNat.testBit (32 + i) = false := by
      apply Nat.testBit_lt_two_pow
      exact Nat.lt_of_lt_of_le index.toNat_lt (Nat.pow_le_pow_right (by omega) (by omega))
    have hlow : i < 32 := by omega
    have hmiddle : 32 + i < 64 := by omega
    have hhigh : ¬56 ≤ 32 + i := by omega
    simp [hi, hindex, hlow, hmiddle, hhigh]
  . have hpartition : partition.toNat.testBit i = false := by
      apply Nat.testBit_lt_two_pow
      exact Nat.lt_of_lt_of_le hword (Nat.pow_le_pow_right (by omega) (by omega))
    simp [hi, hpartition]

end PageId

/-!
The pages of a partition.
-/

namespace PageImage

structure Headed (image : PageImage) (length : Nat) (type : UInt16) (partition index : UInt32)
    : Prop where
  length_eq : image.bytes.length = length
  type_eq : PageLayout.field PageLayout.typeOffset 2 image.bytes = type.toNat
  id_eq : ∃ id, PageId.ofParts PageLayout.dataFlags partition index = .ok id ∧
    PageLayout.field PageLayout.idOffset 8 image.bytes = id.bits.toNat

variable {image started : PageImage} {length : Nat} {type : UInt16} {partition index : UInt32}

theorem headed_start (hlength : image.bytes.length = length)
    (h : image.start type partition index = (started, none))
    : started.Headed length type partition index := by
  unfold start at h
  dsimp only at h
  split at h
  next => cases h
  next id hid =>
    cases h
    refine ⟨by simpa using hlength, ?_, id, hid, ?_⟩
    . rw [field_write_other _ _ _ _ _ (by decide), field_write_other _ _ _ _ _ (by decide),
        field_write_self]
      exact Nat.mod_eq_of_lt type.toNat_lt
    . rw [field_write_self]
      exact Nat.mod_eq_of_lt id.bits.toNat_lt

theorem Headed.write (h : image.Headed length type partition index) {offset width n : Nat}
    {fits : offset + width ≤ PageLayout.minimumSize} (behind : PageLayout.headerSize ≤ offset)
    : (image.write offset width n fits).Headed length type partition index := by
  have hbehind : 24 ≤ offset := behind
  refine ⟨(image.length_write _ _ _ _).trans h.length_eq, ?_, ?_⟩
  . rw [field_write_other _ _ _ _ _ (.inl (Nat.le_trans (by decide) hbehind))]
    exact h.type_eq
  . rw [field_write_other _ _ _ _ _ (.inl (Nat.le_trans (by decide) hbehind))]
    exact h.id_eq

theorem Headed.fill (h : image.Headed length type partition index) (seed : UInt8)
    : (image.fill seed).Headed length type partition index := by
  refine ⟨(image.length_fill seed).trans h.length_eq, ?_, ?_⟩
  . rw [field_fill _ _ (by decide)]
    exact h.type_eq
  . rw [field_fill _ _ (by decide)]
    exact h.id_eq

theorem Headed.placed (h : image.Headed length type partition index)
    : PartitionFile.Placed partition index.toNat image.sealed.bytes := by
  obtain ⟨id, hid, hfield⟩ := h.id_eq
  have hsealed : PageId.mk
      (PageLayout.field PageLayout.idOffset 8 image.sealed.bytes).toUInt64 = id := by
    rw [field_sealed _ (.inr (Nat.le_refl _)), hfield]
    simp
  refine .inr ⟨image.storedCrc_sealed, ?_, ?_⟩
  . rw [hsealed, PageId.index_of_ofParts hid]
  . rw [hsealed, PageId.partition_of_ofParts hid]

theorem Headed.written (h : image.Headed length type partition index) (htype : type ≠ 0)
    : ¬∀ b ∈ image.sealed.bytes, b = 0 := by
  intro hzero
  have hfield : PageLayout.field PageLayout.typeOffset 2 image.sealed.bytes = 0 :=
    PartitionFile.ofLittleEndian_eq_zero
      fun b hb => hzero b (List.mem_of_mem_drop (List.mem_of_mem_take hb))
  rw [field_sealed _ (.inl (by decide)), h.type_eq] at hfield
  exact htype (UInt16.toNat_inj.mp hfield)

theorem length_blank {size : UInt32} (h : blank size = .ok image)
    : image.bytes.length = size.toNat := by
  unfold blank at h
  split at h
  next =>
    cases h
    exact List.length_replicate
  next => cases h

end PageImage

namespace PageSpec

open PageImage

theorem apply_of {α : Type} {P : PageImage → Prop} {image : PageImage} {value : Option α}
    {set : PageImage → α → PageImage} (keep : P image) (change : ∀ v, P (set image v))
    : P (apply image value set) := by
  cases value with
  | none => exact keep
  | some v => exact change v

theorem image_ok {spec : PageSpec} {pageSize : UInt32} {image : PageImage}
    (h : spec.image pageSize = .ok image) (hcrc : spec.crc = none)
    : ∃ page : PageImage, image = page.sealed ∧
        page.Headed pageSize.toNat spec.type spec.partition spec.index ∧
        ∀ counter, spec.counter = some counter →
          PageLayout.field PageLayout.counterOffset 8 page.bytes = counter.toNat := by
  unfold PageSpec.image at h
  cases hblank : PageImage.blank pageSize with
  | error error =>
    rw [hblank] at h
    cases h
  | ok blank =>
    rw [hblank] at h
    simp only [bind, Except.bind, hcrc] at h
    split at h
    next => cases h
    next started hstart =>
      cases h
      let filled := apply started spec.fill PageImage.fill
      let counted := apply filled spec.counter PageImage.setCounter
      let sized := apply counted spec.size PageImage.setSize
      refine ⟨apply sized spec.state PageImage.setState, rfl, ?_, ?_⟩
      . let P (image : PageImage) :=
          image.Headed pageSize.toNat spec.type spec.partition spec.index
        have hstarted : P started := headed_start (length_blank hblank) hstart
        have hfilled : P filled := apply_of (P := P) hstarted hstarted.fill
        have hcounted : P counted := apply_of (P := P) hfilled fun _ => hfilled.write (by decide)
        have hsized : P sized := apply_of (P := P) hcounted fun _ => hcounted.write (by decide)
        exact apply_of (P := P) hsized fun _ => hsized.write (by decide)
      . intro counter hcounter
        let P (image : PageImage) :=
          PageLayout.field PageLayout.counterOffset 8 image.bytes = counter.toNat
        -- size and state stand behind the counter
        have hcounted : P counted := by
          simp only [P, counted, hcounter, apply, setCounter, field_write_self]
          exact Nat.mod_eq_of_lt counter.toNat_lt
        have hsized : P sized := apply_of (P := P) hcounted
          fun _ => (field_write_other _ _ _ _ _ (.inl (by decide))).trans hcounted
        exact apply_of (P := P) hsized
          fun _ => (field_write_other _ _ _ _ _ (.inl (by decide))).trans hsized

end PageSpec

namespace Layout

variable {partition pageSize : UInt32} {bytes : Bytes}

structure Laid (pageSize partition : UInt32) (index : Nat) (bytes : Bytes) : Prop where
  length_eq : bytes.length = pageSize.toNat
  placed : PartitionFile.Placed partition index bytes
  zero_iff : (∀ b ∈ bytes, b = 0) ↔ index = 2
  counts : index = 0 → PartitionFile.Counts bytes (firstCounter partition)

theorem laid_zero (h : PageSource.zero.bytes pageSize = .ok bytes)
    : Laid pageSize partition 2 bytes := by
  unfold PageSource.bytes at h
  cases hblank : PageImage.blank pageSize with
  | error error =>
    rw [hblank] at h
    cases h
  | ok blank =>
    have hlength := PageImage.length_blank hblank
    have hzero : ∀ b ∈ blank.bytes, b = 0 := by
      unfold PageImage.blank at hblank
      split at hblank
      next =>
        cases hblank
        exact fun b hb => List.eq_of_mem_replicate hb
      next => cases hblank
    rw [hblank] at h
    cases h
    exact ⟨hlength, .inl hzero, by simpa using hzero, by simp⟩

theorem laid_spec {spec : PageSpec} {index : Nat}
    (h : (PageSource.spec spec).bytes pageSize = .ok bytes) (hcrc : spec.crc = none)
    (hpartition : spec.partition = partition) (hindex : spec.index.toNat = index)
    (hwritten : index ≠ 2) (htype : spec.type ≠ 0)
    (hcounter : index = 0 → spec.type = PageLayout.metaType ∧
      spec.counter = some (firstCounter partition))
    : Laid pageSize partition index bytes := by
  simp only [PageSource.bytes] at h
  cases himage : spec.image pageSize with
  | error error =>
    rw [himage] at h
    cases h
  | ok image =>
    obtain ⟨page, rfl, headed, hcounted⟩ := PageSpec.image_ok himage hcrc
    rw [himage] at h
    cases h
    refine ⟨page.length_sealed.trans headed.length_eq, ?_, ?_, ?_⟩
    . rw [← hpartition, ← hindex]
      exact headed.placed
    . exact ⟨fun hzero => absurd hzero (headed.written htype), fun heq => absurd heq hwritten⟩
    . intro hfirst
      obtain ⟨hmeta, hcounter⟩ := hcounter hfirst
      refine ⟨?_, ?_⟩
      . rw [page.field_sealed (.inl (by decide)), headed.type_eq, hmeta]
        rfl
      . rw [page.field_sealed (.inr (by decide)), hcounted _ hcounter]
        simp

theorem laid_fixedPage {index : Nat} (hindex : index < pagesPerPartition)
    (h : (fixedPage partition index).bytes pageSize = .ok bytes)
    : Laid pageSize partition index bytes := by
  unfold fixedPage at h
  dsimp only at h
  have hword : index.toUInt32.toNat = index :=
    UInt32.toNat_ofNat_of_lt' (Nat.lt_of_lt_of_le hindex (by decide))
  split at h
  next =>
    exact laid_spec h rfl rfl rfl (by decide) (by simp [PageLayout.metaType])
      fun _ => ⟨rfl, rfl⟩
  next => exact laid_zero h
  next hzero htwo =>
    exact laid_spec h rfl rfl hword htwo (by simp [PageLayout.dataType]) fun heq => absurd heq hzero

/-!
The file that they make up.
-/

structure LaidFile (pageSize partition : UInt32) (bytes : Bytes) (pages : List Bytes) : Prop where
  flatten_eq : pages.flatten = bytes
  length_eq : pages.length = pagesPerPartition
  laid : ∀ index page, pages[index]? = some page → Laid pageSize partition index page

theorem image_flatten {size : Nat} {pages : List Bytes} (h : ∀ page ∈ pages, page.length = size)
    {index : Nat} {page : Bytes} (hpage : pages[index]? = some page)
    : PartitionFile.image size index pages.flatten = page := by
  induction pages generalizing index with
  | nil => cases hpage
  | cons first rest ih =>
    have hfirst : first.length = size := h first List.mem_cons_self
    cases index with
    | zero =>
      obtain rfl : first = page := by simpa using hpage
      simp [PartitionFile.image, ← hfirst]
    | succ index =>
      rw [List.flatten_cons, ← PartitionFile.image_drop, List.drop_left' hfirst]
      exact ih (fun page hmem => h page (List.mem_cons_of_mem _ hmem)) hpage

variable {pages : List Bytes}

theorem LaidFile.length_page (h : LaidFile pageSize partition bytes pages)
    : ∀ page ∈ pages, page.length = pageSize.toNat := by
  intro page hmem
  obtain ⟨index, hpage⟩ := List.mem_iff_getElem?.mp hmem
  exact (h.laid index page hpage).length_eq

theorem LaidFile.laid_image (h : LaidFile pageSize partition bytes pages) {index : Nat}
    (hindex : index < pagesPerPartition)
    : Laid pageSize partition index (PartitionFile.image pageSize.toNat index bytes) := by
  have hlength : index < pages.length := Nat.lt_of_lt_of_eq hindex h.length_eq.symm
  have hpage : pages[index]? = some pages[index] := List.getElem?_eq_getElem hlength
  rw [← h.flatten_eq, image_flatten h.length_page hpage]
  exact h.laid index _ hpage

theorem LaidFile.length_bytes (h : LaidFile pageSize partition bytes pages)
    : bytes.length = pagesPerPartition * pageSize.toNat := by
  have hlengths : pages.map List.length = List.replicate pages.length pageSize.toNat := by
    rw [List.eq_replicate_iff]
    refine ⟨List.length_map _, ?_⟩
    intro length hmem
    obtain ⟨page, hpage, rfl⟩ := List.mem_map.mp hmem
    exact h.length_page page hpage
  rw [← h.flatten_eq, List.length_flatten, hlengths, List.sum_replicate_nat, h.length_eq]

theorem LaidFile.audited (h : LaidFile pageSize partition bytes pages)
    (minimum : PageLayout.minimumSize ≤ pageSize.toNat)
    (maximum : partition ≤ PageLayout.maximumPartition) (path : Text)
    : ∃ file, PartitionFile.ofSize path pageSize partition bytes.length = .ok file ∧
        file.audit bytes = .ok (firstCounter partition, 3) := by
  have hpositive : 0 < pageSize.toNat := Nat.lt_of_lt_of_le (by decide) minimum
  have hcount : bytes.length / pageSize.toNat = pagesPerPartition := by
    rw [h.length_bytes, Nat.mul_div_cancel _ hpositive]
  have sound : PartitionFile.Sound pageSize partition bytes := by
    refine ⟨minimum, maximum, ?_, ?_, ?_, ?_⟩
    . rw [h.length_bytes]
      exact Nat.mul_pos (by decide) hpositive
    . rw [h.length_bytes]
      exact Nat.dvd_mul_left _ _
    . rw [hcount]
      decide
    . intro index hindex
      exact (h.laid_image (Nat.lt_of_lt_of_eq hindex hcount)).placed
  have hcounts := (h.laid_image (by decide)).counts rfl
  obtain ⟨file, visited, hfile, haudit⟩ :=
    (PartitionFile.audited_iff path pageSize partition bytes _).mpr ⟨sound, hcounts⟩
  refine ⟨file, hfile, ?_⟩
  obtain ⟨_, _, _, _, _, rfl⟩ := (PartitionFile.ofSize_eq_ok_iff ..).mp hfile
  have hwritten : ∀ index ∈ List.range pagesPerPartition,
      PartitionFile.writtenAt pageSize.toNat bytes index ↔ decide (index ≠ 2) := by
    intro index hindex
    rw [decide_eq_true_eq, ne_eq, ← (h.laid_image (List.mem_range.mp hindex)).zero_iff]
    simp [PartitionFile.writtenAt]
  have hpages : (bytes.length / pageSize.toNat).toUInt32.toNat = pagesPerPartition := by
    rw [hcount]
    decide
  have hvisited : visited = 3 := by
    have hsum := PartitionFile.visited_of_audit minimum
      (Nat.le_of_eq (by rw [hpages, h.length_bytes])) haudit
    dsimp only at hsum
    rw [hsum, hpages, List.countP_congr hwritten]
    rfl
  rw [haudit, hvisited]

end Layout

end SnapshotAudit
