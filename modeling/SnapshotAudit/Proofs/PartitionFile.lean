import SnapshotAudit.PartitionFile

/-!
This module contains when a partition file is sound, in terms of its bytes: every page was never
written or is what its checksum and its id say. It also contains which shapes such a file may have.
-/

namespace SnapshotAudit

namespace PartitionFile

def image (pageSize index : Nat) (bytes : Bytes) : Bytes :=
  (bytes.drop (index * pageSize)).take pageSize

/--
A page may stand at a position of a partition when it was never written, or carries its own checksum
and an id of this partition and position.
-/
def Placed (partition : UInt32) (index : Nat) (image : Bytes) : Prop :=
  (∀ b ∈ image, b = 0) ∨
    ((PageLayout.field PageLayout.crcOffset 4 image).toUInt32 = PageLayout.crc image ∧
      (PageId.mk (PageLayout.field PageLayout.idOffset 8 image).toUInt64).index.toNat = index ∧
      (PageId.mk (PageLayout.field PageLayout.idOffset 8 image).toUInt64).partition = partition)

def Counts (image : Bytes) (counter : UInt64) : Prop :=
  (PageLayout.field PageLayout.typeOffset 2 image).toUInt16 = PageLayout.metaType ∧
    (PageLayout.field PageLayout.counterOffset 8 image).toUInt64 = counter

structure Sound (pageSize partition : UInt32) (bytes : Bytes) : Prop where
  minimum : PageLayout.minimumSize ≤ pageSize.toNat
  maximum : partition ≤ PageLayout.maximumPartition
  positive : 0 < bytes.length
  even : pageSize.toNat ∣ bytes.length
  countable : bytes.length / pageSize.toNat < UInt32.size
  pages : ∀ index < bytes.length / pageSize.toNat,
    Placed partition index (image pageSize.toNat index bytes)

theorem image_drop (pageSize index : Nat) (bytes : Bytes)
    : image pageSize index (bytes.drop pageSize) = image pageSize (index + 1) bytes := by
  unfold image
  rw [List.drop_drop, Nat.succ_mul, Nat.add_comm]

/-!
One page.
-/

theorem checkPage_eq_ok_iff (file : PartitionFile) (page checked : Page)
    : file.checkPage page = .ok checked ↔
      Placed file.partition page.index.toNat page.bytes ∧ checked = page := by
  have hplaced : Placed file.partition page.index.toNat page.bytes ↔ page.isEmpty = true ∨
      page.storedCrc = page.computedCrc ∧ page.id.index = page.index ∧
        page.id.partition = file.partition := by
    unfold Placed
    rw [UInt32.toNat_inj]
    simp [Page.isEmpty, Page.storedCrc, Page.computedCrc, Page.id]
  rw [hplaced]
  unfold checkPage
  split
  next h => simp [h, eq_comm]
  next h =>
    split
    next hcrc => simp [h, hcrc]
    next hcrc =>
      split
      next hid =>
        simp only [Bool.or_eq_true, decide_eq_true_eq] at hid
        simp only [h, false_or, reduceCtorEq, false_iff, not_and]
        grind
      next hid =>
        simp only [Bool.or_eq_true, decide_eq_true_eq, not_or, Decidable.not_not] at hid hcrc
        simp only [Except.ok.injEq, h, hcrc, hid, and_self, or_true, true_and]
        exact eq_comm

theorem pageAt_eq_ok_iff {file : PartitionFile}
    (hsize : PageLayout.minimumSize ≤ file.pageSize.toNat) {bytes : Bytes}
    (hlength : file.pageSize.toNat ≤ bytes.length) (index : UInt32) (page : Page)
    : file.pageAt index bytes = .ok page ↔
      Placed file.partition index.toNat (bytes.take file.pageSize.toNat) ∧
        page.index = index ∧ page.bytes = bytes.take file.pageSize.toNat := by
  have htake : (bytes.take file.pageSize.toNat).length = file.pageSize.toNat := by
    rw [List.length_take]
    omega
  have hlong : PageLayout.minimumSize ≤ (bytes.take file.pageSize.toNat).length := by
    rw [htake]
    exact hsize
  have hpage : page.index = index ∧ page.bytes = bytes.take file.pageSize.toNat ↔
      page = ⟨index, bytes.take file.pageSize.toNat, hlong⟩ := by
    cases page
    simp
  have hread : Page.ofBytes index (bytes.take file.pageSize.toNat) =
      .ok ⟨index, bytes.take file.pageSize.toNat, hlong⟩ := dif_pos hlong
  unfold pageAt
  rw [if_neg (not_not_intro htake), hread, hpage]
  dsimp only
  rw [checkPage_eq_ok_iff]

theorem exists_pageAt_iff {file : PartitionFile}
    (hsize : PageLayout.minimumSize ≤ file.pageSize.toNat) {bytes : Bytes}
    (hlength : file.pageSize.toNat ≤ bytes.length) (index : UInt32)
    : (∃ page, file.pageAt index bytes = .ok page) ↔
      Placed file.partition index.toNat (bytes.take file.pageSize.toNat) := by
  simp only [pageAt_eq_ok_iff hsize hlength]
  constructor
  . rintro ⟨_, hplaced, _⟩
    exact hplaced
  . intro hplaced
    have hlong : PageLayout.minimumSize ≤ (bytes.take file.pageSize.toNat).length := by
      rw [List.length_take]
      omega
    exact ⟨⟨index, bytes.take file.pageSize.toNat, hlong⟩, hplaced, rfl, rfl⟩

/-!
The pages that were written, and the counter of the first one.
-/

def writtenAt (pageSize : Nat) (bytes : Bytes) (index : Nat) : Bool :=
  !(image pageSize index bytes).all (· = 0)

theorem ofLittleEndian_eq_zero {bytes : Bytes} (h : ∀ b ∈ bytes, b = 0)
    : ofLittleEndian bytes = 0 := by
  induction bytes with
  | nil => rfl
  | cons b rest ih =>
    rw [List.forall_mem_cons] at h
    simp [ofLittleEndian, h.1, ih h.2]

theorem not_counts_of_zero {image : Bytes} (h : ∀ b ∈ image, b = 0) (counter : UInt64)
    : ¬Counts image counter := by
  have hfield : PageLayout.field PageLayout.typeOffset 2 image = 0 :=
    ofLittleEndian_eq_zero fun b hb => h b (List.mem_of_mem_drop (List.mem_of_mem_take hb))
  intro hcounts
  have htype := hcounts.1
  rw [hfield] at htype
  exact absurd htype (by decide)

theorem noteCounter_first {page : Page} (h : page.index = 0) (state counter : Option UInt64)
    : noteCounter state page = .ok counter ↔ ∃ c, counter = some c ∧ Counts page.bytes c := by
  have hmeta : page.isMeta = true ↔
      (PageLayout.field PageLayout.typeOffset 2 page.bytes).toUInt16 = PageLayout.metaType := by
    simp [Page.isMeta, Page.type]
  unfold noteCounter Page.partitionMeta Counts
  rw [if_pos h, ← hmeta]
  by_cases htype : page.isMeta = true
  . simp only [htype, if_true, Except.ok.injEq, true_and]
    constructor
    . rintro rfl
      exact ⟨_, rfl, rfl⟩
    . rintro ⟨c, rfl, rfl⟩
      rfl
  . simp [htype]

/-!
The whole file.
-/

theorem ofSize_eq_ok_iff (path : Text) (pageSize partition : UInt32) (size : Nat)
    (file : PartitionFile)
    : ofSize path pageSize partition size = .ok file ↔
      PageLayout.minimumSize ≤ pageSize.toNat ∧ partition ≤ PageLayout.maximumPartition ∧
        0 < size ∧ pageSize.toNat ∣ size ∧ size / pageSize.toNat < UInt32.size ∧
        file = ⟨path, pageSize, partition, (size / pageSize.toNat).toUInt32⟩ := by
  unfold ofSize checkParameters
  have hword : UInt32.size - 1 < size / pageSize.toNat ↔
      ¬size / pageSize.toNat < UInt32.size := by
    have : 0 < UInt32.size := by decide
    omega
  simp only [bind, Except.bind]
  split
  next error h =>
    split at h
    next hsize =>
      have : ¬PageLayout.minimumSize ≤ pageSize.toNat := Nat.not_le_of_lt hsize
      simp [this]
    next =>
      split at h
      next hpartition =>
        have : ¬partition ≤ PageLayout.maximumPartition := UInt32.not_le.mpr hpartition
        simp [this]
      next => cases h
  next h =>
    split at h
    next => cases h
    next hsize =>
      split at h
      next => cases h
      next hpartition =>
        have hsize := Nat.le_of_not_lt hsize
        have hpartition := UInt32.not_lt.mp hpartition
        simp only [hsize, hpartition, true_and, hword, Nat.dvd_iff_mod_eq_zero,
          Nat.pos_iff_ne_zero]
        split
        next hempty => simp [hempty]
        next hempty =>
          split
          next heven => simp [heven]
          next heven =>
            split
            next hcount => simp [hcount]
            next hcount =>
              have heven := Decidable.not_not.mp heven
              have hcount := Decidable.not_not.mp hcount
              simp only [Except.ok.injEq, ne_eq, hempty, not_false_eq_true, heven, hcount,
                true_and]
              exact eq_comm

/-!
What kinds of damage there are in a file that can be read.
-/

def IsDamage (kind : FailureKind) : Prop :=
  kind = .corruptPage ∨ kind = .structureViolation

theorem kind_of_ofSize {path : Text} {pageSize partition : UInt32} {size : Nat}
    {cause : PartitionError} (h : ofSize path pageSize partition size = .error cause)
    : cause.kind = .structureViolation := by
  unfold ofSize checkParameters at h
  simp only [bind, Except.bind] at h
  split at h
  next hparameters =>
    split at hparameters
    next =>
      cases hparameters
      cases h
      rfl
    next =>
      split at hparameters
      next =>
        cases hparameters
        cases h
        rfl
      next => cases hparameters
  next =>
    split at h
    next =>
      cases h
      rfl
    next =>
      split at h
      next =>
        cases h
        rfl
      next =>
        split at h
        next =>
          cases h
          rfl
        next => cases h

end PartitionFile

end SnapshotAudit
