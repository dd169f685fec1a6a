import SnapshotAudit.Proofs.PartitionFile

/-!
This module contains what a scan of a partition file shows to its visitor and how it ends: whatever
the visitor does, it is shown the pages that were written, in their order, up to the first page that
is bad, and that page decides how the scan ends.
-/

namespace SnapshotAudit

namespace PartitionFile

/-!
One page.
-/

def Corrupt (image : Bytes) : Prop :=
  (PageLayout.field PageLayout.crcOffset 4 image).toUInt32 ≠ PageLayout.crc image

instance (image : Bytes) : Decidable (Corrupt image) :=
  inferInstanceAs (Decidable (_ ≠ _))

structure Blames (image : Bytes) (error : PartitionError) : Prop where
  corrupt : Corrupt image → error.kind = .corruptPage
  misplaced : ¬Corrupt image → error.kind = .structureViolation

theorem Blames.kind_eq_iff {image : Bytes} {error : PartitionError} (h : Blames image error)
    : error.kind = .corruptPage ↔ Corrupt image := by
  by_cases hcorrupt : Corrupt image
  . simp [h.corrupt hcorrupt, hcorrupt]
  . simp [h.misplaced hcorrupt, hcorrupt, FailureKind.structureViolation, FailureKind.corruptPage]

theorem Blames.isDamage {image : Bytes} {error : PartitionError} (h : Blames image error)
    : IsDamage error.kind := by
  by_cases hcorrupt : Corrupt image
  . exact .inl (h.corrupt hcorrupt)
  . exact .inr (h.misplaced hcorrupt)

theorem checkPage_of_corrupt {file : PartitionFile} {page : Page} (written : page.isEmpty = false)
    (h : Corrupt page.bytes)
    : file.checkPage page =
      .error (.corrupt file.path page.index page.id page.storedCrc page.computedCrc) := by
  have hcrc : page.storedCrc ≠ page.computedCrc := h
  simp [checkPage, written, hcrc]

def complaint (path : Text) (partition index : UInt32) (image : Bytes) : PartitionError :=
  let id := PageId.mk (PageLayout.field PageLayout.idOffset 8 image).toUInt64
  if Corrupt image then
    .corrupt path index id (PageLayout.field PageLayout.crcOffset 4 image).toUInt32
      (PageLayout.crc image)
  else .misplaced path id partition index

theorem blames_complaint (path : Text) (partition index : UInt32) (image : Bytes)
    : Blames image (complaint path partition index image) := by
  unfold complaint
  constructor
  . intro hcorrupt
    simp only [if_pos hcorrupt]
    rfl
  . intro hright
    simp only [if_neg hright]
    rfl

theorem eq_complaint_of_checkPage {file : PartitionFile} {page : Page} {error : PartitionError}
    (h : file.checkPage page = .error error)
    : error = complaint file.path file.partition page.index page.bytes := by
  unfold checkPage at h
  split at h
  next => cases h
  next written =>
    split at h
    next hcrc =>
      have hcorrupt : Corrupt page.bytes := hcrc
      cases h
      simp only [complaint, if_pos hcorrupt]
      rfl
    next hcrc =>
      have hright : ¬Corrupt page.bytes := hcrc
      split at h
      next =>
        cases h
        simp only [complaint, if_neg hright]
        rfl
      next => cases h

theorem pageAt_eq {file : PartitionFile} {bytes : Bytes}
    (hlong : PageLayout.minimumSize ≤ (bytes.take file.pageSize.toNat).length)
    (hlength : file.pageSize.toNat ≤ bytes.length) (index : UInt32)
    : file.pageAt index bytes =
      file.checkPage ⟨index, bytes.take file.pageSize.toNat, hlong⟩ := by
  have htake : (bytes.take file.pageSize.toNat).length = file.pageSize.toNat :=
    List.length_take_of_le hlength
  simp [pageAt, Page.ofBytes, htake, htake ▸ hlong]

/-!
The pages of a file, without a visitor.
-/

/--
The pages that were written up to the first bad one, from a position on, and the error that the bad
one makes.
-/
def pagesFrom (file : PartitionFile) (left index : Nat) (bytes : Bytes)
    : List Page × Option PartitionError :=
  match left with
  | 0 => ([], none)
  | left + 1 =>
    match file.pageAt index.toUInt32 bytes with
    | .error error => ([], some error)
    | .ok page =>
      let later := file.pagesFrom left (index + 1) (bytes.drop file.pageSize.toNat)
      (if page.isEmpty then later.1 else page :: later.1, later.2)

def tell {σ : Type} (visit : σ → Page → Except PartitionError σ) (state : σ) (pages : List Page)
    : σ × Option PartitionError :=
  match pages with
  | [] => (state, none)
  | page :: rest =>
    match visit state page with
    | .error error => (state, some error)
    | .ok state => tell visit state rest

/--
A visitor is shown the pages up to the first bad one. An error of its own comes first.
-/
theorem scanFrom_eq {σ : Type} {file : PartitionFile}
    (visit : σ → Page → Except PartitionError σ) (left index visited : Nat) (bytes : Bytes)
    (state : σ)
    : file.scanFrom visit left index visited bytes state =
      match tell visit state (file.pagesFrom left index bytes).1 with
      | (state, some error) => (state, .error error)
      | (state, none) =>
        (state, match (file.pagesFrom left index bytes).2 with
          | some error => .error error
          | none => .ok (visited + (file.pagesFrom left index bytes).1.length)) := by
  induction left generalizing index visited bytes state with
  | zero => rfl
  | succ left ih =>
    simp only [scanFrom, pagesFrom]
    cases file.pageAt index.toUInt32 bytes with
    | error error => rfl
    | ok page =>
      dsimp only
      cases page.isEmpty with
      | true =>
        rw [if_pos rfl, if_pos rfl]
        exact ih ..
      | false =>
        simp only [Bool.false_eq_true, if_false, tell]
        cases visit state page with
        | error error => rfl
        | ok state =>
          dsimp only
          rw [ih]
          simp only [List.length_cons, Nat.add_assoc, Nat.add_comm 1]

def written (pageSize : Nat) (bytes : Bytes) (count : Nat) : List (Nat × Bytes) :=
  ((List.range count).filter (writtenAt pageSize bytes)).map fun k => (k, image pageSize k bytes)

theorem written_succ (pageSize : Nat) (bytes : Bytes) (count : Nat)
    : written pageSize bytes (count + 1) =
      (if writtenAt pageSize bytes 0 then [(0, image pageSize 0 bytes)] else []) ++
        (written pageSize (bytes.drop pageSize) count).map fun e => (e.1 + 1, e.2) := by
  have hshift : writtenAt pageSize bytes ∘ Nat.succ = writtenAt pageSize (bytes.drop pageSize) := by
    funext k
    simp [writtenAt, image_drop]
  unfold written
  rw [List.range_succ_eq_map, List.filter_cons, List.filter_map, hshift]
  split
  next => simp [image_drop]
  next => simp [image_drop]

structure EndsAt (file : PartitionFile) (left index : Nat) (bytes : Bytes) (stop : Nat)
    (error : Option PartitionError) : Prop where
  placed : ∀ k < stop, Placed file.partition (index + k) (image file.pageSize.toNat k bytes)
  all : error = none → stop = left
  bad : ∀ found, error = some found → stop < left ∧
    ¬Placed file.partition (index + stop) (image file.pageSize.toNat stop bytes) ∧
    found = complaint file.path file.partition (index + stop).toUInt32
      (image file.pageSize.toNat stop bytes)

theorem pagesFrom_spec {file : PartitionFile}
    (hsize : PageLayout.minimumSize ≤ file.pageSize.toNat) {left index : Nat} {bytes : Bytes}
    (hleft : index + left ≤ UInt32.size) (hlength : left * file.pageSize.toNat ≤ bytes.length)
    : ∃ stop, EndsAt file left index bytes stop (file.pagesFrom left index bytes).2 ∧
      (file.pagesFrom left index bytes).1.map (fun page => (page.index.toNat, page.bytes)) =
        (written file.pageSize.toNat bytes stop).map fun e => (index + e.1, e.2) := by
  -- on the number of pages that are left; what is behind a page is read as a file of its own
  induction left generalizing index bytes with
  | zero => exact ⟨0, ⟨by simp, by simp, by simp [pagesFrom]⟩, by simp [pagesFrom, written]⟩
  | succ left ih =>
    have hpage : file.pageSize.toNat ≤ bytes.length := by
      rw [Nat.succ_mul] at hlength
      omega
    have hword : index.toUInt32.toNat = index := UInt32.toNat_ofNat_of_lt' (by omega)
    have hzero : image file.pageSize.toNat 0 bytes = bytes.take file.pageSize.toNat := by
      simp [image]
    have hlong : PageLayout.minimumSize ≤ (bytes.take file.pageSize.toNat).length := by
      rw [List.length_take_of_le hpage]
      exact hsize
    have hfirst := exists_pageAt_iff hsize hpage index.toUInt32
    rw [hword, ← hzero] at hfirst
    unfold pagesFrom
    cases hat : file.pageAt index.toUInt32 bytes with
    | error error =>
      refine ⟨0, ⟨by simp, by simp, ?_⟩, by simp [written]⟩
      rintro found ⟨⟩
      refine ⟨by omega, ?_, ?_⟩
      . rw [Nat.add_zero, ← hfirst, hat]
        simp
      . rw [pageAt_eq hlong hpage] at hat
        rw [hzero]
        exact eq_complaint_of_checkPage hat
    | ok page =>
      obtain ⟨_, hindex, hbytes⟩ := (pageAt_eq_ok_iff hsize hpage _ _).mp hat
      have hlater : left * file.pageSize.toNat ≤ (bytes.drop file.pageSize.toNat).length := by
        rw [List.length_drop, Nat.le_sub_iff_add_le hpage]
        rwa [Nat.succ_mul] at hlength
      have hnext : index + 1 + left ≤ UInt32.size := by omega
      obtain ⟨stop, ends, hpages⟩ := ih hnext hlater
      have hmove (k : Nat) : index + 1 + k = index + (k + 1) := by omega
      simp only [hmove] at hpages
      refine ⟨stop + 1, ⟨?_, ?_, ?_⟩, ?_⟩
      . rw [Nat.forall_lt_succ_left]
        exact ⟨hfirst.mp ⟨page, hat⟩, by simpa only [image_drop, hmove] using ends.placed⟩
      . intro hnone
        rw [ends.all hnone]
      . intro found hfound
        obtain ⟨hlt, hbad, hsays⟩ := ends.bad found hfound
        rw [image_drop, hmove] at hbad hsays
        exact ⟨by omega, hbad, hsays⟩
      . have hempty : writtenAt file.pageSize.toNat bytes 0 = !page.isEmpty := by
          simp [writtenAt, hzero, Page.isEmpty, hbytes]
        rw [written_succ, hempty, List.map_append, List.map_map]
        dsimp only
        cases page.isEmpty with
        | true => exact hpages
        | false => simp [hpages, hindex, hword, hbytes, hzero, Function.comp_def]

/-!
The whole file.
-/

structure Shaped (pageSize partition : UInt32) (size : Nat) : Prop where
  minimum : PageLayout.minimumSize ≤ pageSize.toNat
  maximum : partition ≤ PageLayout.maximumPartition
  positive : 0 < size
  even : pageSize.toNat ∣ size
  countable : size / pageSize.toNat < UInt32.size

theorem ofSize_of_shaped {pageSize partition : UInt32} {size : Nat}
    (h : Shaped pageSize partition size) (path : Text)
    : ofSize path pageSize partition size =
      .ok ⟨path, pageSize, partition, (size / pageSize.toNat).toUInt32⟩ :=
  (ofSize_eq_ok_iff ..).mpr ⟨h.minimum, h.maximum, h.positive, h.even, h.countable, rfl⟩

theorem ofSize_of_not_shaped {pageSize partition : UInt32} {size : Nat}
    (h : ¬Shaped pageSize partition size) (path : Text)
    : ∃ error, ofSize path pageSize partition size = .error error ∧
      error.kind = .structureViolation := by
  cases hfile : ofSize path pageSize partition size with
  | ok file =>
    obtain ⟨hminimum, hmaximum, hpositive, heven, hcountable, _⟩ :=
      (ofSize_eq_ok_iff ..).mp hfile
    exact absurd ⟨hminimum, hmaximum, hpositive, heven, hcountable⟩ h
  | error error => exact ⟨error, rfl, kind_of_ofSize hfile⟩

theorem find_eq {tree : FileTree} {path : Text} {id : FileId} (h : tree.file path = .ok id)
    (pageSize partition : UInt32)
    : find tree path pageSize partition =
      (ofSize path pageSize partition (tree.bytesOf id).length).map fun file => (file, id) := by
  unfold find
  rw [h]
  cases hparameters : checkParameters path pageSize partition with
  | error error => simp [ofSize, hparameters, bind, Except.bind, Except.map]
  | ok _ =>
    simp only [bind, Except.bind]
    cases ofSize path pageSize partition (tree.bytesOf id).length <;> rfl

/--
Whatever a visitor does, a scan shows it the pages that were written among the first ones, each of
them once and in their order, until it makes an error of its own. If it makes none the scan ends as
said.
-/
def Visits (file : PartitionFile) (bytes : Bytes) (stop : Nat)
    (ending : Except PartitionError Nat) : Prop :=
  ∃ pages : List Page,
    pages.map (fun page => (page.index.toNat, page.bytes)) =
      written file.pageSize.toNat bytes stop ∧
    ∀ (σ : Type) (visit : σ → Page → Except PartitionError σ) (state : σ),
      file.scan bytes visit state =
        match tell visit state pages with
        | (state, some error) => (state, .error error)
        | (state, none) => (state, ending)

structure FirstBad (pageSize : Nat) (partition : UInt32) (bytes : Bytes) (count index : Nat)
    : Prop where
  inside : index < count
  earlier : ∀ k < index, Placed partition k (image pageSize k bytes)
  bad : ¬Placed partition index (image pageSize index bytes)

theorem exists_firstBad {pageSize : Nat} {partition : UInt32} {bytes : Bytes} {count : Nat}
    (h : ¬∀ k < count, Placed partition k (image pageSize k bytes))
    : ∃ index, FirstBad pageSize partition bytes count index := by
  induction count with
  | zero => simp at h
  | succ count ih =>
    by_cases hearlier : ∀ k < count, Placed partition k (image pageSize k bytes)
    . refine ⟨count, Nat.lt_succ_self count, hearlier, ?_⟩
      intro hplaced
      apply h
      intro k hk
      cases Nat.lt_succ_iff_lt_or_eq.mp hk with
      | inl hlt => exact hearlier k hlt
      | inr heq => exact heq ▸ hplaced
    . obtain ⟨index, first⟩ := ih hearlier
      exact ⟨index, Nat.lt_succ_of_lt first.inside, first.earlier, first.bad⟩

section Scan

variable {file : PartitionFile} {bytes : Bytes}
variable (hsize : PageLayout.minimumSize ≤ file.pageSize.toNat)
variable (hlength : file.pageCount.toNat * file.pageSize.toNat ≤ bytes.length)

include hsize hlength

theorem exists_ending
    : ∃ stop error, EndsAt file file.pageCount.toNat 0 bytes stop error ∧
      Visits file bytes stop (match error with
        | some error => .error error
        | none => .ok (written file.pageSize.toNat bytes stop).length) := by
  have hword : 0 + file.pageCount.toNat ≤ UInt32.size := by
    have := file.pageCount.toNat_lt
    simp only [UInt32.size]
    omega
  obtain ⟨stop, ends, hpages⟩ := pagesFrom_spec hsize hword hlength
  simp only [Nat.zero_add, Prod.eta, List.map_id_fun', id_eq] at hpages
  refine ⟨stop, _, ends, _, hpages, ?_⟩
  intro σ visit state
  rw [scan, scanFrom_eq, ← hpages, List.length_map, Nat.zero_add]

theorem visits_of_placed
    (h : ∀ k < file.pageCount.toNat, Placed file.partition k (image file.pageSize.toNat k bytes))
    : Visits file bytes file.pageCount.toNat
        (.ok (written file.pageSize.toNat bytes file.pageCount.toNat).length) := by
  obtain ⟨stop, error, ends, hvisits⟩ := exists_ending hsize hlength
  cases error with
  | some found =>
    obtain ⟨hlt, hbad, _⟩ := ends.bad found rfl
    rw [Nat.zero_add] at hbad
    exact absurd (h stop hlt) hbad
  | none => rwa [ends.all rfl] at hvisits

theorem visits_of_firstBad {index : Nat}
    (first : FirstBad file.pageSize.toNat file.partition bytes file.pageCount.toNat index)
    : Visits file bytes index (.error (complaint file.path file.partition index.toUInt32
        (image file.pageSize.toNat index bytes))) := by
  obtain ⟨stop, error, ends, hvisits⟩ := exists_ending hsize hlength
  have hplaced := ends.placed
  simp only [Nat.zero_add] at hplaced
  cases error with
  | none =>
    obtain rfl := ends.all rfl
    exact absurd (hplaced index first.inside) first.bad
  | some found =>
    obtain ⟨_, hbad, rfl⟩ := ends.bad found rfl
    rw [Nat.zero_add] at hbad hvisits
    obtain rfl : stop = index := by
      apply Nat.le_antisymm
      . exact Nat.le_of_not_lt fun hlt => first.bad (hplaced index hlt)
      . exact Nat.le_of_not_lt fun hlt => hbad (first.earlier stop hlt)
    exact hvisits

end Scan

/-!
A file that was opened.
-/

def pagesIn (pageSize : UInt32) (bytes : Bytes) : Nat :=
  bytes.length / pageSize.toNat

section Open

variable {path : Text} {pageSize partition : UInt32} {bytes : Bytes}

theorem Sound.shaped (h : Sound pageSize partition bytes)
    : Shaped pageSize partition bytes.length :=
  ⟨h.minimum, h.maximum, h.positive, h.even, h.countable⟩

theorem Shaped.sound (h : Shaped pageSize partition bytes.length)
    (placed : ∀ k < pagesIn pageSize bytes, Placed partition k (image pageSize.toNat k bytes))
    : Sound pageSize partition bytes :=
  ⟨h.minimum, h.maximum, h.positive, h.even, h.countable, placed⟩

theorem Shaped.pagesIn_pos (h : Shaped pageSize partition bytes.length)
    : 0 < pagesIn pageSize bytes :=
  Nat.div_pos (Nat.le_of_dvd h.positive h.even) (Nat.lt_of_lt_of_le (by decide) h.minimum)

def opened (path : Text) (pageSize partition : UInt32) (bytes : Bytes) : PartitionFile :=
  ⟨path, pageSize, partition, (pagesIn pageSize bytes).toUInt32⟩

theorem ofSize_eq_ok {file : PartitionFile}
    (h : ofSize path pageSize partition bytes.length = .ok file)
    : Shaped pageSize partition bytes.length ∧ file = opened path pageSize partition bytes := by
  obtain ⟨minimum, maximum, positive, even, countable, heq⟩ := (ofSize_eq_ok_iff ..).mp h
  exact ⟨⟨minimum, maximum, positive, even, countable⟩, heq⟩

theorem Shaped.pageCount_opened (h : Shaped pageSize partition bytes.length) (path : Text)
    : (opened path pageSize partition bytes).pageCount.toNat = pagesIn pageSize bytes :=
  UInt32.toNat_ofNat_of_lt' h.countable

theorem Shaped.length_opened (h : Shaped pageSize partition bytes.length) (path : Text)
    : (opened path pageSize partition bytes).pageCount.toNat *
        (opened path pageSize partition bytes).pageSize.toNat ≤ bytes.length := by
  rw [h.pageCount_opened path]
  exact Nat.le_of_eq (Nat.div_mul_cancel h.even)

theorem Sound.visits (h : Sound pageSize partition bytes) (path : Text)
    : Visits (opened path pageSize partition bytes) bytes (pagesIn pageSize bytes)
      (.ok (written pageSize.toNat bytes (pagesIn pageSize bytes)).length) := by
  have hcount := h.shaped.pageCount_opened path
  have hplaced : ∀ k < (opened path pageSize partition bytes).pageCount.toNat,
      Placed partition k (image pageSize.toNat k bytes) := by
    rw [hcount]
    exact h.pages
  have hvisits := visits_of_placed h.minimum (h.shaped.length_opened path) hplaced
  rwa [hcount] at hvisits

theorem Shaped.visits (h : Shaped pageSize partition bytes.length) (path : Text) {index : Nat}
    (first : FirstBad pageSize.toNat partition bytes (pagesIn pageSize bytes) index)
    : Visits (opened path pageSize partition bytes) bytes index
      (.error (complaint path partition index.toUInt32 (image pageSize.toNat index bytes))) := by
  rw [← h.pageCount_opened path] at first
  exact visits_of_firstBad h.minimum (h.length_opened path) first

end Open

theorem tell_index (pages : List Page) (seen : List UInt32)
    : tell (fun seen page => .ok (page.index :: seen)) seen pages =
      ((pages.map Page.index).reverse ++ seen, none) := by
  induction pages generalizing seen with
  | nil => rfl
  | cons page rest ih => simp [tell, ih]

theorem visitAll_of_visits {file : PartitionFile} {bytes : Bytes} {stop : Nat}
    {ending : Except PartitionError Nat} (h : Visits file bytes stop ending)
    : (file.visitAll bytes).2 = ending := by
  obtain ⟨pages, _, hscan⟩ := h
  rw [visitAll, hscan, tell_index]

end PartitionFile

end SnapshotAudit
