import Mathlib.Data.List.Basic
import SnapshotAudit.FileTree.Edit
import SnapshotAudit.Page.Image
import SnapshotAudit.Proofs.PartitionFile.Scans

/-!
This module contains what the audit of a partition file comes to, for all bytes that the file may
have: when it passes, which counter and which number of pages it finds then, and of what kind the
error is that it ends with otherwise.
-/

namespace SnapshotAudit

namespace PartitionFile

/-!
The audit of a file asks for a meta page as soon as it is shown the first page, before it comes to
any other one.
-/

def IsMeta (image : Bytes) : Prop :=
  (PageLayout.field PageLayout.typeOffset 2 image).toUInt16 = PageLayout.metaType

theorem tell_noteCounter_later {pages : List Page} (h : ∀ page ∈ pages, page.index ≠ 0)
    (counter : Option UInt64) : tell noteCounter counter pages = (counter, none) := by
  induction pages with
  | nil => rfl
  | cons page rest ih =>
    rw [List.forall_mem_cons] at h
    simp [tell, noteCounter, h.1, ih h.2]

section First

variable {pageSize stop : Nat} {bytes : Bytes} {pages : List Page}
variable (h : pages.map (fun page => (page.index.toNat, page.bytes)) = written pageSize bytes stop)

include h

theorem index_ne_zero_of_written (hnone : stop = 0 ∨ writtenAt pageSize bytes 0 = false)
    : ∀ page ∈ pages, page.index ≠ 0 := by
  intro page hpage hzero
  have hmem : (page.index.toNat, page.bytes) ∈ written pageSize bytes stop :=
    h ▸ List.mem_map_of_mem (f := fun page : Page => (page.index.toNat, page.bytes)) hpage
  simp only [written, hzero, List.mem_map, List.mem_filter, List.mem_range, Prod.mk.injEq] at hmem
  obtain ⟨k, ⟨hk, hwritten⟩, hindex, _⟩ := hmem
  obtain rfl : k = 0 := hindex
  cases hnone with
  | inl hstop => omega
  | inr hunwritten => simp [hunwritten] at hwritten

theorem exists_first_of_written (hstop : 0 < stop) (hwritten : writtenAt pageSize bytes 0 = true)
    : ∃ page rest, pages = page :: rest ∧ page.index = 0 ∧ page.bytes = image pageSize 0 bytes ∧
      ∀ later ∈ rest, later.index ≠ 0 := by
  obtain ⟨count, rfl⟩ := Nat.exists_eq_add_one_of_ne_zero (Nat.ne_of_gt hstop)
  rw [written_succ, if_pos hwritten, List.singleton_append] at h
  obtain ⟨page, rest, rfl, hpage, hrest⟩ := List.map_eq_cons_iff.mp h
  obtain ⟨hindex, hbytes⟩ := Prod.mk.inj hpage
  refine ⟨page, rest, rfl, UInt32.toNat_inj.mp hindex, hbytes, ?_⟩
  intro later hlater hzero
  have hmem := List.mem_map_of_mem (f := fun page : Page => (page.index.toNat, page.bytes)) hlater
  rw [hrest, hzero] at hmem
  obtain ⟨e, _, he⟩ := List.mem_map.mp hmem
  exact absurd (congrArg Prod.fst he) (by simp)

end First

section Audit

variable {file : PartitionFile} {bytes : Bytes} {stop : Nat} {ending : Except PartitionError Nat}
variable (hvisits : Visits file bytes stop ending)

include hvisits

theorem audit_of_unwritten (hnone : stop = 0 ∨ writtenAt file.pageSize.toNat bytes 0 = false)
    : file.audit bytes = ending.bind fun _ => .error (.noMetaPage file.path) := by
  obtain ⟨pages, hpages, hscan⟩ := hvisits
  have htell := tell_noteCounter_later (index_ne_zero_of_written hpages hnone) none
  unfold audit
  rw [hscan, htell]
  cases ending <;> rfl

theorem audit_of_meta {counter : UInt64} (hstop : 0 < stop)
    (hwritten : writtenAt file.pageSize.toNat bytes 0 = true)
    (hcounts : Counts (image file.pageSize.toNat 0 bytes) counter)
    : file.audit bytes = ending.map fun pages => (counter, pages) := by
  obtain ⟨pages, hpages, hscan⟩ := hvisits
  obtain ⟨page, rest, rfl, hindex, hbytes, hlater⟩ :=
    exists_first_of_written hpages hstop hwritten
  have hfirst : noteCounter none page = .ok (some counter) :=
    (noteCounter_first hindex none (some counter)).mpr ⟨counter, rfl, hbytes ▸ hcounts⟩
  unfold audit
  rw [hscan, tell, hfirst]
  dsimp only
  rw [tell_noteCounter_later hlater]
  cases ending <;> rfl

theorem audit_of_other (hstop : 0 < stop)
    (hwritten : writtenAt file.pageSize.toNat bytes 0 = true)
    (hother : ¬IsMeta (image file.pageSize.toNat 0 bytes))
    : file.audit bytes = .error (.page (.notMeta 0 (PageLayout.field PageLayout.typeOffset 2
        (image file.pageSize.toNat 0 bytes)).toUInt16)) := by
  obtain ⟨pages, hpages, hscan⟩ := hvisits
  obtain ⟨page, rest, rfl, hindex, hbytes, _⟩ := exists_first_of_written hpages hstop hwritten
  have hmeta : page.isMeta = false := by
    rw [← hbytes] at hother
    exact decide_eq_false hother
  have hfirst : noteCounter none page = .error (.page (.notMeta page.index page.type)) := by
    simp [noteCounter, hindex, Page.partitionMeta, hmeta]
  unfold audit
  rw [hscan, tell, hfirst, hindex, ← hbytes]
  rfl

end Audit

section Exact

variable {pageSize partition : UInt32} {bytes : Bytes}

theorem FirstBad.unique {pageSize : Nat} {count i j : Nat}
    (hi : FirstBad pageSize partition bytes count i)
    (hj : FirstBad pageSize partition bytes count j) : i = j := by
  apply Nat.le_antisymm
  . exact Nat.le_of_not_lt fun hlt => hj.bad (hi.earlier j hlt)
  . exact Nat.le_of_not_lt fun hlt => hi.bad (hj.earlier i hlt)

theorem counts_of_isMeta {image : Bytes} (h : IsMeta image)
    : Counts image (PageLayout.field PageLayout.counterOffset 8 image).toUInt64 :=
  ⟨h, rfl⟩

theorem Sound.audit (h : Sound pageSize partition bytes) (path : Text)
    : (∃ counter, Counts (image pageSize.toNat 0 bytes) counter ∧
        (opened path pageSize partition bytes).audit bytes =
          .ok (counter, (written pageSize.toNat bytes (pagesIn pageSize bytes)).length)) ∨
      ¬IsMeta (image pageSize.toNat 0 bytes) ∧
        ∃ error, (opened path pageSize partition bytes).audit bytes = .error error ∧
          error.kind = .structureViolation := by
  have hvisits := h.visits path
  cases hwritten : writtenAt pageSize.toNat bytes 0 with
  | false =>
    have hzero : ∀ b ∈ image pageSize.toNat 0 bytes, b = 0 := by
      simpa [writtenAt] using hwritten
    refine .inr ⟨?_, .noMetaPage path, audit_of_unwritten hvisits (.inr hwritten), rfl⟩
    intro hmeta
    exact not_counts_of_zero hzero _ (counts_of_isMeta hmeta)
  | true =>
    by_cases hmeta : IsMeta (image pageSize.toNat 0 bytes)
    . exact .inl ⟨_, counts_of_isMeta hmeta,
        audit_of_meta hvisits h.shaped.pagesIn_pos hwritten (counts_of_isMeta hmeta)⟩
    . exact .inr ⟨hmeta, _, audit_of_other hvisits h.shaped.pagesIn_pos hwritten hmeta, rfl⟩

theorem Shaped.audit (h : Shaped pageSize partition bytes.length) {index : Nat}
    (first : FirstBad pageSize.toNat partition bytes (pagesIn pageSize bytes) index) (path : Text)
    : ∃ error, (opened path pageSize partition bytes).audit bytes = .error error ∧
      IsDamage error.kind ∧
      (error.kind = .corruptPage ↔ Corrupt (image pageSize.toNat index bytes) ∧
        (0 < index → writtenAt pageSize.toNat bytes 0 = true →
          IsMeta (image pageSize.toNat 0 bytes))) := by
  have hvisits := h.visits path first
  have blames := blames_complaint path partition index.toUInt32 (image pageSize.toNat index bytes)
  by_cases hfirst : 0 < index ∧ writtenAt pageSize.toNat bytes 0 = true
  . by_cases hmeta : IsMeta (image pageSize.toNat 0 bytes)
    . refine ⟨_, ?_, blames.isDamage, ?_⟩
      . exact audit_of_meta hvisits hfirst.1 hfirst.2 (counts_of_isMeta hmeta)
      . simp [blames.kind_eq_iff, hmeta]
    . -- the first page is complained about before the bad one is reached
      refine ⟨_, audit_of_other hvisits hfirst.1 hfirst.2 hmeta, .inr rfl, ?_⟩
      simp [PartitionError.kind, hfirst, hmeta, FailureKind.structureViolation,
        FailureKind.corruptPage]
  . have hnone : index = 0 ∨ writtenAt pageSize.toNat bytes 0 = false := by
      simpa using Decidable.not_and_iff_not_or_not.mp hfirst
    refine ⟨_, audit_of_unwritten hvisits hnone, blames.isDamage, ?_⟩
    rw [blames.kind_eq_iff]
    constructor
    . exact fun hcorrupt => ⟨hcorrupt, fun hpos hwritten => absurd ⟨hpos, hwritten⟩ hfirst⟩
    . exact fun hboth => hboth.1

end Exact

section Opened

variable {path : Text} {pageSize partition : UInt32} {bytes : Bytes}

theorem exists_firstBad_of_not_sound (shaped : Shaped pageSize partition bytes.length)
    (unsound : ¬Sound pageSize partition bytes)
    : ∃ index, FirstBad pageSize.toNat partition bytes (pagesIn pageSize bytes) index :=
  exists_firstBad fun placed => unsound (shaped.sound placed)

theorem audited_written_iff (path : Text) (pageSize partition : UInt32) (bytes : Bytes)
    (counter : UInt64) (pages : Nat)
    : (∃ file, ofSize path pageSize partition bytes.length = .ok file ∧
        file.audit bytes = .ok (counter, pages)) ↔
      Sound pageSize partition bytes ∧ Counts (image pageSize.toNat 0 bytes) counter ∧
        pages = (written pageSize.toNat bytes (pagesIn pageSize bytes)).length := by
  constructor
  . rintro ⟨file, hfile, haudit⟩
    obtain ⟨shaped, rfl⟩ := ofSize_eq_ok hfile
    by_cases sound : Sound pageSize partition bytes
    . rcases sound.audit path with ⟨found, hcounts, hok⟩ | ⟨_, error, herror, _⟩
      . obtain ⟨rfl, rfl⟩ := Prod.mk.inj (Except.ok.inj (haudit.symm.trans hok))
        exact ⟨sound, hcounts, rfl⟩
      . cases haudit.symm.trans herror
    . obtain ⟨index, first⟩ := exists_firstBad_of_not_sound shaped sound
      obtain ⟨error, herror, _⟩ := shaped.audit first path
      cases haudit.symm.trans herror
  . rintro ⟨sound, hcounts, rfl⟩
    refine ⟨_, ofSize_of_shaped sound.shaped path, ?_⟩
    rcases sound.audit path with ⟨found, hfound, hok⟩ | ⟨hother, _⟩
    . obtain rfl : found = counter := hfound.2.symm.trans hcounts.2
      exact hok
    . exact absurd hcounts.1 hother

/--
The update counter of a partition file is found exactly when nothing in the file is damaged and its
first page is a meta page with this counter.
-/
theorem audited_iff (path : Text) (pageSize partition : UInt32) (bytes : Bytes) (counter : UInt64)
    : (∃ file pages, ofSize path pageSize partition bytes.length = .ok file ∧
        file.audit bytes = .ok (counter, pages)) ↔
      Sound pageSize partition bytes ∧ Counts (image pageSize.toNat 0 bytes) counter := by
  rw [exists_comm]
  simp only [audited_written_iff, exists_and_left, exists_eq, and_true]

theorem visited_of_audit {file : PartitionFile}
    (hsize : PageLayout.minimumSize ≤ file.pageSize.toNat) {bytes : Bytes}
    (hlength : file.pageCount.toNat * file.pageSize.toNat ≤ bytes.length) {counter : UInt64}
    {pages : Nat} (h : file.audit bytes = .ok (counter, pages))
    : pages = (List.range file.pageCount.toNat).countP
        (writtenAt file.pageSize.toNat bytes) := by
  obtain ⟨stop, error, ends, seen, _, hscan⟩ := exists_ending hsize hlength
  unfold audit at h
  rw [hscan] at h
  cases htell : tell noteCounter none seen with
  | mk state complaint =>
    rw [htell] at h
    cases complaint with
    | some complaint => cases h
    | none =>
      cases error with
      | some error => cases h
      | none =>
        cases state with
        | none => cases h
        | some state =>
          cases h
          rw [ends.all rfl, written, List.length_map, List.countP_eq_length_filter]

end Opened

/-!
What opening, scanning and auditing come to.
-/

/--
The bad page that an audit blames for corruption is the first one, and no other page is complained
about before it.
-/
def BlamedForCorruption (pageSize partition : UInt32) (bytes : Bytes) : Prop :=
  ∃ index, FirstBad pageSize.toNat partition bytes (pagesIn pageSize bytes) index ∧
    Corrupt (image pageSize.toNat index bytes) ∧
    (0 < index → writtenAt pageSize.toNat bytes 0 = true → IsMeta (image pageSize.toNat 0 bytes))

/--
What a file comes to when it is opened, scanned and audited, in terms of its bytes. It is accepted
exactly when it is well formed; a wrong shape is found before any page is looked at, and of the
pages the first bad one decides, unless a first page that is no meta page stands before it.
-/
structure ReadExactly (opened : Except PartitionError PartitionFile) (pageSize partition : UInt32)
    (bytes : Bytes) : Prop where
  accepted : (∃ file pages, opened = .ok file ∧ (file.visitAll bytes).2 = .ok pages) ↔
    Sound pageSize partition bytes
  refused : ¬Shaped pageSize partition bytes.length →
    ∃ error, opened = .error error ∧ error.kind = .structureViolation
  complete : Sound pageSize partition bytes → ∃ file, opened = .ok file ∧
    Visits file bytes (pagesIn pageSize bytes)
      (.ok (written pageSize.toNat bytes (pagesIn pageSize bytes)).length)
  interrupted : Shaped pageSize partition bytes.length →
    ∀ index, FirstBad pageSize.toNat partition bytes (pagesIn pageSize bytes) index →
      ∃ file error, opened = .ok file ∧ Visits file bytes index (.error error) ∧
        Blames (image pageSize.toNat index bytes) error
  audited : ∀ counter pages,
    (∃ file, opened = .ok file ∧ file.audit bytes = .ok (counter, pages)) ↔
      Sound pageSize partition bytes ∧ Counts (image pageSize.toNat 0 bytes) counter ∧
        pages = (written pageSize.toNat bytes (pagesIn pageSize bytes)).length
  blamed : ∀ file error, opened = .ok file → file.audit bytes = .error error →
    IsDamage error.kind ∧
      (error.kind = .corruptPage ↔ BlamedForCorruption pageSize partition bytes)

section Exact

variable {path : Text} {pageSize partition : UInt32} {bytes : Bytes}

theorem visited_iff (path : Text) (pageSize partition : UInt32) (bytes : Bytes)
    : (∃ file pages, ofSize path pageSize partition bytes.length = .ok file ∧
        (file.visitAll bytes).2 = .ok pages) ↔ Sound pageSize partition bytes := by
  constructor
  . rintro ⟨file, pages, hfile, hvisited⟩
    obtain ⟨shaped, rfl⟩ := ofSize_eq_ok hfile
    apply Classical.byContradiction
    intro unsound
    obtain ⟨index, first⟩ := exists_firstBad_of_not_sound shaped unsound
    rw [visitAll_of_visits (shaped.visits path first)] at hvisited
    cases hvisited
  . intro sound
    exact ⟨_, _, ofSize_of_shaped sound.shaped path, visitAll_of_visits (sound.visits path)⟩

theorem blamed_of_audit {file : PartitionFile} {error : PartitionError}
    (hfile : ofSize path pageSize partition bytes.length = .ok file)
    (haudit : file.audit bytes = .error error)
    : IsDamage error.kind ∧
      (error.kind = .corruptPage ↔ BlamedForCorruption pageSize partition bytes) := by
  obtain ⟨shaped, rfl⟩ := ofSize_eq_ok hfile
  by_cases sound : Sound pageSize partition bytes
  . rcases sound.audit path with ⟨_, _, hok⟩ | ⟨_, found, herror, hkind⟩
    . cases haudit.symm.trans hok
    . obtain rfl := Except.error.inj (haudit.symm.trans herror)
      refine ⟨.inr hkind, ?_⟩
      rw [hkind]
      constructor
      . intro h
        cases h
      . rintro ⟨index, first, _⟩
        exact absurd (sound.pages index first.inside) first.bad
  . obtain ⟨index, first⟩ := exists_firstBad_of_not_sound shaped sound
    obtain ⟨found, herror, hdamage, hkind⟩ := shaped.audit first path
    obtain rfl := Except.error.inj (haudit.symm.trans herror)
    refine ⟨hdamage, hkind.trans ?_⟩
    constructor
    . exact fun hcorrupt => ⟨index, first, hcorrupt⟩
    . rintro ⟨other, hother, hcorrupt⟩
      exact hother.unique first ▸ hcorrupt

theorem readExactly_ofSize (path : Text) (pageSize partition : UInt32) (bytes : Bytes)
    : ReadExactly (ofSize path pageSize partition bytes.length) pageSize partition bytes where
  accepted := visited_iff path pageSize partition bytes
  refused h := ofSize_of_not_shaped h path
  complete sound := ⟨_, ofSize_of_shaped sound.shaped path, sound.visits path⟩
  interrupted := by
    intro shaped index first
    exact ⟨_, _, ofSize_of_shaped shaped path, shaped.visits path first,
      blames_complaint path partition index.toUInt32 _⟩
  audited := audited_written_iff path pageSize partition bytes
  blamed _ _ := blamed_of_audit

end Exact

/--
Whatever the bytes of a file are, it is read exactly.
-/
theorem readExactly_of_file {tree : FileTree} {path : Text} {id : FileId}
    (h : tree.file path = .ok id) (pageSize partition : UInt32)
    : ReadExactly ((find tree path pageSize partition).map Prod.fst) pageSize partition
        (tree.bytesOf id) := by
  have hfind : (find tree path pageSize partition).map Prod.fst =
      ofSize path pageSize partition (tree.bytesOf id).length := by
    rw [find_eq h]
    cases ofSize path pageSize partition (tree.bytesOf id).length <;> rfl
  rw [hfind]
  exact readExactly_ofSize path pageSize partition (tree.bytesOf id)

theorem readExactly_of_file_two_pages
    : let first := (PageImage.mk (List.replicate 64 0) (by decide)).start PageLayout.metaType 0 0
      let bytes := (first.1.setCounter 7).sealed.bytes ++ List.replicate 64 0
      let tree := (FileTree.empty.write "part-0.bin" bytes).toOption.getD .empty
      tree.file "part-0.bin" = .ok 0 ∧
        ReadExactly ((find tree "part-0.bin" 64 0).map Prod.fst) 64 0 (tree.bytesOf 0) ∧
        ((find tree "part-0.bin" 64 0).bind fun found => found.1.audit (tree.bytesOf found.2)) =
          .ok (7, 1) := by
  intro first bytes tree
  have hfile : tree.file "part-0.bin" = .ok 0 := by decide +kernel
  exact ⟨hfile, readExactly_of_file hfile 64 0, by decide +kernel⟩

end PartitionFile

end SnapshotAudit
