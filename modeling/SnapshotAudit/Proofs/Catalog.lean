import SnapshotAudit.Catalog
import SnapshotAudit.Proofs.FileTree.Listings

/-!
This module contains what the search for the descriptor of a snapshot finds: the first file that
describes the snapshot, whatever files that describe nothing stand in front of it. Only a directory
in the place of a file ends the search before.
-/

namespace SnapshotAudit

/-!
Looking through a list.
-/

section First

variable {α β ε : Type}

def firstFound (look : α → Except ε (Option β)) (places : List α) : Except ε (Option β) :=
  match places with
  | [] => .ok none
  | place :: rest =>
    match look place with
    | .ok none => firstFound look rest
    | result => result

variable {look : α → Except ε (Option β)} {place : α} {rest places : List α}

theorem firstFound_cons_of_none (h : look place = .ok none)
    : firstFound look (place :: rest) = firstFound look rest := by
  rw [firstFound, h]

theorem firstFound_cons_of_ne (h : look place ≠ .ok none)
    : firstFound look (place :: rest) = look place := by
  rw [firstFound]
  split
  next hnone => exact absurd hnone h
  next => rfl

theorem firstFound_eq_none_iff
    : firstFound look places = .ok none ↔ ∀ place ∈ places, look place = .ok none := by
  induction places with
  | nil => simp [firstFound]
  | cons place rest ih =>
    rw [List.forall_mem_cons, ← ih]
    by_cases hnone : look place = .ok none
    . simp [firstFound_cons_of_none hnone, hnone]
    . simp [firstFound_cons_of_ne hnone, hnone]

theorem firstFound_eq_iff {result : Except ε (Option β)} (hresult : result ≠ .ok none)
    : firstFound look places = result ↔ ∃ front place back, places = front ++ place :: back ∧
        (∀ passed ∈ front, look passed = .ok none) ∧ look place = result := by
  induction places with
  | nil => simp [firstFound, Ne.symm hresult]
  | cons place rest ih =>
    by_cases hnone : look place = .ok none
    . rw [firstFound_cons_of_none hnone, ih]
      constructor
      . rintro ⟨front, found, back, rfl, hfront, hfound⟩
        exact ⟨place :: front, found, back, rfl, List.forall_mem_cons.mpr ⟨hnone, hfront⟩, hfound⟩
      . rintro ⟨front, found, back, hsplit, hfront, hfound⟩
        cases front with
        | nil =>
          cases hsplit
          exact absurd (hfound.symm.trans hnone) hresult
        | cons first front =>
          cases hsplit
          exact ⟨front, found, back, rfl, (List.forall_mem_cons.mp hfront).2, hfound⟩
    . rw [firstFound_cons_of_ne hnone]
      constructor
      . intro hfound
        exact ⟨[], place, rest, rfl, by simp, hfound⟩
      . rintro ⟨front, found, back, hsplit, hfront, hfound⟩
        cases front with
        | nil =>
          cases hsplit
          exact hfound
        | cons first front =>
          cases hsplit
          exact absurd (List.forall_mem_cons.mp hfront).1 hnone

end First

/-!
One file.
-/

namespace Catalog

variable {tree : FileTree} {path snapshot : Text} {desc : SnapshotDescriptor}

def Describes (tree : FileTree) (path snapshot : Text) (desc : SnapshotDescriptor) : Prop :=
  ∃ bytes metadata, tree.read path = .ok bytes ∧
    SnapshotMetadata.decode? bytes = some metadata ∧ metadata.descriptor = desc ∧
    desc.name = snapshot

def look (tree : FileTree) (snapshot path : Text) : Except Fault (Option SnapshotDescriptor) :=
  (Metafile.readSnapshot tree path).map (descriptorFor? snapshot)

def directoryFault : Fault :=
  .system "basic_filebuf::underflow error reading the file: Is a directory"

theorem look_eq_some_iff
    : look tree snapshot path = .ok (some desc) ↔ Describes tree path snapshot desc := by
  unfold look Metafile.readSnapshot Metafile.read Describes descriptorFor?
  cases hread : tree.read path with
  | error error => cases error <;> simp [Except.map]
  | ok bytes => cases hdecode : SnapshotMetadata.decode? bytes <;> simp [Except.map, hdecode]

theorem look_eq_error_iff {fault : Fault}
    : look tree snapshot path = .error fault ↔
      tree.read path = .error .isDirectory ∧ fault = directoryFault := by
  unfold look Metafile.readSnapshot Metafile.read
  cases hread : tree.read path with
  | error error => cases error <;> simp [Except.map, directoryFault, eq_comm]
  | ok bytes => simp [Except.map]

theorem look_eq_none_iff
    : look tree snapshot path = .ok none ↔
      tree.read path ≠ .error .isDirectory ∧ ∀ desc, ¬Describes tree path snapshot desc := by
  simp only [← look_eq_some_iff]
  constructor
  . intro h
    rw [h]
    refine ⟨fun hread => ?_, by simp⟩
    have hfault : look tree snapshot path = .error directoryFault :=
      look_eq_error_iff.mpr ⟨hread, rfl⟩
    rw [h] at hfault
    cases hfault
  . rintro ⟨hread, hnone⟩
    cases hlook : look tree snapshot path with
    | error fault => exact absurd (look_eq_error_iff.mp hlook).1 hread
    | ok found =>
      cases found with
      | none => rfl
      | some desc => exact absurd hlook (hnone desc)

/-!
The files of a directory.
-/

variable (catalog : Catalog) (tree : FileTree) (snapshot : Text)

def ownPath : Text :=
  Path.join (catalog.directory snapshot) (FileName.metafile catalog.node)

/--
A regular file in the directory of a snapshot that has the extension of metafiles.
-/
def IsCandidate (path : Text) : Prop :=
  ∃ name id, (name, Entry.file id) ∈ tree.children (catalog.directory snapshot) ∧
    Path.extensionOf name = FileName.metafileExtension ∧
    path = Path.join (catalog.directory snapshot) name

def places : List Text :=
  catalog.ownPath snapshot :: catalog.candidates tree snapshot

theorem mem_candidates_iff {path : Text}
    : path ∈ catalog.candidates tree snapshot ↔ catalog.IsCandidate tree snapshot path := by
  simp only [candidates, List.mem_mergeSort, List.mem_map, List.mem_filter, IsCandidate]
  constructor
  . rintro ⟨⟨name, entry⟩, ⟨hmem, hfile⟩, rfl⟩
    simp only [Bool.and_eq_true, decide_eq_true_eq, ne_eq] at hfile
    cases entry with
    | directory => simp at hfile
    | file id => exact ⟨name, id, hmem, hfile.2, rfl⟩
  . rintro ⟨name, id, hmem, hextension, rfl⟩
    exact ⟨(name, .file id), ⟨hmem, by simp [hextension]⟩, rfl⟩

theorem candidates_sorted
    : (catalog.candidates tree snapshot).Pairwise fun a b => (compare a b).isLE := by
  apply List.pairwise_mergeSort
  . intro a b c hab hbc
    exact Std.TransCmp.isLE_trans hab hbc
  . intro a b
    rw [Bool.or_eq_true]
    cases hab : compare a b with
    | gt => exact .inr (by simp [Std.OrientedCmp.lt_of_gt hab])
    | lt | eq => exact .inl rfl

theorem find_eq
    : catalog.find tree snapshot =
      if tree.isDirectory (catalog.directory snapshot) then
        firstFound (look tree snapshot) (catalog.places tree snapshot)
      else .ok none := by
  have hfirst (files : List Text) : (catalog.firstMatch tree snapshot files).1 =
      firstFound (look tree snapshot) files := by
    induction files with
    | nil => rfl
    | cons path rest ih =>
      unfold firstMatch firstFound look
      cases Metafile.readSnapshot tree path with
      | error fault => rfl
      | ok metadata =>
        simp only [Except.map]
        cases descriptorFor? snapshot metadata with
        | none => exact ih
        | some desc => rfl
  have hown : Path.join (catalog.directory snapshot) (FileName.metafile catalog.node) =
      catalog.ownPath snapshot := rfl
  by_cases hdirectory : tree.isDirectory (catalog.directory snapshot) = true
  . simp only [find, search, hdirectory, if_true, hown, places, firstFound, look]
    cases Metafile.readSnapshot tree (catalog.ownPath snapshot) with
    | error fault => rfl
    | ok own =>
      simp only [Except.map]
      cases descriptorFor? snapshot own with
      | none => exact hfirst _
      | some desc => rfl
  . simp [find, search, hdirectory]

/-!
What is found.
-/

/--
No directory stands where a search looks for a file.
-/
def Openable : Prop :=
  ∀ path ∈ catalog.places tree snapshot, tree.read path ≠ .error .isDirectory

structure IsFirst (path : Text) (desc : SnapshotDescriptor) : Prop where
  candidate : catalog.IsCandidate tree snapshot path
  describes : Describes tree path snapshot desc
  least : ∀ other, catalog.IsCandidate tree snapshot other → compare other path = .lt →
    ∀ desc, ¬Describes tree other snapshot desc

/--
A search finds what describes the snapshot: the own metafile or else the first file that does.
-/
structure Finds : Prop where
  total : ∃ found, catalog.find tree snapshot = .ok found
  exists_iff : (∃ desc, catalog.find tree snapshot = .ok (some desc)) ↔
    tree.isDirectory (catalog.directory snapshot) ∧
      ∃ path desc, (path = catalog.ownPath snapshot ∨ catalog.IsCandidate tree snapshot path) ∧
        Describes tree path snapshot desc
  own : tree.isDirectory (catalog.directory snapshot) → ∀ desc,
    Describes tree (catalog.ownPath snapshot) snapshot desc →
      catalog.find tree snapshot = .ok (some desc)
  other : tree.isDirectory (catalog.directory snapshot) →
    (∀ desc, ¬Describes tree (catalog.ownPath snapshot) snapshot desc) → ∀ desc,
      catalog.find tree snapshot = .ok (some desc) ↔
        ∃ path, catalog.IsFirst tree snapshot path desc
  named : ∀ desc, catalog.find tree snapshot = .ok (some desc) → desc.name = snapshot

section Found

variable {catalog tree snapshot}

theorem find_of_directory (hdirectory : tree.isDirectory (catalog.directory snapshot))
    : catalog.find tree snapshot =
      firstFound (look tree snapshot) (catalog.places tree snapshot) := by
  rw [find_eq, if_pos hdirectory]

theorem isDirectory_of_find {result : Except Fault (Option SnapshotDescriptor)}
    (h : catalog.find tree snapshot = result) (hresult : result ≠ .ok none)
    : tree.isDirectory (catalog.directory snapshot) := by
  rw [find_eq] at h
  split at h
  next hdirectory => exact hdirectory
  next => exact absurd h.symm hresult

/--
A fault is that of a directory, at the first place that does not describe nothing.
-/
theorem find_eq_error_iff {fault : Fault}
    : catalog.find tree snapshot = .error fault ↔
      tree.isDirectory (catalog.directory snapshot) ∧ fault = directoryFault ∧
        ∃ front path back, catalog.places tree snapshot = front ++ path :: back ∧
          (∀ passed ∈ front, look tree snapshot passed = .ok none) ∧
          tree.read path = .error .isDirectory := by
  constructor
  . intro h
    have hdirectory := isDirectory_of_find h (by simp)
    rw [find_of_directory hdirectory, firstFound_eq_iff (by simp)] at h
    obtain ⟨front, path, back, hplaces, hfront, hpath⟩ := h
    obtain ⟨hread, hfault⟩ := look_eq_error_iff.mp hpath
    exact ⟨hdirectory, hfault, front, path, back, hplaces, hfront, hread⟩
  . rintro ⟨hdirectory, rfl, front, path, back, hplaces, hfront, hread⟩
    rw [find_of_directory hdirectory, firstFound_eq_iff (by simp)]
    exact ⟨front, path, back, hplaces, hfront, look_eq_error_iff.mpr ⟨hread, rfl⟩⟩

theorem Openable.total (h : catalog.Openable tree snapshot)
    : ∃ found, catalog.find tree snapshot = .ok found := by
  cases hfind : catalog.find tree snapshot with
  | ok found => exact ⟨found, rfl⟩
  | error fault =>
    obtain ⟨_, _, front, path, back, hplaces, _, hread⟩ := find_eq_error_iff.mp hfind
    exact absurd hread (h path (hplaces ▸ List.mem_append_right _ List.mem_cons_self))

theorem find_eq_some_iff {desc : SnapshotDescriptor}
    : catalog.find tree snapshot = .ok (some desc) ↔
      tree.isDirectory (catalog.directory snapshot) ∧
        ∃ front path back, catalog.places tree snapshot = front ++ path :: back ∧
          (∀ passed ∈ front, look tree snapshot passed = .ok none) ∧
          Describes tree path snapshot desc := by
  constructor
  . intro h
    have hdirectory := isDirectory_of_find h (by simp)
    rw [find_of_directory hdirectory, firstFound_eq_iff (by simp)] at h
    obtain ⟨front, path, back, hplaces, hfront, hpath⟩ := h
    exact ⟨hdirectory, front, path, back, hplaces, hfront, look_eq_some_iff.mp hpath⟩
  . rintro ⟨hdirectory, front, path, back, hplaces, hfront, hpath⟩
    rw [find_of_directory hdirectory, firstFound_eq_iff (by simp)]
    exact ⟨front, path, back, hplaces, hfront, look_eq_some_iff.mpr hpath⟩

theorem Openable.look_eq_none (h : catalog.Openable tree snapshot) {path : Text}
    (hpath : path ∈ catalog.places tree snapshot)
    : look tree snapshot path = .ok none ↔ ∀ desc, ¬Describes tree path snapshot desc := by
  rw [look_eq_none_iff, and_iff_right (h path hpath)]

theorem isFirst_iff {path : Text} {desc : SnapshotDescriptor}
    : catalog.IsFirst tree snapshot path desc ↔
      Describes tree path snapshot desc ∧
        ∃ front back, catalog.candidates tree snapshot = front ++ path :: back ∧
          ∀ passed ∈ front, ∀ desc, ¬Describes tree passed snapshot desc := by
  have hsorted := catalog.candidates_sorted tree snapshot
  constructor
  . intro h
    refine ⟨h.describes, ?_⟩
    have hmem := (catalog.mem_candidates_iff tree snapshot).mpr h.candidate
    obtain ⟨front, back, hsplit, hnew⟩ := List.eq_append_cons_of_mem hmem
    refine ⟨front, back, hsplit, ?_⟩
    intro passed hpassed
    rw [hsplit] at hsorted
    have hle : (compare passed path).isLE :=
      (List.pairwise_append.mp hsorted).2.2 passed hpassed path List.mem_cons_self
    have hne : compare passed path ≠ .eq := by
      intro heq
      exact hnew (Std.LawfulEqOrd.eq_of_compare heq ▸ hpassed)
    have hlt : compare passed path = .lt := by
      cases hcompare : compare passed path <;> simp_all
    refine h.least passed ((catalog.mem_candidates_iff tree snapshot).mp ?_) hlt
    rw [hsplit]
    exact List.mem_append_left _ hpassed
  . rintro ⟨hdescribes, front, back, hsplit, hfront⟩
    refine ⟨(catalog.mem_candidates_iff tree snapshot).mp (by simp [hsplit]), hdescribes, ?_⟩
    intro other hother hlt
    have hmem := (catalog.mem_candidates_iff tree snapshot).mpr hother
    have hgt := Std.OrientedCmp.gt_of_lt hlt
    rw [hsplit] at hmem hsorted
    rcases List.mem_append.mp hmem with hin | hin
    . exact hfront other hin
    . rcases List.mem_cons.mp hin with rfl | hback
      . simp at hlt
      . have hle := (List.pairwise_cons.mp (List.pairwise_append.mp hsorted).2.1).1 other hback
        simp [hgt] at hle

theorem mem_places_iff {path : Text}
    : path ∈ catalog.places tree snapshot ↔
      path = catalog.ownPath snapshot ∨ catalog.IsCandidate tree snapshot path := by
  rw [places, List.mem_cons, mem_candidates_iff]

theorem Openable.exists_iff (h : catalog.Openable tree snapshot)
    : (∃ desc, catalog.find tree snapshot = .ok (some desc)) ↔
      tree.isDirectory (catalog.directory snapshot) ∧
        ∃ path desc, (path = catalog.ownPath snapshot ∨ catalog.IsCandidate tree snapshot path) ∧
          Describes tree path snapshot desc := by
  constructor
  . rintro ⟨desc, hfind⟩
    obtain ⟨hdirectory, front, path, back, hplaces, _, hdescribes⟩ := find_eq_some_iff.mp hfind
    exact ⟨hdirectory, path, desc, mem_places_iff.mp (by simp [hplaces]), hdescribes⟩
  . rintro ⟨hdirectory, path, desc, hpath, hdescribes⟩
    obtain ⟨found, hfind⟩ := h.total
    cases found with
    | some found => exact ⟨found, hfind⟩
    | none =>
      rw [find_of_directory hdirectory, firstFound_eq_none_iff] at hfind
      have hplace := mem_places_iff.mpr hpath
      exact absurd hdescribes ((h.look_eq_none hplace).mp (hfind path hplace) desc)

theorem Openable.other (h : catalog.Openable tree snapshot)
    (hdirectory : tree.isDirectory (catalog.directory snapshot))
    (hown : ∀ desc, ¬Describes tree (catalog.ownPath snapshot) snapshot desc)
    (desc : SnapshotDescriptor)
    : catalog.find tree snapshot = .ok (some desc) ↔
      ∃ path, catalog.IsFirst tree snapshot path desc := by
  have hlook {front back : List Text} {path : Text}
      (hsplit : catalog.candidates tree snapshot = front ++ path :: back)
      : (∀ passed ∈ front, look tree snapshot passed = .ok none) ↔
        ∀ passed ∈ front, ∀ desc, ¬Describes tree passed snapshot desc := by
    have hplace (passed : Text) (hpassed : passed ∈ front) :
        passed ∈ catalog.places tree snapshot := by
      simp [places, hsplit, hpassed]
    exact forall₂_congr fun passed hpassed => h.look_eq_none (hplace passed hpassed)
  simp only [isFirst_iff, find_eq_some_iff, hdirectory, true_and]
  constructor
  . rintro ⟨front, path, back, hplaces, hfront, hdescribes⟩
    cases front with
    | nil =>
      cases hplaces
      exact absurd hdescribes (hown desc)
    | cons first front =>
      obtain ⟨rfl, hsplit⟩ := List.cons.inj hplaces
      have hrest := (List.forall_mem_cons.mp hfront).2
      exact ⟨path, hdescribes, front, back, hsplit, (hlook hsplit).mp hrest⟩
  . rintro ⟨path, hdescribes, front, back, hsplit, hfront⟩
    refine ⟨catalog.ownPath snapshot :: front, path, back, by rw [places, hsplit]; rfl, ?_,
      hdescribes⟩
    have hfirst : look tree snapshot (catalog.ownPath snapshot) = .ok none :=
      (h.look_eq_none List.mem_cons_self).mpr hown
    exact List.forall_mem_cons.mpr ⟨hfirst, (hlook hsplit).mpr hfront⟩

theorem Openable.finds (h : catalog.Openable tree snapshot) : catalog.Finds tree snapshot where
  total := h.total
  exists_iff := h.exists_iff
  own := by
    intro hdirectory desc hdescribes
    exact find_eq_some_iff.mpr ⟨hdirectory, [], _, _, rfl, by simp, hdescribes⟩
  other := h.other
  named := by
    intro desc hfind
    obtain ⟨_, _, _, _, _, _, _, _, _, _, _, hname⟩ := find_eq_some_iff.mp hfind
    exact hname

theorem openable_iff (proper : tree.Proper) (clean : 0 ∉ catalog.directory snapshot)
    : catalog.Openable tree snapshot ↔
      tree.read (catalog.ownPath snapshot) ≠ .error .isDirectory := by
  constructor
  . intro h
    exact h _ List.mem_cons_self
  . intro hown path hpath
    rcases mem_places_iff.mp hpath with rfl | ⟨name, id, hlisted, _, rfl⟩
    . exact hown
    -- a candidate was a regular file when it was listed
    . rcases proper.status_of_listed clean hlisted with hstatus | hstatus <;>
        simp [FileTree.read, FileTree.file, hstatus, bind, Except.bind, pure, Except.pure]

theorem find_eq_error_iff_own (proper : tree.Proper) (clean : 0 ∉ catalog.directory snapshot)
    {fault : Fault}
    : catalog.find tree snapshot = .error fault ↔
      tree.isDirectory (catalog.directory snapshot) ∧
        tree.read (catalog.ownPath snapshot) = .error .isDirectory ∧ fault = directoryFault := by
  constructor
  . intro h
    obtain ⟨hdirectory, hfault, _⟩ := find_eq_error_iff.mp h
    refine ⟨hdirectory, ?_, hfault⟩
    apply Classical.byContradiction
    intro hown
    obtain ⟨found, hfound⟩ := ((openable_iff proper clean).mpr hown).total
    cases h.symm.trans hfound
  . rintro ⟨hdirectory, hown, hfault⟩
    exact find_eq_error_iff.mpr ⟨hdirectory, hfault, [], _, _, rfl, by simp, hown⟩

end Found

end Catalog

end SnapshotAudit
