import SnapshotAudit.FileTree.Edit
import SnapshotAudit.Proofs.FileTree.Paths
import SnapshotAudit.Proofs.Ordered.Map

/-!
This module contains what is seen in a tree of files where a path leads to. When the tree changes,
paths go on leading to where they led before as long as no directory is lost.
-/

namespace SnapshotAudit

namespace Branch

theorem at?_append (branch : Branch) (front back : List Text)
    : branch.at? (front ++ back) = (branch.at? front).bind fun child => child.at? back := by
  induction front generalizing branch with
  | nil => rfl
  | cons name rest ih =>
    rw [List.cons_append, at?, at?]
    cases branch.child? name with
    | none => rfl
    | some child => exact ih child

theorem at?_of_leaf {branch : Branch} (hleaf : branch.entries = []) (name : Text)
    (rest : List Text) : branch.at? (name :: rest) = none := by
  simp [at?, child?, hleaf, SortedMap.lookup]

theorem child?_erase (entries : List (Text × Branch)) (name other : Text)
    : ((directory entries).erase [name]).child? other =
      if other = name then none else (directory entries).child? other := by
  have hfilter : entries.filter (fun e => decide (e.1 ≠ name)) =
      entries.filter fun e => compare name e.1 != .eq := by
    apply List.filter_congr
    intro e _
    by_cases h : e.1 = name
    . simp [h]
    . simp [h, Ne.symm h]
  have hlookup := SortedMap.lookup_filter_ne name other entries
  rw [← hfilter] at hlookup
  simp only [Std.LawfulEqOrd.compare_eq_iff_eq] at hlookup
  exact hlookup

theorem entry_at?_set {branch new : Branch} {above : List Text} {name : Text}
    (hdirectory : (branch.at? above).map entry = some .directory) (hleaf : new.entries = [])
    (habsent : branch.at? (above ++ [name]) = none) (other : List Text)
    : ((branch.set (above ++ [name]) new).at? other).map entry =
      if other = above ++ [name] then some new.entry else (branch.at? other).map entry := by
  induction above generalizing branch other with
  | nil =>
    cases branch with
    | file id => cases hdirectory
    | directory entries =>
      cases other with
      | nil => rfl
      | cons first rest =>
        simp only [List.nil_append, set, at?, child?_setChild, Std.LawfulEqOrd.compare_eq_iff_eq]
        by_cases hfirst : first = name
        . subst hfirst
          have hnone : (directory entries).child? first = none := by
            simpa [at?] using habsent
          cases rest with
          | nil => simp
          | cons second rest => simp [hnone, at?_of_leaf hleaf]
        . simp [hfirst]
  | cons top above ih =>
    cases branch with
    | file id => simp [at?, child?, entries, SortedMap.lookup] at hdirectory
    | directory entries =>
      cases hchild : (directory entries).child? top with
      | none => simp [at?, hchild] at hdirectory
      | some child =>
        cases other with
        | nil => rfl
        | cons first rest =>
          simp only [List.cons_append, set, at?, child?_setChild, hchild, Option.getD_some,
            Std.LawfulEqOrd.compare_eq_iff_eq]
          by_cases hfirst : first = top
          . subst hfirst
            have hset := ih (by simpa [at?, hchild] using hdirectory)
              (by simpa [at?, hchild] using habsent) rest
            simpa [hchild] using hset
          . simp [hfirst]

end Branch

inductive Sight where
  | directory
  | file (bytes : Bytes)
deriving DecidableEq

namespace FileTree

def sightOf (tree : FileTree) (entry : Entry) : Sight :=
  match entry with
  | .directory => .directory
  | .file id => .file (tree.bytesOf id)

def sight? (tree : FileTree) (names : List Text) : Option Sight :=
  ( tree.entry? (.inside names)).map tree.sightOf

variable {tree next last : FileTree} {names above : List Text} {path : Text}

theorem directory_above {back : List Text} {entry : Entry}
    (h : tree.entry? (.inside (names ++ back)) = some entry) (hback : back ≠ [])
    : tree.entry? (.inside names) = some .directory := by
  simp only [ entry?, Branch.at?_append, Option.map_eq_some_iff, Option.bind_eq_some_iff] at h ⊢
  obtain ⟨_, ⟨branch, hbranch, hrest⟩, _⟩ := h
  refine ⟨branch, hbranch, ?_⟩
  cases branch with
  | directory entries => rfl
  | file id =>
    obtain ⟨first, rest, rfl⟩ := List.exists_cons_of_ne_nil hback
    rw [Branch.at?_of_leaf rfl] at hrest
    cases hrest

theorem sight?_eq_directory_iff
    : tree.sight? names = some .directory ↔ tree.entry? (.inside names) = some .directory := by
  unfold sight?
  cases tree.entry? (.inside names) with
  | none => simp
  | some entry => cases entry <;> simp [sightOf]

theorem sight?_eq_file_iff {bytes : Bytes}
    : tree.sight? names = some (.file bytes) ↔
      ∃ id, tree.entry? (.inside names) = some (.file id) ∧ tree.bytesOf id = bytes := by
  unfold sight?
  cases tree.entry? (.inside names) with
  | none => simp
  | some entry => cases entry <;> simp [sightOf]

/-!
Walking along names.
-/

theorem step_own {name : Text} (own : Path.isDots name = false)
    : Place.step (.inside names) name = .inside (names ++ [name]) := by
  simp only [Path.isDots, Bool.or_eq_false_iff, decide_eq_false_iff_not] at own
  unfold Place.step
  rw [if_neg own.1, if_neg own.2]

theorem step_above {name : Text} (own : Path.isDots name = false)
    : Place.step .above name = .unknown := by
  simp only [Path.isDots, Bool.or_eq_false_iff, decide_eq_false_iff_not] at own
  unfold Place.step
  rw [if_neg own.1, if_neg own.2]

theorem step_of_absent {place : Place} {name : Text} {made : List Text}
    (hplace : tree.entry? place = some .directory) (hstep : place.step name = .inside made)
    (habsent : tree.entry? (.inside made) = none)
    : ∃ names, place = .inside names ∧ made = names ++ [name] := by
  unfold Place.step at hstep
  split at hstep
  next =>
    rw [hstep, habsent] at hplace
    cases hplace
  next =>
    split at hstep
    next =>
      split at hstep
      next => cases hstep
      next names hnonempty =>
        cases hstep
        -- above a directory that is there stands another one
        rw [← List.dropLast_concat_getLast hnonempty] at hplace
        rw [directory_above hplace (List.cons_ne_nil _ _)] at habsent
        cases habsent
      next other =>
        rw [hstep, habsent] at hplace
        cases hplace
    next =>
      split at hstep
      next names =>
        cases hstep
        exact ⟨names, rfl, rfl⟩
      next => cases hstep

def placeOf (names : List Text) : Place :=
  names.foldl Place.step (.inside [])

theorem walk_eq {place target : Place} (h : tree.walk place names = .ok target)
    : target = names.foldl Place.step place := by
  induction names generalizing place with
  | nil =>
    cases h
    rfl
  | cons name rest ih =>
    rw [walk] at h
    split at h
    next => cases h
    next => cases h
    next =>
      split at h
      next => cases h
      next => exact ih h

theorem walk_append (place : Place) (front back : List Text)
    : tree.walk place (front ++ back) =
      (tree.walk place front).bind fun target => tree.walk target back := by
  induction front generalizing place with
  | nil => rfl
  | cons name rest ih =>
    rw [List.cons_append, walk, walk]
    split
    next => rfl
    next => rfl
    next =>
      split
      next => rfl
      next => exact ih _

theorem walk_single {place : Place} {name : Text}
    (hplace : tree.entry? place = some .directory) (hname : name.length ≤ maximumName)
    : tree.walk place [name] = .ok (place.step name) := by
  simp [walk, hplace, Nat.not_lt_of_le hname]

/-!
Trees that grow.
-/

structure Extends (tree next : FileTree) (touched : List Text → Prop) : Prop where
  directories : ∀ place, tree.entry? place = some .directory →
    next.entry? place = some .directory
  files : ∀ names bytes, ¬touched names → tree.sight? names = some (.file bytes) →
    next.sight? names = some (.file bytes)

variable {touched more : List Text → Prop}

theorem Extends.trans (h : tree.Extends next touched) (h' : next.Extends last touched)
    : tree.Extends last touched where
  directories place hplace := h'.directories place (h.directories place hplace)
  files names bytes hspared hsight :=
    h'.files names bytes hspared (h.files names bytes hspared hsight)

theorem Extends.mono (h : tree.Extends next touched) (hmore : ∀ names, touched names → more names)
    : tree.Extends next more where
  directories := h.directories
  files names bytes hspared := h.files names bytes fun htouched => hspared (hmore names htouched)

theorem Extends.walk (h : tree.Extends next touched) {place target : Place}
    (hwalk : tree.walk place names = .ok target) : next.walk place names = .ok target := by
  induction names generalizing place with
  | nil => exact hwalk
  | cons name rest ih =>
    rw [FileTree.walk] at hwalk ⊢
    split at hwalk
    next => cases hwalk
    next => cases hwalk
    next hplace =>
      rw [h.directories place hplace]
      split at hwalk
      next => cases hwalk
      next hshort =>
        simp only [hshort, if_false]
        exact ih hwalk

theorem isDirectory_of_long {path : Text} (h : maximumPath ≤ path.beforeZero.length)
    : tree.isDirectory path = false := by
  have hresolve : tree.resolve path =
      .error (if path.beforeZero.isEmpty then .notFound else .nameTooLong) := by
    unfold resolve
    dsimp only
    rw [if_pos h]
    split <;> rfl
  rw [isDirectory, status, hresolve]
  rfl

/--
A path leads to a place, and something is seen there.
-/
structure Shows (tree : FileTree) (path : Text) (names : List Text) (sight : Sight) : Prop where
  leads : tree.resolve path = .ok (.inside names)
  seen : tree.sight? names = some sight

theorem resolve_of_walk {target : Place} (plain : Path.Plain path names)
    (short : path.length < maximumPath) (h : tree.walk (.inside []) names = .ok target)
    : tree.resolve path = .ok target := by
  have hnonempty : path.isEmpty = false := by simpa using plain.nonempty
  simp only [resolve, plain.beforeZero_eq, hnonempty, Bool.false_eq_true, if_false,
    Nat.not_le_of_lt short, Place.origin, plain.relative, plain.names_eq, h]

theorem resolve_eq {target : Place} (plain : Path.Plain path names)
    (h : tree.resolve path = .ok target) : target = placeOf names := by
  have hnonempty : path.isEmpty = false := by simpa using plain.nonempty
  simp only [resolve, plain.beforeZero_eq, hnonempty, Bool.false_eq_true, if_false, Place.origin,
    plain.relative, plain.names_eq] at h
  split at h
  next => cases h
  next => exact walk_eq h

theorem Extends.resolve (h : tree.Extends next touched) {target : Place}
    (hresolve : tree.resolve path = .ok target) : next.resolve path = .ok target := by
  unfold FileTree.resolve at hresolve ⊢
  dsimp only at hresolve ⊢
  split at hresolve
  next => cases hresolve
  next hnonempty =>
    split at hresolve
    next => cases hresolve
    next hshort =>
      rw [if_neg hnonempty, if_neg hshort]
      exact h.walk hresolve

theorem Shows.directory (h : tree.Shows path names .directory) (hnext : tree.Extends next touched)
    : next.Shows path names .directory where
  leads := hnext.resolve h.leads
  seen := sight?_eq_directory_iff.mpr (hnext.directories _ (sight?_eq_directory_iff.mp h.seen))

theorem Shows.file {bytes : Bytes} (h : tree.Shows path names (.file bytes))
    (hnext : tree.Extends next touched) (spared : ¬touched names)
    : next.Shows path names (.file bytes) where
  leads := hnext.resolve h.leads
  seen := hnext.files names bytes spared h.seen

theorem Shows.isDirectory (h : tree.Shows path names .directory)
    : tree.isDirectory path = true := by
  simp only [FileTree.isDirectory, status, h.leads, bind, Except.bind,
    sight?_eq_directory_iff.mp h.seen]

theorem Shows.read {bytes : Bytes} (h : tree.Shows path names (.file bytes))
    : ∃ id, tree.file path = .ok id ∧ tree.bytesOf id = bytes := by
  obtain ⟨id, hentry, hbytes⟩ := sight?_eq_file_iff.mp h.seen
  refine ⟨id, ?_, hbytes⟩
  simp only [FileTree.file, status, h.leads, bind, Except.bind, hentry]

end FileTree

end SnapshotAudit
