import Mathlib.Tactic.SplitIfs
import SnapshotAudit.Proofs.FileTree.Sights

/-!
This module contains what becomes of a tree of files when directories are made and files are written
or removed: what was meant to change is seen afterwards, and whatever stands elsewhere stays as it
was.
-/

namespace SnapshotAudit

namespace FileTree

variable {tree next last : FileTree} {names above : List Text} {path name : Text}

/--
No two names share a file, and no file is one that could be made.
-/
structure Tidy (tree : FileTree) : Prop where
  rooted : tree.entry? (.inside []) = some .directory
  old : ∀ names id, tree.entry? (.inside names) = some (.file id) → id < tree.fresh
  apart : ∀ names other id, tree.entry? (.inside names) = some (.file id) →
    tree.entry? (.inside other) = some (.file id) → names = other

theorem tidy_empty : FileTree.empty.Tidy := by
  have hfile : ∀ names id, FileTree.empty.entry? (.inside names) ≠ some (.file id) := by
    intro names id h
    cases names with
    | nil => cases h
    | cons first rest => cases h
  exact ⟨rfl, fun names id h => absurd h (hfile names id), fun names _ id h =>
    absurd h (hfile names id)⟩

/-!
Writing.
-/

theorem bytesOf_setBytes (id other : FileId) (bytes : Bytes)
    : (tree.setBytes id bytes).bytesOf other =
      if other = id then bytes else tree.bytesOf other := by
  simp only [bytesOf, setBytes, SortedMap.getD, SortedMap.get?_insert_eq]
  split <;> rfl

theorem Tidy.setBytes (tidy : tree.Tidy) {id : FileId}
    (hentry : tree.entry? (.inside names) = some (.file id)) (bytes : Bytes)
    : (tree.setBytes id bytes).Tidy ∧
      (tree.setBytes id bytes).sight? names = some (.file bytes) ∧
      tree.Extends (tree.setBytes id bytes) fun other => other = names := by
  refine ⟨⟨tidy.rooted, tidy.old, tidy.apart⟩, ?_, fun _ h => h, ?_⟩
  . exact sight?_eq_file_iff.mpr ⟨id, hentry, by simp [bytesOf_setBytes]⟩
  . intro other old hother hsight
    obtain ⟨another, hanother, hold⟩ := sight?_eq_file_iff.mp hsight
    refine sight?_eq_file_iff.mpr ⟨another, hanother, ?_⟩
    -- no other name shares the file
    have hne : another ≠ id := by
      rintro rfl
      exact hother (tidy.apart other names another hanother hentry)
    rw [bytesOf_setBytes, if_neg hne, hold]

theorem entry?_set {new : Branch} (hdirectory : tree.entry? (.inside names) = some .directory)
    (habsent : tree.entry? (.inside (names ++ [name])) = none) (hleaf : new.entries = [])
    (other : List Text)
    : ((tree.top.set (names ++ [name]) new).at? other).map Branch.entry =
      if other = names ++ [name] then some new.entry else tree.entry? (.inside other) :=
  Branch.entry_at?_set hdirectory hleaf (Option.map_eq_none_iff.mp habsent) other

theorem Tidy.addFile (tidy : tree.Tidy)
    (hdirectory : tree.entry? (.inside names) = some .directory)
    (habsent : tree.entry? (.inside (names ++ [name])) = none) (bytes : Bytes)
    : (tree.addFile (names ++ [name]) bytes).Tidy ∧
      (tree.addFile (names ++ [name]) bytes).sight? (names ++ [name]) = some (.file bytes) ∧
      tree.Extends (tree.addFile (names ++ [name]) bytes) fun other => other = names ++ [name] := by
  have hentry (other : List Text) :
      entry? (tree.addFile (names ++ [name]) bytes) (.inside other) =
        if other = names ++ [name] then some (.file tree.fresh)
        else tree.entry? (.inside other) :=
    entry?_set hdirectory habsent rfl other
  have hbytes (id : FileId) : (tree.addFile (names ++ [name]) bytes).bytesOf id =
      if id = tree.fresh then bytes else tree.bytesOf id :=
    bytesOf_setBytes tree.fresh id bytes
  have hkept (other : List Text) (entry : Entry)
      (hother : tree.entry? (.inside other) = some entry)
      : entry? (tree.addFile (names ++ [name]) bytes) (.inside other) = some entry := by
    rw [hentry, if_neg, hother]
    rintro rfl
    rw [habsent] at hother
    cases hother
  have hcases (other : List Text) (id : FileId)
      (hid : entry? (tree.addFile (names ++ [name]) bytes) (.inside other) = some (.file id))
      : other = names ++ [name] ∧ id = tree.fresh ∨
        tree.entry? (.inside other) = some (.file id) ∧ id < tree.fresh := by
    rw [hentry] at hid
    split at hid
    next heq =>
      cases hid
      exact .inl ⟨heq, rfl⟩
    next => exact .inr ⟨hid, tidy.old other id hid⟩
  refine ⟨⟨hkept [] _ tidy.rooted, ?_, ?_⟩, ?_, ?_, ?_⟩
  . intro other id hid
    change id < tree.fresh + 1
    rcases hcases other id hid with ⟨_, rfl⟩ | ⟨_, hold⟩
    . exact Nat.lt_succ_self _
    . exact Nat.lt_succ_of_lt hold
  . intro first second id hfirst hsecond
    rcases hcases first id hfirst with ⟨hnew, hid⟩ | ⟨hold, hid⟩
    . rcases hcases second id hsecond with ⟨hsame, _⟩ | ⟨_, hless⟩
      . rw [hnew, hsame]
      . exact absurd hless (Nat.not_lt_of_le (Nat.le_of_eq hid.symm))
    . rcases hcases second id hsecond with ⟨_, hfresh⟩ | ⟨hother, _⟩
      . exact absurd hid (Nat.not_lt_of_le (Nat.le_of_eq hfresh.symm))
      . exact tidy.apart first second id hold hother
  . exact sight?_eq_file_iff.mpr ⟨tree.fresh, by rw [hentry, if_pos rfl], by simp [hbytes]⟩
  . intro place hplace
    cases place with
    | inside other => exact hkept other _ hplace
    | above => rfl
    | unknown => cases hplace
  . intro other old _ hsight
    obtain ⟨id, hother, hold⟩ := sight?_eq_file_iff.mp hsight
    refine sight?_eq_file_iff.mpr ⟨id, hkept other _ hother, ?_⟩
    rw [hbytes, if_neg (Nat.ne_of_lt (tidy.old other id hother)), hold]

theorem lastName_ok (plain : Path.Plain path (above ++ [name])) {found : LastName}
    (h : tree.lastName path = .ok found)
    : path.length < maximumPath ∧ ∃ directory, found = ⟨directory, name, false⟩ ∧
        tree.walk (.inside []) above = .ok directory ∧
        tree.entry? directory = some .directory := by
  have hnonempty : path.isEmpty = false := by simpa using plain.nonempty
  simp only [lastName, plain.beforeZero_eq, hnonempty, plain.components_eq, Bool.false_eq_true,
    if_false, List.dropLast_concat, List.getLast?_concat, Option.getD_some, Place.origin,
    plain.relative, plain.unslashed, decide_false] at h
  split at h
  next => cases h
  next hshort =>
    cases hwalk : tree.walk (.inside []) above with
    | error error =>
      rw [hwalk] at h
      cases h
    | ok directory =>
      rw [hwalk] at h
      simp only [bind, Except.bind] at h
      split at h
      next => cases h
      next => cases h
      next hdirectory =>
        cases h
        exact ⟨Nat.lt_of_not_le hshort, directory, rfl, rfl, hdirectory⟩

/--
A file is seen where it was written, and nothing else looks different.
-/
structure Writes (tree next : FileTree) (path name : Text) (names : List Text) (bytes : Bytes)
    : Prop where
  tidy : next.Tidy
  spares : tree.Extends next fun other => other = names ++ [name]
  directory : next.Shows path names .directory
  file : next.Shows (Path.join path name) (names ++ [name]) (.file bytes)

theorem Tidy.update (tidy : tree.Tidy) (plain : Path.Plain path above) (hname : Path.IsName name)
    (own : Path.isDots name = false) {f : Bytes → Bytes}
    (h : tree.update (Path.join path name) f = .ok next)
    : ∃ names old, placeOf above = .inside names ∧ Writes tree next path name names (f old) ∧
        (tree.sight? (names ++ [name]) = none ∧ old = [] ∨
          tree.sight? (names ++ [name]) = some (.file old)) := by
  have plain_file := plain.join hname
  unfold FileTree.update at h
  cases hlast : tree.lastName (Path.join path name) with
  | error error =>
    rw [hlast] at h
    cases h
  | ok found =>
    obtain ⟨hshort, directory, rfl, hwalk, hdirectory⟩ := lastName_ok plain_file hlast
    rw [hlast] at h
    simp only [bind, Except.bind, own, Bool.or_false, Bool.false_eq_true, if_false, lookup] at h
    split at h
    next => cases h
    next entry hlookup =>
      split at hlookup
      next => cases hlookup
      next hlength =>
        cases hlookup
        cases directory with
        | unknown => cases hdirectory
        | above =>
          have hstep : LastName.place ⟨.above, name, false⟩ = .unknown := step_above own
          rw [hstep] at h
          cases h
        | inside names =>
          have hstep : LastName.place ⟨.inside names, name, false⟩ = .inside (names ++ [name]) :=
            step_own own
          -- where both paths lead to does not depend on what the file was before
          have hwrites (bytes : Bytes) (htidy : next.Tidy)
              (hsight : next.sight? (names ++ [name]) = some (.file bytes))
              (hspares : tree.Extends next fun other => other = names ++ [name])
              : Writes tree next path name names bytes := by
            have hnext := hspares.walk hwalk
            have hthere := hspares.directories _ hdirectory
            refine ⟨htidy, hspares, ⟨?_, sight?_eq_directory_iff.mpr hthere⟩, ⟨?_, hsight⟩⟩
            . apply resolve_of_walk plain _ hnext
              rw [plain.join_eq hname, List.length_append] at hshort
              omega
            . apply resolve_of_walk plain_file hshort
              rw [walk_append, hnext]
              exact (walk_single hthere (Nat.le_of_not_lt hlength)).trans (congrArg _ hstep)
          rw [hstep] at h
          refine ⟨names, ?_⟩
          split at h
          next => cases h
          next id hentry =>
            cases h
            obtain ⟨htidy, hsight, hspares⟩ := tidy.setBytes hentry (f (tree.bytesOf id))
            exact ⟨_, (walk_eq hwalk).symm, hwrites _ htidy hsight hspares,
              .inr (sight?_eq_file_iff.mpr ⟨id, hentry, rfl⟩)⟩
          next hentry hinside =>
            cases hinside
            cases h
            obtain ⟨htidy, hsight, hspares⟩ := tidy.addFile hdirectory hentry (f [])
            exact ⟨_, (walk_eq hwalk).symm, hwrites _ htidy hsight hspares,
              .inl ⟨by rw [sight?, hentry]; rfl, rfl⟩⟩
          next hinside => exact absurd rfl (hinside _)

theorem Tidy.write (tidy : tree.Tidy) (plain : Path.Plain path above) (hname : Path.IsName name)
    (own : Path.isDots name = false) {bytes : Bytes}
    (h : tree.write (Path.join path name) bytes = .ok next)
    : ∃ names, placeOf above = .inside names ∧ Writes tree next path name names bytes := by
  obtain ⟨names, _, hplace, hwrites, _⟩ := tidy.update plain hname own h
  exact ⟨names, hplace, hwrites⟩

theorem Writes.append {bytes more : Bytes} (writes : Writes tree next path name names bytes)
    (plain : Path.Plain path above) (hname : Path.IsName name)
    (own : Path.isDots name = false) (hplace : placeOf above = .inside names)
    (h : next.append (Path.join path name) more = .ok last)
    : Writes tree last path name names (bytes ++ more) := by
  obtain ⟨others, old, hothers, hmore, hold⟩ := writes.tidy.update plain hname own h
  obtain rfl : names = others := by simpa using hplace.symm.trans hothers
  obtain rfl : old = bytes := by simpa [writes.file.seen, eq_comm] using hold
  exact ⟨hmore.tidy, writes.spares.trans hmore.spares, hmore.directory, hmore.file⟩

/-!
Making directories.
-/

/--
There may be more directories, and nothing else has changed.
-/
structure Grows (tree next : FileTree) : Prop where
  contents_eq : next.contents = tree.contents
  fresh_eq : next.fresh = tree.fresh
  entries : ∀ names, next.entry? (.inside names) = tree.entry? (.inside names) ∨
    tree.entry? (.inside names) = none ∧ next.entry? (.inside names) = some .directory

theorem Grows.refl (tree : FileTree) : tree.Grows tree :=
  ⟨rfl, rfl, fun _ => .inl rfl⟩

theorem Grows.trans (h : tree.Grows next) (h' : next.Grows last) : tree.Grows last := by
  refine ⟨h'.contents_eq.trans h.contents_eq, h'.fresh_eq.trans h.fresh_eq, ?_⟩
  intro names
  rcases h'.entries names with heq | ⟨hnone, hmade⟩
  . rw [heq]
    exact h.entries names
  . rcases h.entries names with hold | ⟨_, hearlier⟩
    . exact .inr ⟨hold ▸ hnone, hmade⟩
    . rw [hnone] at hearlier
      cases hearlier

theorem Grows.kept (h : tree.Grows next) {place : Place} {entry : Entry}
    (hentry : tree.entry? place = some entry) : next.entry? place = some entry := by
  cases place with
  | inside names =>
    rcases h.entries names with heq | ⟨hnone, _⟩
    . rw [heq, hentry]
    . rw [hnone] at hentry
      cases hentry
  | above => exact hentry
  | unknown => cases hentry

theorem Grows.file (h : tree.Grows next) {id : FileId}
    (hentry : next.entry? (.inside names) = some (.file id))
    : tree.entry? (.inside names) = some (.file id) := by
  rcases h.entries names with heq | ⟨_, hmade⟩
  . rw [← heq, hentry]
  . rw [hmade] at hentry
    cases hentry

theorem Grows.spares (h : tree.Grows next) (touched : List Text → Prop)
    : tree.Extends next touched := by
  refine ⟨fun _ hplace => h.kept hplace, ?_⟩
  intro names bytes _ hsight
  obtain ⟨id, hentry, hbytes⟩ := sight?_eq_file_iff.mp hsight
  refine sight?_eq_file_iff.mpr ⟨id, h.kept hentry, ?_⟩
  rw [← hbytes, bytesOf, bytesOf, h.contents_eq]

theorem Tidy.grows (tidy : tree.Tidy) (h : tree.Grows next) : next.Tidy where
  rooted := h.kept tidy.rooted
  old names id hentry := h.fresh_eq ▸ tidy.old names id (h.file hentry)
  apart names other id hentry hother := tidy.apart names other id (h.file hentry) (h.file hother)

theorem grows_makeDirectories {place : Place} (hplace : tree.entry? place = some .directory)
    : tree.Grows (tree.makeDirectories place names).1 := by
  induction names generalizing tree place with
  | nil => exact .refl tree
  | cons name rest ih =>
    rw [makeDirectories]
    split
    next => exact .refl tree
    next =>
      dsimp only
      split
      next hthere => exact ih hthere
      next => exact .refl tree
      next made habsent hmade =>
        rw [hmade] at habsent
        obtain ⟨above, rfl, rfl⟩ := step_of_absent hplace hmade habsent
        have hentry (other : List Text) :
            entry? (tree.enter (above ++ [name]) (.directory [])) (.inside other) =
              if other = above ++ [name] then some .directory else tree.entry? (.inside other) :=
          entry?_set hplace habsent rfl other
        have hgrows : tree.Grows (tree.enter (above ++ [name]) (.directory [])) := by
          refine ⟨rfl, rfl, ?_⟩
          intro other
          rw [hentry]
          split
          next heq => exact .inr ⟨heq ▸ habsent, rfl⟩
          next => exact .inl rfl
        refine hgrows.trans (ih ?_)
        rw [hmade, hentry, if_pos rfl]
      next => exact .refl tree

theorem directory_descend {place : Place} (hplace : tree.entry? place = some .directory)
    : tree.entry? (tree.descend place names).1 = some .directory := by
  induction names generalizing place with
  | nil => exact hplace
  | cons name rest ih =>
    rw [descend]
    split
    next hthere => exact ih hthere
    next => exact hplace

theorem grows_makeMissing {place : Place} (hplace : tree.entry? place = some .directory)
    : tree.Grows (tree.makeMissing place names).1 := by
  cases names with
  | nil => exact .refl tree
  | cons first rest =>
    simp only [makeMissing]
    split_ifs
    . exact .refl tree
    . exact .refl tree
    . exact .refl tree
    . exact grows_makeDirectories hplace

theorem grows_createDirectories (rooted : tree.entry? (.inside []) = some .directory) (path : Text)
    : tree.Grows (tree.createDirectories path).1 := by
  have horigin : tree.entry? (Place.origin path.beforeZero) = some .directory := by
    unfold Place.origin
    split
    next => rfl
    next => exact rooted
  unfold createDirectories makePath
  dsimp only
  split
  next => exact .refl tree
  next => exact .refl tree
  next => exact .refl tree
  next =>
    split
    next => exact .refl tree
    next =>
      split
      next => exact .refl tree
      next => exact grows_makeMissing (directory_descend horigin)

/-!
Removing.
-/

theorem entry_of_erase {entry : Entry}
    (h : ((tree.top.erase [name]).at? names).map Branch.entry = some entry)
    : tree.entry? (.inside names) = some entry := by
  unfold entry?
  cases htop : tree.top with
  | file id => rwa [htop] at h
  | directory entries =>
    rw [htop] at h
    cases names with
    | nil => exact h
    | cons first rest =>
      dsimp only
      rw [Branch.at?, Branch.child?_erase] at h
      rw [Branch.at?]
      split at h
      next => cases h
      next => exact h

theorem Tidy.remove (tidy : tree.Tidy) (hname : Path.IsName name)
    (own : Path.isDots name = false) (h : tree.remove name = (next, none)) : next.Tidy := by
  have plain := hname.plain
  unfold FileTree.remove at h
  split at h
  next names hresolve =>
    simp only [plain.beforeZero_eq, plain.components_eq, List.getLast?_singleton, Option.any_some,
      own, Bool.false_eq_true, if_false, Prod.mk.injEq, and_true] at h
    have hplace : Place.inside names = .inside [name] :=
      (resolve_eq plain hresolve).trans (step_own own)
    cases hplace
    subst h
    refine ⟨?_, ?_, ?_⟩
    . have rooted := tidy.rooted
      unfold entry? at rooted ⊢
      cases htop : tree.top with
      | file id =>
        rw [htop] at rooted
        cases rooted
      | directory entries => rfl
    . intro other id hid
      exact tidy.old other id (entry_of_erase hid)
    . intro first second id hfirst hsecond
      exact tidy.apart first second id (entry_of_erase hfirst) (entry_of_erase hsecond)
  next => cases h
  next => cases h
  next =>
    cases h
    exact tidy

/-!
Steps that are taken one after another.
-/

theorem andThen_ok {ε : Type} {first : FileTree × Option ε}
    {second : FileTree → FileTree × Option ε} (h : andThen first second = (next, none))
    : ∃ made, first = (made, none) ∧ second made = (next, none) := by
  obtain ⟨made, error⟩ := first
  cases error with
  | none => exact ⟨made, rfl, h⟩
  | some error => cases h

theorem attempt_ok {ε : Type} {result : Except ε FileTree}
    (h : tree.attempt result = (next, none)) : result = .ok next := by
  cases result with
  | ok made =>
    cases h
    rfl
  | error error => cases h

/--
Each of some steps comes to something, and keeps what the others have come to. When none of them
fails, all is there at the end.
-/
theorem sequence_ok {α ε : Type} {run : FileTree → α → FileTree × Option ε}
    {P : α → FileTree → Prop} {I : FileTree → Prop} {steps : List α}
    (distinct : steps.Nodup)
    (hstep : ∀ step ∈ steps, ∀ tree next, I tree → run tree step = (next, none) →
      I next ∧ P step next ∧
        ∀ other ∈ steps, other ≠ step → P other tree → P other next)
    (start : I tree) (h : tree.sequence steps run = (next, none))
    : I next ∧ ∀ step ∈ steps, P step next := by
  induction steps generalizing tree I with
  | nil =>
    cases h
    exact ⟨start, by simp⟩
  | cons first rest ih =>
    rw [List.nodup_cons] at distinct
    rw [sequence] at h
    split at h
    next => cases h
    next between hrun =>
      obtain ⟨hkept, hfirst, _⟩ := hstep first List.mem_cons_self tree between start hrun
      -- what the first step has come to is one more thing that the others keep
      have hrest := ih (I := fun tree => I tree ∧ P first tree) distinct.2 (fun step
          hmem tree next hstart hrun => by
        obtain ⟨hkept, hreached, hothers⟩ :=
          hstep step (List.mem_cons_of_mem first hmem) tree next hstart.1 hrun
        have hne : first ≠ step := fun heq => distinct.1 (heq ▸ hmem)
        exact ⟨⟨hkept, hothers first List.mem_cons_self hne hstart.2⟩, hreached,
          fun other hother => hothers other (List.mem_cons_of_mem first hother)⟩)
        ⟨hkept, hfirst⟩ h
      exact ⟨hrest.1.1, List.forall_mem_cons.mpr ⟨hrest.1.2, hrest.2⟩⟩

end FileTree

end SnapshotAudit
