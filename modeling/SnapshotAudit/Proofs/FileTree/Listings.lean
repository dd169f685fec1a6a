import SnapshotAudit.Proofs.FileTree.Sights

/-!
This module contains that what a directory lists is what its names lead to, however the path of the
directory is written.
-/

namespace SnapshotAudit

namespace Path

variable {path name : Text}

theorem components_separator_append (front back : Text)
    : components (front ++ separator :: back) = components front ++ components back := by
  rw [components, Text.splitAt_append, List.filter_append, components, components]

theorem exists_join (hpath : path ≠ []) (hname : IsName name)
    : ∃ between, join path name = path ++ between ++ name ∧
        (between = [] ∧ path.getLast? = some separator ∨ between = [separator]) := by
  have hempty : path.isEmpty = false := by simpa using hpath
  simp only [join, hname.relative, hempty, Bool.false_or, Bool.false_eq_true, if_false,
    decide_eq_true_eq]
  split
  next hslash => exact ⟨[], by simp, .inl ⟨rfl, hslash⟩⟩
  next => exact ⟨[separator], by simp, .inr rfl⟩

theorem components_join (hpath : path ≠ []) (hname : IsName name)
    : components (join path name) = components path ++ [name] := by
  have hcomponents (front : Text) :
      components (front ++ separator :: name) = components front ++ [name] := by
    rw [components_separator_append, hname.components_eq]
  obtain ⟨_, hjoin, ⟨rfl, hslash⟩ | rfl⟩ := exists_join hpath hname
  . obtain ⟨front, rfl⟩ := List.getLast?_eq_some_iff.mp hslash
    have hnothing : components ([] : Text) = [] := rfl
    rw [hjoin, List.append_nil, List.append_assoc, List.singleton_append, hcomponents,
      components_separator_append, hnothing, List.append_nil]
  . rw [hjoin, List.append_assoc, List.singleton_append, hcomponents]

theorem isAbsolute_join (hpath : path ≠ []) (hname : IsName name)
    : isAbsolute (join path name) = isAbsolute path := by
  obtain ⟨between, hjoin, _⟩ := exists_join hpath hname
  obtain ⟨b, rest, rfl⟩ := List.exists_cons_of_ne_nil hpath
  rw [hjoin]
  rfl

theorem clean_join (hpath : path ≠ []) (hname : IsName name) (clean : 0 ∉ path)
    : 0 ∉ join path name := by
  obtain ⟨between, hjoin, ⟨rfl, _⟩ | rfl⟩ := exists_join hpath hname <;>
    simp [hjoin, clean, hname.clean, separator]

theorem names_join (hpath : path ≠ []) (hname : IsName name)
    : names (join path name) = components path ++ [name] := by
  obtain ⟨between, hjoin, _⟩ := exists_join hpath hname
  have hslash : (join path name).getLast? ≠ some separator := by
    rw [hjoin, List.getLast?_append, List.getLast?_eq_some_getLast hname.nonempty, Option.some_or,
      ← List.getLast?_eq_some_getLast hname.nonempty]
    exact hname.unslashed
  rw [names, if_neg hslash, List.append_nil, components_join hpath hname]

end Path

namespace FileTree

variable {tree : FileTree} {path name : Text}

/--
Every directory holds its entries in the order of their names, and all of these are names.
-/
structure Proper (tree : FileTree) : Prop where
  sorted : ∀ names branch, tree.top.at? names = some branch →
    branch.entries.Pairwise fun a b => compare a.1 b.1 = .lt
  named : ∀ names branch, tree.top.at? names = some branch → ∀ e ∈ branch.entries,
    Path.IsName e.1 ∧ Path.isDots e.1 = false

theorem Proper.entry_of_listed (proper : tree.Proper) {names : List Text} {entry : Entry}
    (hpath : tree.resolve path = .ok (.inside names)) (h : (name, entry) ∈ tree.children path)
    : tree.entry? (.inside names) = some .directory ∧ Path.IsName name ∧
      Path.isDots name = false ∧ tree.entry? (.inside (names ++ [name])) = some entry := by
  simp only [children, hpath] at h
  cases hbranch : tree.top.at? names with
  | none => simp [hbranch] at h
  | some branch =>
    simp only [hbranch, Option.map_some, Option.getD_some, List.mem_map, Prod.mk.injEq] at h
    obtain ⟨⟨found, child⟩, hmem, hfound, rfl⟩ := h
    obtain rfl : found = name := hfound
    obtain ⟨hname, hown⟩ := proper.named names branch hbranch _ hmem
    have hchild : branch.child? found = some child :=
      (SortedMap.lookup_eq_some_iff (proper.sorted names branch hbranch) _ _).mpr hmem
    have hdirectory : branch.entry = .directory := by
      cases branch with
      | file id => cases hmem
      | directory entries => rfl
    unfold FileTree.entry?
    refine ⟨by simp [hbranch, hdirectory], hname, hown, ?_⟩
    simp [Branch.at?_append, hbranch, Branch.at?, hchild]

theorem walk_of_resolve {place : Place} (clean : 0 ∉ path) (h : tree.resolve path = .ok place)
    : path ≠ [] ∧ tree.walk (.origin path) (Path.components path) = .ok place := by
  unfold resolve at h
  rw [Text.beforeZero_eq_self clean] at h
  dsimp only at h
  split at h
  next => cases h
  next hnonempty =>
    refine ⟨by simpa using hnonempty, ?_⟩
    split at h
    next => cases h
    next =>
      unfold Path.names at h
      split at h
      next =>
        -- the separator at the end asks for the directory itself
        rw [walk_append] at h
        cases hwalk : tree.walk (.origin path) (Path.components path) with
        | error error =>
          rw [hwalk] at h
          cases h
        | ok target =>
          rw [hwalk] at h
          rw [walk_eq h]
          rfl
      next => rwa [List.append_nil] at h

theorem Proper.status_of_listed (proper : tree.Proper) (clean : 0 ∉ path) {entry : Entry}
    (h : (name, entry) ∈ tree.children path)
    : tree.status (Path.join path name) = .ok entry ∨
      tree.status (Path.join path name) = .error .nameTooLong := by
  cases hpath : tree.resolve path with
  | error error => simp [children, hpath] at h
  | ok place =>
    cases place with
    | above => simp [children, hpath] at h
    | unknown => simp [children, hpath] at h
    | inside names =>
      obtain ⟨hdirectory, hname, hown, hentry⟩ := proper.entry_of_listed hpath h
      obtain ⟨hnonempty, hwalk⟩ := walk_of_resolve clean hpath
      have hclean := Path.clean_join hnonempty hname clean
      have hjoined : (Path.join path name).isEmpty = false := by
        obtain ⟨between, hjoin, _⟩ := Path.exists_join hnonempty hname
        simp [hjoin, hnonempty]
      have horigin : Place.origin (Path.join path name) = .origin path := by
        rw [Place.origin, Path.isAbsolute_join hnonempty hname, Place.origin]
      have hwalked : tree.walk (.origin (Path.join path name)) (Path.names (Path.join path name)) =
          if FileTree.maximumName < name.length then .error .nameTooLong
          else .ok (.inside (names ++ [name])) := by
        rw [Path.names_join hnonempty hname, horigin, walk_append, hwalk]
        simp [Except.bind, walk, hdirectory, step_own hown]
      simp only [status, resolve, Text.beforeZero_eq_self hclean, hjoined, hwalked,
        Bool.false_eq_true, if_false]
      split
      next => exact .inr rfl
      next =>
        split
        next => exact .inr rfl
        next => exact .inl (by simp [bind, Except.bind, hentry])

end FileTree

end SnapshotAudit
