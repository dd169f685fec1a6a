import SnapshotAudit.FileTree.Path

/-!
This module contains paths that are joined from names: such a path is cut into exactly the names
that it was joined from.
-/

namespace SnapshotAudit

theorem Text.splitAt_of_not_mem {separator : UInt8} {t : Text} (h : separator ∉ t)
    : Text.splitAt separator t = [t] := by
  induction t with
  | nil => rfl
  | cons b rest ih =>
    simp only [List.mem_cons, not_or] at h
    simp [splitAt, Ne.symm h.1, ih h.2]

theorem Text.splitAt_append (separator : UInt8) (front back : Text)
    : Text.splitAt separator (front ++ separator :: back) =
      Text.splitAt separator front ++ Text.splitAt separator back := by
  induction front with
  | nil => simp [splitAt]
  | cons b rest ih =>
    rw [List.cons_append, splitAt, splitAt, ih]
    by_cases heq : b = separator
    . simp [heq]
    . simp only [heq, if_false]
      cases hrest : Text.splitAt separator rest with
      | nil => exact absurd hrest (splitAt_ne_nil separator rest)
      | cons piece pieces => rfl

namespace Path

structure IsName (name : Text) : Prop where
  nonempty : name ≠ []
  whole : separator ∉ name
  clean : 0 ∉ name

instance (name : Text) : Decidable (IsName name) :=
  decidable_of_iff (name ≠ [] ∧ separator ∉ name ∧ 0 ∉ name)
    ⟨fun h => ⟨h.1, h.2.1, h.2.2⟩, fun h => ⟨h.nonempty, h.whole, h.clean⟩⟩

structure Plain (path : Text) (names : List Text) : Prop where
  nonempty : path ≠ []
  clean : 0 ∉ path
  relative : isAbsolute path = false
  unslashed : path.getLast? ≠ some separator
  components_eq : components path = names

variable {path name : Text} {names : List Text}

theorem IsName.relative (h : IsName name) : isAbsolute name = false := by
  have hfirst : name.head? ≠ some separator := fun heq => h.whole (List.mem_of_head? heq)
  simp [isAbsolute, hfirst]

theorem IsName.unslashed (h : IsName name) : name.getLast? ≠ some separator :=
  fun heq => h.whole (List.mem_of_getLast? heq)

theorem IsName.components_eq (h : IsName name) : components name = [name] := by
  simp [components, Text.splitAt_of_not_mem h.whole, h.nonempty]

theorem IsName.plain (h : IsName name) : Plain name [name] :=
  ⟨h.nonempty, h.clean, h.relative, h.unslashed, h.components_eq⟩

theorem Plain.join_eq (h : Plain path names) (hname : IsName name)
    : join path name = path ++ separator :: name := by
  simp [join, hname.relative, h.nonempty, h.unslashed]

theorem Plain.join (h : Plain path names) (hname : IsName name)
    : Plain (join path name) (names ++ [name]) := by
  rw [h.join_eq hname]
  refine ⟨by simp, ?_, ?_, ?_, ?_⟩
  . simp [h.clean, hname.clean, separator]
  . obtain ⟨b, rest, rfl⟩ := List.exists_cons_of_ne_nil h.nonempty
    exact h.relative
  . rw [List.getLast?_append, List.getLast?_cons_of_ne_nil hname.nonempty]
    simpa [List.getLast?_eq_some_getLast hname.nonempty] using hname.unslashed
  . have hcomponents := h.components_eq
    have hlast := hname.components_eq
    rw [components] at hcomponents hlast ⊢
    rw [Text.splitAt_append, List.filter_append, hcomponents, hlast]

theorem Plain.names_eq (h : Plain path names) : Path.names path = names := by
  simp [Path.names, h.unslashed, h.components_eq]

theorem Plain.beforeZero_eq (h : Plain path names) : path.beforeZero = path :=
  Text.beforeZero_eq_self h.clean

end Path

end SnapshotAudit
