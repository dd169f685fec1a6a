import SnapshotAudit.Ordered.Map

/-!
This module contains finite sets that are kept as lists of strictly increasing elements: maps whose
values say nothing.
-/

namespace SnapshotAudit

abbrev SortedSet (κ : Type) [Ord κ] := SortedMap κ Unit

namespace SortedSet

variable {κ : Type} [Ord κ]

def elements (s : SortedSet κ) : List κ :=
  SortedMap.keys s

def least? (s : SortedSet κ) : Option κ :=
  s.elements.head?

variable [Std.TransOrd κ]

def add (s : SortedSet κ) (k : κ) : SortedSet κ :=
  SortedMap.insert s k ()

def ofElements (ks : List κ) : SortedSet κ :=
  ks.foldl add SortedMap.empty

@[simp]
theorem contains_add (s : SortedSet κ) (k q : κ)
    : (s.add k).contains q = (compare q k = .eq || s.contains q) := by
  simp only [add, SortedMap.contains, SortedMap.get?_insert]
  split <;> simp [*]

end SortedSet

end SnapshotAudit
