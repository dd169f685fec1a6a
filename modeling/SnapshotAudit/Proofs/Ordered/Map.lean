import SnapshotAudit.Ordered.Set

/-!
This module contains what can be said about ordered maps key by key, and how their entries, keys and
sizes follow from that.
-/

namespace SnapshotAudit

namespace SortedMap

section Plain

variable {κ ν : Type} [Ord κ]

theorem contains_eq_true_iff {m : SortedMap κ ν} {k : κ}
    : m.contains k = true ↔ ∃ v, m.get? k = some v := by
  simp [contains, Option.isSome_iff_exists]

@[simp]
theorem contains_empty (k : κ) : (empty : SortedMap κ ν).contains k = false := rfl

@[simp]
theorem length_keys (m : SortedMap κ ν) : m.keys.length = m.size := by
  simp [keys, size]

theorem get?_eq_none_of_isEmpty {m : SortedMap κ ν} (h : m.isEmpty = true) (k : κ)
    : m.get? k = none := by
  have hentries : m.entries = [] := by simpa [isEmpty] using h
  simp [get?, hentries, lookup]

theorem contains_eq_false_of_size_eq_zero {m : SortedMap κ ν} (h : m.size = 0) (k : κ)
    : m.contains k = false := by
  have hempty : m.isEmpty = true := by simpa [isEmpty, size] using h
  simp [contains, get?_eq_none_of_isEmpty hempty]

end Plain

section Distinct

variable {κ ν : Type} [Ord κ] [Std.LawfulEqOrd κ] [DecidableEq κ]

omit [DecidableEq κ] in
theorem ne_of_compare_eq_lt {a b : κ} (h : compare a b = .lt) : a ≠ b := by
  intro heq
  simp [heq] at h

omit [DecidableEq κ] in
theorem keys_nodup (m : SortedMap κ ν) : m.keys.Nodup := by
  apply List.pairwise_map.mpr
  apply m.increasing.imp
  intro a b hlt
  exact ne_of_compare_eq_lt hlt

omit [DecidableEq κ] in
theorem entries_nodup (m : SortedMap κ ν) : m.entries.Nodup :=
  List.Pairwise.of_map Prod.fst (fun _ _ hne heq => hne (congrArg Prod.fst heq)) m.keys_nodup

theorem lookup_eq_some_iff {es : List (κ × ν)} (h : es.Pairwise fun a b => compare a.1 b.1 = .lt)
    (k : κ) (v : ν) : lookup k es = some v ↔ (k, v) ∈ es := by
  induction es with
  | nil => simp [lookup]
  | cons e rest ih =>
    obtain ⟨hhead, hrest⟩ := List.pairwise_cons.mp h
    obtain ⟨k', v'⟩ := e
    simp only [lookup, Std.LawfulEqOrd.compare_eq_iff_eq, List.mem_cons, Prod.mk.injEq]
    split
    next heq =>
      subst heq
      -- an entry of the same key further back would have to be larger than the key itself
      have hlater : (k, v) ∉ rest := fun hmem => ne_of_compare_eq_lt (hhead (k, v) hmem) rfl
      simp [hlater, eq_comm]
    next hne =>
      rw [ih hrest]
      simp [hne]

theorem mem_entries {m : SortedMap κ ν} {k : κ} {v : ν}
    : (k, v) ∈ m.entries ↔ m.get? k = some v :=
  (lookup_eq_some_iff m.increasing k v).symm

theorem mem_keys {m : SortedMap κ ν} {k : κ} : k ∈ m.keys ↔ m.contains k = true := by
  rw [contains_eq_true_iff]
  simp only [keys, List.mem_map, Prod.exists, exists_and_right, exists_eq_right, mem_entries]

theorem mem_values {m : SortedMap κ ν} {v : ν} : v ∈ m.values ↔ ∃ k, m.get? k = some v := by
  simp only [values, List.mem_map, Prod.exists, exists_eq_right, mem_entries]

theorem eq_empty_of_get? {m : SortedMap κ ν} (h : ∀ k, m.get? k = none) : m = .empty := by
  apply ext
  apply List.eq_nil_iff_forall_not_mem.mpr
  rintro ⟨k, v⟩ hmem
  simp [mem_entries, h] at hmem

theorem contains_of_length_le {m : SortedMap κ ν} {ks : List κ}
    (hsubset : ∀ k, m.contains k = true → k ∈ ks) (hlength : ks.length ≤ m.size) {k : κ}
    (hk : k ∈ ks) : m.contains k = true := by
  apply Classical.byContradiction
  intro hnew
  -- with this key the keys would still be among those, and too many of them
  have hnodup : (k :: m.keys).Nodup :=
    List.nodup_cons.mpr ⟨fun hmem => hnew (mem_keys.mp hmem), m.keys_nodup⟩
  have hall : k :: m.keys ⊆ ks := by
    intro other hother
    cases List.mem_cons.mp hother with
    | inl heq => exact heq ▸ hk
    | inr hmem => exact hsubset other (mem_keys.mp hmem)
  have := hnodup.length_le_of_subset hall
  simp only [List.length_cons, length_keys] at this
  omega

end Distinct

variable {κ ν : Type} [Ord κ] [Std.TransOrd κ] [Std.LawfulEqOrd κ] [DecidableEq κ]

theorem ext_get? {m n : SortedMap κ ν} (h : ∀ k, m.get? k = n.get? k) : m = n := by
  have hmem (e : κ × ν) : e ∈ m.entries ↔ e ∈ n.entries := by
    rw [← Prod.eta e, mem_entries, mem_entries, h]
  apply ext
  apply ((List.perm_ext_iff_of_nodup m.entries_nodup n.entries_nodup).mpr hmem).eq_of_pairwise
    (fun a b _ _ hlt hgt => ?_) m.increasing n.increasing
  exact absurd hgt (by simp [Std.OrientedCmp.gt_of_lt hlt])

theorem get?_insert_eq (m : SortedMap κ ν) (k q : κ) (v : ν)
    : (m.insert k v).get? q = if q = k then some v else m.get? q := by
  rw [get?_insert]
  simp only [Std.LawfulEqOrd.compare_eq_iff_eq]

theorem get?_erase_eq (m : SortedMap κ ν) (k q : κ)
    : (m.erase k).get? q = if q = k then none else m.get? q := by
  rw [get?_erase]
  simp only [Std.LawfulEqOrd.compare_eq_iff_eq]

theorem contains_insert (m : SortedMap κ ν) (k q : κ) (v : ν)
    : (m.insert k v).contains q = true ↔ q = k ∨ m.contains q = true := by
  simp only [contains, get?_insert_eq]
  split <;> simp [*]

theorem contains_erase (m : SortedMap κ ν) (k q : κ)
    : (m.erase k).contains q = true ↔ q ≠ k ∧ m.contains q = true := by
  simp only [contains, get?_erase_eq]
  split <;> simp [*]

theorem get?_modify (m : SortedMap κ ν) (k q : κ) (f : ν → ν)
    : (m.modify k f).get? q = if q = k then (m.get? q).map f else m.get? q := by
  unfold modify
  split
  next hnone =>
    split
    next heq => simp [heq, hnone]
    next => rfl
  next v hsome =>
    rw [get?_insert_eq]
    split
    next heq => simp [heq, hsome]
    next => rfl

theorem get?_foldl_insertIfNew (ks : List κ) (f : κ → ν) (m : SortedMap κ ν) (q : κ)
    : (ks.foldl (fun m k => m.insertIfNew k (f k)) m).get? q =
      if m.contains q then m.get? q else if q ∈ ks then some (f q) else none := by
  induction ks generalizing m with
  | nil =>
    simp only [List.foldl_nil, List.not_mem_nil, if_false]
    split
    next => rfl
    next h => simpa [contains] using h
  | cons k rest ih =>
    rw [List.foldl_cons, ih]
    simp only [contains, get?_insertIfNew, Std.LawfulEqOrd.compare_eq_iff_eq, List.mem_cons]
    by_cases hk : (m.get? k).isSome
    . by_cases hq : q = k
      . simp [hk, hq]
      . simp [hk, hq]
    . by_cases hq : q = k
      . subst hq
        simp [hk]
      . simp [hk, hq]

theorem get?_ofList {es : List (κ × ν)} (h : (es.map Prod.fst).Nodup) (q : κ) (v : ν)
    : (ofList es).get? q = some v ↔ (q, v) ∈ es := by
  suffices hfold : ∀ m : SortedMap κ ν, (∀ e ∈ es, m.get? e.1 = none) →
      ((es.foldl (fun m e => m.insert e.1 e.2) m).get? q = some v ↔
        (q, v) ∈ es ∨ m.get? q = some v) by
    have := hfold empty (fun _ _ => rfl)
    simpa [ofList] using this
  induction es with
  | nil => intro m _; simp
  | cons e rest ih =>
    intro m hnew
    simp only [List.map_cons, List.nodup_cons] at h
    rw [List.foldl_cons, ih h.2]
    . rw [get?_insert_eq]
      simp only [List.mem_cons]
      by_cases hq : q = e.1
      . have hrest : (q, v) ∉ rest := fun hmem => h.1 (List.mem_map.mpr ⟨_, hmem, hq⟩)
        have hold : m.get? q = none := hq ▸ hnew e List.mem_cons_self
        subst hq
        simp [hrest, hold, Prod.ext_iff, eq_comm]
      . have hne : (q, v) ≠ e := fun heq => hq (heq ▸ rfl)
        simp [hq, hne]
    . intro d hd
      have hne : d.1 ≠ e.1 := fun heq => h.1 (List.mem_map.mpr ⟨d, hd, heq⟩)
      rw [get?_insert_eq, if_neg hne]
      exact hnew d (List.mem_cons_of_mem _ hd)

/-!
How many entries there are, in terms of the keys.
-/

omit [Std.TransOrd κ] in
theorem size_le_length {m : SortedMap κ ν} {ks : List κ}
    (h : ∀ k, m.contains k = true → k ∈ ks) : m.size ≤ ks.length := by
  rw [← length_keys]
  exact m.keys_nodup.length_le_of_subset fun k hk => h k (mem_keys.mp hk)

omit [Std.TransOrd κ] in
theorem length_le_size {m : SortedMap κ ν} {ks : List κ} (nodup : ks.Nodup)
    (h : ∀ k ∈ ks, m.contains k = true) : ks.length ≤ m.size := by
  rw [← length_keys]
  exact nodup.length_le_of_subset fun k hk => mem_keys.mpr (h k hk)

theorem size_insert_le (m : SortedMap κ ν) (k : κ) (v : ν) : (m.insert k v).size ≤ m.size + 1 := by
  rw [← length_keys m, ← List.length_cons (a := k)]
  apply size_le_length
  intro q hq
  rw [List.mem_cons, mem_keys]
  exact (contains_insert m k q v).mp hq

theorem size_insert_of_new {m : SortedMap κ ν} {k : κ} (new : m.contains k = false) (v : ν)
    : (m.insert k v).size = m.size + 1 := by
  apply Nat.le_antisymm (m.size_insert_le k v)
  rw [← length_keys m, ← List.length_cons (a := k)]
  apply length_le_size
  . refine List.nodup_cons.mpr ⟨fun hk => ?_, m.keys_nodup⟩
    rw [mem_keys.mp hk] at new
    cases new
  . intro q hq
    rw [List.mem_cons, mem_keys] at hq
    exact (contains_insert m k q v).mpr hq

theorem size_erase_add_one {m : SortedMap κ ν} {k : κ} (h : m.contains k = true)
    : (m.erase k).size + 1 = m.size := by
  apply Nat.le_antisymm
  . rw [← length_keys, ← List.length_cons (a := k)]
    apply length_le_size
    . refine List.nodup_cons.mpr ⟨fun hk => ?_, keys_nodup _⟩
      exact ((contains_erase m k k).mp (mem_keys.mp hk)).1 rfl
    . intro q hq
      rw [List.mem_cons, mem_keys, contains_erase] at hq
      rcases hq with rfl | ⟨_, hq⟩
      . exact h
      . exact hq
  . rw [← length_keys (m.erase k), ← List.length_cons (a := k)]
    apply size_le_length
    intro q hq
    rw [List.mem_cons, mem_keys, contains_erase]
    by_cases heq : q = k
    . exact .inl heq
    . exact .inr ⟨heq, hq⟩

end SortedMap

namespace SortedSet

variable {κ : Type} [Ord κ] [Std.TransOrd κ] [Std.LawfulEqOrd κ] [DecidableEq κ]

theorem contains_foldl_add (ks : List κ) (s : SortedSet κ) (q : κ)
    : (ks.foldl add s).contains q = true ↔ q ∈ ks ∨ s.contains q = true := by
  induction ks generalizing s with
  | nil => simp
  | cons k rest ih =>
    rw [List.foldl_cons, ih, add, SortedMap.contains_insert, List.mem_cons]
    constructor
    . rintro (h | h | h) <;> simp [h]
    . rintro ((h | h) | h) <;> simp [h]

theorem contains_ofElements (ks : List κ) (q : κ)
    : (ofElements ks).contains q = true ↔ q ∈ ks := by
  rw [ofElements, contains_foldl_add]
  simp

theorem ofElements_congr {ks ls : List κ} (h : ∀ k, k ∈ ks ↔ k ∈ ls)
    : ofElements ks = ofElements ls := by
  apply SortedMap.ext_get?
  intro k
  have hcontains : ((ofElements ks).get? k).isSome = ((ofElements ls).get? k).isSome := by
    rw [Bool.eq_iff_iff]
    exact (contains_ofElements ks k).trans ((h k).trans (contains_ofElements ls k).symm)
  -- the value of an element says nothing, so that it is enough to know that there is one
  revert hcontains
  cases (ofElements ks).get? k <;> cases (ofElements ls).get? k <;> simp

omit [Std.TransOrd κ] in
theorem mem_elements {s : SortedSet κ} {q : κ} : q ∈ s.elements ↔ s.contains q = true :=
  SortedMap.mem_keys

theorem least?_eq_some_iff {s : SortedSet κ} {k : κ}
    : s.least? = some k ↔
      s.contains k = true ∧ ∀ q, s.contains q = true → q = k ∨ compare k q = .lt := by
  have hincreasing : s.elements.Pairwise fun a b => compare a b = .lt :=
    List.pairwise_map.mpr s.increasing
  simp only [← mem_elements, least?]
  generalize s.elements = ks at hincreasing
  cases ks with
  | nil => simp
  | cons first rest =>
    obtain ⟨hfirst, _⟩ := List.pairwise_cons.mp hincreasing
    simp only [List.head?_cons, Option.some.injEq, List.mem_cons]
    constructor
    . rintro rfl
      exact ⟨.inl rfl, fun q hq => hq.imp_right (hfirst q)⟩
    . rintro ⟨hk | hk, hleast⟩
      . exact hk.symm
      . -- neither of two elements can be less than the other
        rcases hleast first (.inl rfl) with heq | hlt
        . exact heq
        . exact absurd (hfirst k hk) (by simp [Std.OrientedCmp.gt_of_lt hlt])

omit [Std.TransOrd κ] [Std.LawfulEqOrd κ] [DecidableEq κ] in
theorem exists_least? {s : SortedSet κ} (h : 0 < s.size) : ∃ k, s.least? = some k := by
  have hlength : s.elements.length = s.size := SortedMap.length_keys s
  cases helements : s.elements with
  | nil =>
    rw [helements, List.length_nil] at hlength
    omega
  | cons first rest => exact ⟨first, by rw [least?, helements, List.head?_cons]⟩

end SortedSet

end SnapshotAudit
