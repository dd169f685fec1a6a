/-!
This module contains finite maps that are kept as lists of entries with strictly increasing keys.
Since the list is the map, two maps with the same entries are equal, and walking over a map visits
its keys in their order.
-/

namespace SnapshotAudit

/--
A finite map from keys to values, kept in the order of its keys.
-/
structure SortedMap (κ ν : Type) [Ord κ] where
  entries : List (κ × ν)
  increasing : entries.Pairwise fun a b => compare a.1 b.1 = .lt
deriving DecidableEq

namespace SortedMap

variable {κ ν : Type} [Ord κ]

def empty : SortedMap κ ν :=
  ⟨[], .nil⟩

instance : EmptyCollection (SortedMap κ ν) where
  emptyCollection := empty

instance : Inhabited (SortedMap κ ν) where
  default := empty

def keys (m : SortedMap κ ν) : List κ :=
  m.entries.map Prod.fst

def values (m : SortedMap κ ν) : List ν :=
  m.entries.map Prod.snd

def size (m : SortedMap κ ν) : Nat :=
  m.entries.length

def isEmpty (m : SortedMap κ ν) : Bool :=
  m.entries.isEmpty

def lookup (k : κ) (es : List (κ × ν)) : Option ν :=
  match es with
  | [] => none
  | e :: rest => if compare k e.1 = .eq then some e.2 else lookup k rest

def get? (m : SortedMap κ ν) (k : κ) : Option ν :=
  lookup k m.entries

def getD (m : SortedMap κ ν) (k : κ) (fallback : ν) : ν :=
  (m.get? k).getD fallback

def contains (m : SortedMap κ ν) (k : κ) : Bool :=
  (m.get? k).isSome

/--
Give a key of an increasing list a value, which may depend on the one it has. A new entry goes to
its place.
-/
def place (k : κ) (f : Option ν → ν) (es : List (κ × ν)) : List (κ × ν) :=
  match es with
  | [] => [(k, f none)]
  | e :: rest =>
    match compare k e.1 with
    | .lt => (k, f none) :: e :: rest
    | .eq => (k, f (some e.2)) :: rest
    | .gt => e :: place k f rest

theorem mem_place {k : κ} {f : Option ν → ν} {es : List (κ × ν)} {e : κ × ν}
    (h : e ∈ place k f es) : e.1 = k ∨ e ∈ es := by
  induction es with
  | nil => exact .inl (by simp_all [place])
  | cons d rest ih =>
    simp only [place] at h
    split at h
    · rcases List.mem_cons.mp h with h | h
      · exact .inl (h ▸ rfl)
      · exact .inr h
    · rcases List.mem_cons.mp h with h | h
      · exact .inl (h ▸ rfl)
      · exact .inr (List.mem_cons_of_mem _ h)
    · rcases List.mem_cons.mp h with h | h
      · exact .inr (h ▸ List.mem_cons_self)
      · rcases ih h with h | h
        · exact .inl h
        · exact .inr (List.mem_cons_of_mem _ h)

theorem place_increasing [Std.TransOrd κ] (k : κ) (f : Option ν → ν) {es : List (κ × ν)}
    (h : es.Pairwise fun a b => compare a.1 b.1 = .lt)
    : (place k f es).Pairwise fun a b => compare a.1 b.1 = .lt := by
  induction es with
  | nil => simp [place]
  | cons e rest ih =>
    obtain ⟨hhead, hrest⟩ := List.pairwise_cons.mp h
    simp only [place]
    split
    case h_1 hlt =>
      refine List.pairwise_cons.mpr ⟨?_, h⟩
      intro b hb
      rcases List.mem_cons.mp hb with hb | hb
      · exact hb ▸ hlt
      · exact Std.TransCmp.lt_trans hlt (hhead b hb)
    case h_2 heq =>
      refine List.pairwise_cons.mpr ⟨?_, hrest⟩
      intro b hb
      exact Std.TransCmp.lt_of_eq_of_lt heq (hhead b hb)
    case h_3 hgt =>
      refine List.pairwise_cons.mpr ⟨?_, ih hrest⟩
      intro b hb
      rcases mem_place hb with hb | hb
      · rw [hb]
        exact Std.OrientedCmp.lt_of_gt hgt
      · exact hhead b hb

variable [Std.TransOrd κ]

def update (m : SortedMap κ ν) (k : κ) (f : Option ν → ν) : SortedMap κ ν :=
  ⟨place k f m.entries, place_increasing k f m.increasing⟩

def insert (m : SortedMap κ ν) (k : κ) (v : ν) : SortedMap κ ν :=
  m.update k fun _ => v

def insertIfNew (m : SortedMap κ ν) (k : κ) (v : ν) : SortedMap κ ν :=
  if m.contains k then m else m.insert k v

def erase (m : SortedMap κ ν) (k : κ) : SortedMap κ ν :=
  ⟨m.entries.filter fun e => compare k e.1 != .eq, m.increasing.filter _⟩

def filter (m : SortedMap κ ν) (keep : κ → ν → Bool) : SortedMap κ ν :=
  ⟨m.entries.filter fun e => keep e.1 e.2, m.increasing.filter _⟩

def modify (m : SortedMap κ ν) (k : κ) (f : ν → ν) : SortedMap κ ν :=
  match m.get? k with
  | none => m
  | some v => m.insert k (f v)

def ofList (es : List (κ × ν)) : SortedMap κ ν :=
  es.foldl (fun m e => m.insert e.1 e.2) empty

omit [Std.TransOrd κ] in
@[ext]
theorem ext {m n : SortedMap κ ν} (h : m.entries = n.entries) : m = n := by
  cases m
  cases n
  cases h
  rfl

omit [Std.TransOrd κ] in
@[simp]
theorem get?_empty (k : κ) : (empty : SortedMap κ ν).get? k = none := rfl

omit [Std.TransOrd κ] in
theorem lookup_eq_none {k : κ} {es : List (κ × ν)} (h : ∀ e ∈ es, compare k e.1 = .lt)
    : lookup k es = none := by
  induction es with
  | nil => rfl
  | cons e rest ih =>
    have he : compare k e.1 = .lt := h e List.mem_cons_self
    simp only [lookup, he]
    exact ih fun d hd => h d (List.mem_cons_of_mem _ hd)

theorem lookup_place (k q : κ) (f : Option ν → ν) (es : List (κ × ν))
    : ∃ earlier, ((es.Pairwise fun a b => compare a.1 b.1 = .lt) → earlier = lookup k es) ∧
      lookup q (place k f es) = if compare q k = .eq then some (f earlier) else lookup q es := by
  induction es with
  | nil => exact ⟨none, fun _ => rfl, rfl⟩
  | cons e rest ih =>
    simp only [place]
    split
    case h_1 hlt =>
      refine ⟨none, fun h => (lookup_eq_none fun d hd => ?_).symm, by simp [lookup]⟩
      rcases List.mem_cons.mp hd with hd | hd
      · exact hd ▸ hlt
      · exact Std.TransCmp.lt_trans hlt ((List.pairwise_cons.mp h).1 d hd)
    case h_2 heq =>
      refine ⟨some e.2, fun _ => by simp [lookup, heq], ?_⟩
      simp only [lookup]
      by_cases hq : compare q k = .eq
      · simp [hq]
      · have : compare q e.1 ≠ .eq := fun h =>
          hq (Std.TransCmp.eq_trans h (Std.OrientedCmp.eq_symm heq))
        simp [hq, this]
    case h_3 hgt =>
      obtain ⟨earlier, hearlier, ih⟩ := ih
      refine ⟨earlier, fun h => ?_, ?_⟩
      · simpa [lookup, hgt] using hearlier (List.pairwise_cons.mp h).2
      · simp only [lookup, ih]
        by_cases he : compare q e.1 = .eq
        · have : compare q k ≠ .eq := by
            intro h
            have hke : compare k e.1 = .eq :=
              Std.TransCmp.eq_trans (Std.OrientedCmp.eq_symm h) he
            simp [hke] at hgt
          simp [he, this]
        · simp [he]

theorem get?_update (m : SortedMap κ ν) (k q : κ) (f : Option ν → ν)
    : (m.update k f).get? q = if compare q k = .eq then some (f (m.get? k)) else m.get? q := by
  obtain ⟨earlier, hearlier, h⟩ := lookup_place k q f m.entries
  rw [hearlier m.increasing] at h
  exact h

theorem get?_insert (m : SortedMap κ ν) (k q : κ) (v : ν)
    : (m.insert k v).get? q = if compare q k = .eq then some v else m.get? q :=
  get?_update m k q fun _ => v

@[simp]
theorem get?_insert_self (m : SortedMap κ ν) (k : κ) (v : ν)
    : (m.insert k v).get? k = some v := by
  simp [get?_insert]

theorem get?_insertIfNew (m : SortedMap κ ν) (k q : κ) (v : ν)
    : (m.insertIfNew k v).get? q =
      if m.contains k then m.get? q else if compare q k = .eq then some v else m.get? q := by
  unfold insertIfNew
  split <;> simp [get?_insert]

theorem lookup_filter_ne (k q : κ) (es : List (κ × ν))
    : lookup q (es.filter fun e => compare k e.1 != .eq) =
      if compare q k = .eq then none else lookup q es := by
  induction es with
  | nil => simp [lookup]
  | cons e rest ih =>
    by_cases he : compare k e.1 = .eq
    · simp only [he, List.filter_cons, bne_self_eq_false, Bool.false_eq_true, if_false, ih, lookup]
      by_cases hq : compare q k = .eq
      · simp [hq]
      · have : compare q e.1 ≠ .eq := fun h =>
          hq (Std.TransCmp.eq_trans h (Std.OrientedCmp.eq_symm he))
        simp [hq, this]
    · have hne : (compare k e.1 != .eq) = true := by simpa using he
      simp only [hne, List.filter_cons, if_true, lookup, ih]
      by_cases hqe : compare q e.1 = .eq
      · have : compare q k ≠ .eq := fun h =>
          he (Std.TransCmp.eq_trans (Std.OrientedCmp.eq_symm h) hqe)
        simp [hqe, this]
      · simp [hqe]

theorem get?_erase (m : SortedMap κ ν) (k q : κ)
    : (m.erase k).get? q = if compare q k = .eq then none else m.get? q :=
  lookup_filter_ne k q m.entries

end SortedMap

end SnapshotAudit
