import Mathlib.Algebra.GroupWithZero.Nat
import Mathlib.Data.List.Basic
import Mathlib.Data.List.TakeWhile

/-!
This module contains facts about lists: what is at each place after one of the elements was replaced
or another one was put behind them, where a list is cut, what several lists hold together, and what
is counted in a list.
-/

namespace SnapshotAudit

theorem getElem?_set_eq_some {α : Type} {l : List α} {index : Nat} {old new : α}
    (found : l[index]? = some old) (i : Nat) (a : α)
    : (l.set index new)[i]? = some a ↔ (i = index ∧ a = new) ∨ (i ≠ index ∧ l[i]? = some a) := by
  obtain ⟨hlt, -⟩ := List.getElem?_eq_some_iff.mp found
  rw [List.getElem?_set]
  split
  next heq =>
    subst heq
    simp [hlt, eq_comm]
  next hne => simp [Ne.symm hne]

theorem set_eq_self {α : Type} {l : List α} {index : Nat} {a : α} (found : l[index]? = some a)
    : l.set index a = l := by
  apply List.ext_getElem?
  intro i
  rw [List.getElem?_set]
  split
  next heq =>
    subst heq
    rw [if_pos (List.getElem?_eq_some_iff.mp found).1, found]
  next => rfl

theorem getElem?_append_singleton {α : Type} (l : List α) (new : α) (i : Nat) (a : α)
    : (l ++ [new])[i]? = some a ↔ (i = l.length ∧ a = new) ∨ l[i]? = some a := by
  rw [List.getElem?_append]
  split
  next hlt => simp [Nat.ne_of_lt hlt]
  next hge =>
    by_cases heq : i = l.length
    . simp [heq, eq_comm]
    . have : i - l.length ≠ 0 := by omega
      simp [heq, List.getElem?_eq_none (Nat.not_lt.mp hge), this]

theorem append_singleton_eq_append_cons {α : Type} {past front back : List α} {last a : α}
    (h : past ++ [last] = front ++ a :: back)
    : (back = [] ∧ past = front ∧ last = a) ∨
      ∃ middle, back = middle ++ [last] ∧ past = front ++ a :: middle := by
  rcases List.eq_nil_or_concat back with rfl | ⟨middle, b, rfl⟩
  . obtain ⟨hpast, hlast⟩ := List.append_singleton_inj.mp h
    exact .inl ⟨rfl, hpast, hlast⟩
  . rw [List.concat_eq_append, ← List.cons_append, ← List.append_assoc] at h
    obtain ⟨hpast, rfl⟩ := List.append_singleton_inj.mp h
    exact .inr ⟨middle, List.concat_eq_append, hpast⟩

theorem takeWhile_dropWhile_iff {α : Type} {p : α → Bool} {l front back : List α}
    : (l.takeWhile p = front ∧ l.dropWhile p = back) ↔
      l = front ++ back ∧ (∀ a ∈ front, p a = true) ∧ ∀ a, back.head? = some a → p a = false := by
  constructor
  . rintro ⟨rfl, rfl⟩
    refine ⟨List.takeWhile_append_dropWhile.symm, fun a ha => List.mem_takeWhile_imp ha, ?_⟩
    intro a ha
    have hnot := List.head?_dropWhile_not p l
    rwa [ha] at hnot
  . rintro ⟨rfl, hfront, hback⟩
    rw [List.takeWhile_append_of_pos hfront, List.dropWhile_append_of_pos hfront]
    cases back with
    | nil => simp
    | cons a rest => simp [hback a rfl]

theorem exists_perm_flatten {α : Type} {lists : List (List α)} {i : Nat} {one : List α}
    (there : lists[i]? = some one)
    : ∃ rest, lists.flatten.Perm (one ++ rest) ∧
      (∀ new, (lists.set i new).flatten.Perm (new ++ rest)) ∧
      (lists.eraseIdx i).flatten.Perm rest := by
  obtain ⟨hlt, hget⟩ := List.getElem?_eq_some_iff.mp there
  have hlists : lists = lists.take i ++ one :: lists.drop (i + 1) := by
    rw [← hget, ← List.drop_eq_getElem_cons hlt, List.take_append_drop]
  refine ⟨(lists.take i).flatten ++ (lists.drop (i + 1)).flatten, ?_, ?_, ?_⟩
  . conv => lhs; rw [hlists, List.flatten_append, List.flatten_cons]
    exact List.perm_append_comm_assoc _ _ _
  . intro new
    rw [List.set_eq_take_append_cons_drop, if_pos hlt, List.flatten_append, List.flatten_cons]
    exact List.perm_append_comm_assoc _ _ _
  . rw [List.eraseIdx_eq_take_drop_succ, List.flatten_append]

theorem sum_map_set {α : Type} {l : List α} {index : Nat} {old : α} (new : α) (f : α → Nat)
    (found : l[index]? = some old)
    : ((l.set index new).map f).sum + f old = (l.map f).sum + f new := by
  induction l generalizing index with
  | nil => simp at found
  | cons first rest ih =>
    cases index with
    | zero =>
      obtain rfl : first = old := by simpa using found
      simp only [List.set_cons_zero, List.map_cons, List.sum_cons]
      omega
    | succ index =>
      have := ih (List.getElem?_cons_succ ▸ found)
      simp only [List.set_cons_succ, List.map_cons, List.sum_cons]
      omega

theorem flatMap_filter {α β : Type} (l : List α) (keep : α → Bool) (f : α → List β)
    : (l.filter keep).flatMap f = l.flatMap fun a => if keep a then f a else [] := by
  induction l with
  | nil => rfl
  | cons first rest ih =>
    rw [List.filter_cons, List.flatMap_cons, ← ih]
    split <;> simp

theorem forall₂_filter_filterMap {α β : Type} {related : α → β → Prop} {keep : α → Bool}
    {f : α → Option β} {l : List α}
    (hkeep : ∀ a ∈ l, keep a = true → ∃ b, f a = some b ∧ related a b)
    (hdrop : ∀ a ∈ l, keep a = false → f a = none)
    : List.Forall₂ related (l.filter keep) (l.filterMap f) := by
  induction l with
  | nil => exact .nil
  | cons first rest ih =>
    obtain ⟨hfirst, hkeep⟩ := List.forall_mem_cons.mp hkeep
    obtain ⟨hnone, hdrop⟩ := List.forall_mem_cons.mp hdrop
    have hrest := ih hkeep hdrop
    rw [List.filter_cons, List.filterMap_cons]
    cases hcase : keep first with
    | true =>
      obtain ⟨b, hb, hrelated⟩ := hfirst hcase
      rw [hb]
      exact .cons hrelated hrest
    | false =>
      rw [hnone hcase]
      exact hrest

theorem length_filter_range {α : Type} (l : List α) (p : α → Bool)
    : ((List.range l.length).filter fun i => l[i]?.any p).length = l.countP p := by
  induction l with
  | nil => rfl
  | cons first rest ih =>
    have hrest : ((List.range rest.length).map Nat.succ).filter
        (fun i => (first :: rest)[i]?.any p) =
          ((List.range rest.length).filter fun i => rest[i]?.any p).map Nat.succ :=
      List.filter_map
    rw [List.length_cons, List.range_succ_eq_map, List.filter_cons, hrest, List.countP_cons, ← ih]
    cases hfirst : p first <;> simp [hfirst]

theorem sum_map_add_ite {α : Type} (l : List α) (f : α → Nat) (p : α → Bool)
    : (l.map fun a => f a + if p a then 1 else 0).sum = (l.map f).sum + l.countP p := by
  induction l with
  | nil => rfl
  | cons first rest ih =>
    rw [List.map_cons, List.map_cons, List.sum_cons, List.sum_cons, List.countP_cons, ih]
    omega

theorem sum_countP_comm {α β : Type} (as : List α) (bs : List β) (r : α → β → Bool)
    : (as.map fun a => bs.countP (r a)).sum = (bs.map fun b => as.countP fun a => r a b).sum := by
  induction as with
  | nil => simp
  | cons first rest ih =>
    simp only [List.map_cons, List.sum_cons, List.countP_cons, ih]
    rw [sum_map_add_ite, Nat.add_comm]

theorem countP_mem_eq_length {α : Type} [BEq α] [LawfulBEq α] {as bs : List α} (has : as.Nodup)
    (hbs : bs.Nodup) (hsubset : bs ⊆ as) : as.countP (· ∈ bs) = bs.length := by
  rw [List.countP_eq_length_filter]
  apply List.Perm.length_eq
  apply (List.perm_ext_iff_of_nodup (has.filter _) hbs).mpr
  intro a
  simp only [List.mem_filter, decide_eq_true_eq]
  exact ⟨And.right, fun ha => ⟨hsubset ha, ha⟩⟩

/--
What a filter leaves of the front of a list comes first when the list is filtered before its front
is taken.
-/
theorem filter_take_comes_first {α : Type} (l : List α) (count : Nat) (keep : α → Bool)
    : (l.take count).filter keep <+: (l.filter keep).take count := by
  apply List.prefix_take_iff.mpr
  have hfront : l.take count <+: l := List.take_prefix count l
  refine ⟨hfront.filter keep, ?_⟩
  exact Nat.le_trans (List.length_filter_le _ _) (List.length_take_le count l)

theorem length_take_filter_le {α : Type} (l : List α) (count : Nat) (keep : α → Bool)
    : ((l.filter keep).take count).length ≤ (l.take count).length := by
  have := List.length_filter_le keep l
  simp only [List.length_take]
  omega

theorem take_filter_eq {α : Type} {l : List α} {count : Nat} {keep : α → Bool}
    (h : ∀ a ∈ l.take count, keep a = true) : (l.filter keep).take count = l.take count := by
  have hfirst := filter_take_comes_first l count keep
  rw [List.filter_eq_self.mpr h] at hfirst
  exact (hfirst.eq_of_length_le (length_take_filter_le l count keep)).symm

theorem length_new_le_one {α : Type} [BEq α] [LawfulBEq α] [DecidableEq α] {l : List α}
    (distinct : l.Nodup) (count : Nat) (a : α)
    : (((l.filter (· ≠ a)).take count).filter (· ∉ l.take count)).length ≤ 1 := by
  obtain ⟨more, hmore⟩ := filter_take_comes_first l count (· ≠ a)
  have hold : ((l.take count).filter (· ≠ a)).filter (· ∉ l.take count) = [] := by
    apply List.filter_eq_nil_iff.mpr
    intro b hb
    simpa using List.mem_of_mem_filter hb
  have hlength := length_take_filter_le l count (· ≠ a)
  have herase : (l.take count).length - 1 ≤ ((l.take count).filter (· ≠ a)).length := by
    have hnodup : (l.take count).Nodup := distinct.sublist (List.take_sublist count l)
    have hfilter : (l.take count).filter (· ≠ a) = (l.take count).erase a := by
      rw [hnodup.erase_eq_filter]
      apply List.filter_congr
      intro b _
      by_cases heq : b = a <;> simp [heq]
    rw [hfilter]
    exact List.le_length_erase
  rw [← hmore, List.length_append] at hlength
  rw [← hmore, List.filter_append, hold, List.nil_append]
  have := List.length_filter_le (· ∉ l.take count) more
  omega

end SnapshotAudit
