import SnapshotAudit.Proofs.Check.Conducting
import SnapshotAudit.Proofs.Progress

/-!
This module contains who has what in hand. Only threads of the pool inspect, and one that does has
nothing else in hand, so that all other threads come to an end by themselves.
-/

namespace SnapshotAudit

namespace CheckAct

def Inspects (acts : List CheckAct) : Prop :=
  ∃ c, acts = [.inspect c]

def Swift (acts : List CheckAct) : Prop :=
  ∀ c, .inspect c ∉ acts

variable {acts more : List CheckAct}

theorem Swift.append (h : Swift acts) (hmore : Swift more) : Swift (acts ++ more) := by
  intro c hmem
  rcases List.mem_append.mp hmem with hmem | hmem
  . exact h c hmem
  . exact hmore c hmem

theorem swift_of_head {act : CheckAct} (h : Inspects (act :: acts) ∨ Swift (act :: acts))
    (hact : ∀ c, act ≠ .inspect c) : Swift (act :: acts) := by
  rcases h with ⟨c, heq⟩ | hswift
  . exact absurd (List.cons.inj heq).1 (hact c)
  . exact hswift

theorem eq_nil_of_inspect {c : Nat} (h : Inspects (.inspect c :: acts) ∨ Swift (.inspect c :: acts))
    : acts = [] := by
  rcases h with ⟨d, heq⟩ | hswift
  . exact (List.cons.inj heq).2
  . exact absurd List.mem_cons_self (hswift c)

def weight (act : CheckAct) : Nat :=
  match act with
  | record _ _ _ => 2
  | _ => 1

end CheckAct

namespace Conducting

open CheckAct

variable {s next : Conducting} {threads : Nat} {act : CheckAct} {acts rest : List CheckAct}

/--
Every thread of the pool is free or has something in hand, and nobody else inspects.
-/
structure Staffed (threads : Nat) (s : Conducting) : Prop where
  threads : s.pool.free + s.crew.length = threads
  waiting : ∀ acts ∈ s.pool.waiting, Inspects acts ∨ Swift acts
  crew : ∀ acts ∈ s.crew, Inspects acts ∨ Swift acts
  others : ∀ acts ∈ s.others, Swift acts

theorem staffed_start (self : Text) (timeout threads : Nat)
    : Staffed threads (start self timeout threads) := by
  constructor <;> simp [start, Pool.ofThreads]

theorem swift_openingActs (self : Text) (c : Nat) (run : CheckRun)
    : Swift (openingActs self c run) := by
  intro d
  unfold openingActs
  split
  next => simp
  next => split <;> simp

theorem swift_replyActs (c : Nat) (node : Text) (result : DispatchResult)
    : Swift (replyActs c node result) := by
  intro d
  cases result <;> simp [replyActs]

theorem swift_perform (hact : ∀ c, act ≠ .inspect c) : Swift (s.perform act).2 := by
  intro c
  cases act with
  | inspect d => exact absurd rfl (hact d)
  | enlist _ | dispatch _ _ | post _ _ | tell _ _ | deliver _ _ => simp [perform]
  | record d outcome answered =>
    cases hfound : s.checks[d]? <;> simp [perform, hfound]

theorem crew_perform (s : Conducting) (act : CheckAct) : (s.perform act).1.crew = s.crew := by
  cases act with
  | record d outcome answered => cases hfound : s.checks[d]? <;> simp [perform, hfound]
  | _ => rfl

theorem others_perform (s : Conducting) (act : CheckAct) : (s.perform act).1.others = s.others := by
  cases act with
  | record d outcome answered => cases hfound : s.checks[d]? <;> simp [perform, hfound]
  | _ => rfl

theorem pool_perform (s : Conducting) (act : CheckAct)
    : (s.perform act).1.pool = s.pool ∨
      ∃ acts, (Inspects acts ∨ Swift acts) ∧ (s.perform act).1.pool = s.pool.post acts := by
  cases act with
  | enlist c => exact .inr ⟨[.inspect c], .inl ⟨c, rfl⟩, rfl⟩
  | post c notices => exact .inr ⟨notices.map (.tell c), .inr (by simp [Swift]), rfl⟩
  | record d outcome answered =>
    apply Or.inl
    cases hfound : s.checks[d]? <;> simp [perform, hfound]
  | _ => exact .inl rfl

namespace Staffed

variable (h : Staffed threads s)

include h

theorem begin (hpool : next.pool = s.pool) (hcrew : next.crew = s.crew)
    (hothers : next.others = s.others ++ [acts]) (hacts : Swift acts) : Staffed threads next where
  threads := by rw [hpool, hcrew, h.threads]
  waiting := by rw [hpool]; exact h.waiting
  crew := by rw [hcrew]; exact h.crew
  others := by
    rw [hothers]
    intro other hother
    rcases List.mem_append.mp hother with hother | hother
    . exact h.others other hother
    . exact List.mem_singleton.mp hother ▸ hacts

theorem perform (act : CheckAct) : Staffed threads (s.perform act).1 := by
  constructor
  . rw [crew_perform, ← h.threads]
    rcases pool_perform s act with hpool | ⟨_, _, hpool⟩ <;> simp [hpool, Pool.post]
  . intro acts hacts
    rcases pool_perform s act with hpool | ⟨new, hnew, hpool⟩
    . rw [hpool] at hacts
      exact h.waiting acts hacts
    . rw [hpool, Pool.post, List.mem_append, List.mem_singleton] at hacts
      rcases hacts with hacts | rfl
      . exact h.waiting acts hacts
      . exact hnew
  . rw [crew_perform]
    exact h.crew
  . rw [others_perform]
    exact h.others

theorem set_crew (acts : List CheckAct) (i : Nat) (hacts : Inspects acts ∨ Swift acts)
    : Staffed threads { s with crew := s.crew.set i acts } where
  threads := by rw [List.length_set, h.threads]
  waiting := h.waiting
  crew other hother := by
    rcases List.mem_or_eq_of_mem_set hother with hother | rfl
    . exact h.crew other hother
    . exact hacts
  others := h.others

theorem set_others (acts : List CheckAct) (i : Nat) (hacts : Swift acts)
    : Staffed threads { s with others := s.others.set i acts } where
  threads := h.threads
  waiting := h.waiting
  crew := h.crew
  others other hother := by
    rcases List.mem_or_eq_of_mem_set hother with hother | rfl
    . exact h.others other hother
    . exact hacts

theorem step (step : Step s next) : Staffed threads next := by
  cases step with
  | check job desc members => exact h.begin rfl rfl rfl (swift_openingActs _ _ _)
  | reply c k node result found asked => exact h.begin rfl rfl rfl (swift_replyActs _ _ _)
  | deadline c k conclusion found expires => exact h.begin rfl rfl rfl (by simp [Swift])
  | cancel c k conclusion alive found cancels => exact h.begin rfl rfl rfl (by simp [Swift])
  | abandon => exact ⟨h.threads, h.waiting, h.crew, h.others⟩
  | takeUp acts pool waits =>
    obtain ⟨hwaiting, hfree, -⟩ := Pool.takeUp?_eq_some waits
    have hthreads := h.threads
    have hkept := h.waiting
    rw [hwaiting] at hkept
    refine ⟨?_, fun other hother => hkept other (List.mem_cons_of_mem _ hother), ?_, h.others⟩
    . rw [List.length_append, List.length_singleton]
      dsimp only
      omega
    . intro other hother
      rcases List.mem_append.mp hother with hother | hother
      . exact h.crew other hother
      . exact List.mem_singleton.mp hother ▸ hkept acts List.mem_cons_self
  | leave i done =>
    obtain ⟨hlt, -⟩ := List.getElem?_eq_some_iff.mp done
    have hthreads := h.threads
    refine ⟨?_, h.waiting, fun other hother => h.crew other (List.mem_of_mem_eraseIdx hother),
      h.others⟩
    rw [List.length_eraseIdx_of_lt hlt]
    simp only [Pool.release]
    omega
  | inspected i c rest outcome there =>
    obtain rfl := eq_nil_of_inspect (h.crew _ (List.mem_of_getElem? there))
    exact h.set_crew _ i (.inr (by simp [Swift]))
  | work i act rest there =>
    have hacts := h.crew _ (List.mem_of_getElem? there)
    have hcrew := crew_perform s act
    have hset := (h.perform act).set_crew ((s.perform act).2 ++ rest) i
    rw [hcrew] at hset
    apply hset
    by_cases hact : ∃ c, act = .inspect c
    . -- who inspects goes on with that and has nothing else in hand
      obtain ⟨c, rfl⟩ := hact
      exact hacts
    . have hne (c : Nat) : act ≠ .inspect c := fun heq => hact ⟨c, heq⟩
      have hswift := swift_of_head hacts hne
      exact .inr ((swift_perform hne).append fun c hmem => hswift c (List.mem_cons_of_mem _ hmem))
  | go i act rest there =>
    have hswift := h.others _ (List.mem_of_getElem? there)
    have hne (c : Nat) : act ≠ .inspect c := fun heq => hswift c (heq ▸ List.mem_cons_self)
    have hothers := others_perform s act
    have hset := (h.perform act).set_others ((s.perform act).2 ++ rest) i
    rw [hothers] at hset
    apply hset
    exact (swift_perform hne).append fun c hmem => hswift c (List.mem_cons_of_mem _ hmem)

end Staffed

theorem Reached.staffed {self : Text} {timeout : Nat} (h : Reached self timeout threads s)
    : Staffed threads s := by
  induction h with
  | start => exact staffed_start self timeout threads
  | step _ step ih => exact ih.step step

/-!
The threads that are not of the pool wait for nobody.
-/

inductive Goes (s : Conducting) : Conducting → Prop where
  | go (i : Nat) (act : CheckAct) (rest : List CheckAct)
    (there : s.others[i]? = some (act :: rest))
    : Goes s { (s.perform act).1 with others := s.others.set i ((s.perform act).2 ++ rest) }

theorem Goes.step (goes : Goes s next) : Step s next := by
  cases goes with
  | go i act rest there => exact .go i act rest there

def burden (s : Conducting) : Nat :=
  (s.others.map fun acts => (acts.map weight).sum).sum

theorem weight_perform_lt (hact : ∀ c, act ≠ .inspect c)
    : ((s.perform act).2.map weight).sum < act.weight := by
  cases act with
  | inspect c => exact absurd rfl (hact c)
  | enlist _ | dispatch _ _ | post _ _ | tell _ _ | deliver _ _ => simp [perform, weight]
  | record c outcome answered =>
    cases hfound : s.checks[c]? with
    | none => simp [perform, hfound, weight]
    | some k =>
      cases hdecides : (k.run.record outcome).2 <;> simp [perform, hfound, hdecides, weight]

theorem Staffed.burden_lt (h : Staffed threads s) (goes : Goes s next)
    : next.burden < s.burden := by
  cases goes with
  | go i act rest there =>
    have hswift := h.others _ (List.mem_of_getElem? there)
    have hless : ((s.perform act).2.map weight).sum < act.weight :=
      weight_perform_lt fun c heq => hswift c (heq ▸ List.mem_cons_self)
    have hsum := sum_map_set ((s.perform act).2 ++ rest) (fun acts => (acts.map weight).sum) there
    simp only [burden, List.map_append, List.sum_append, List.map_cons, List.sum_cons] at hsum ⊢
    omega

theorem exists_goes (hacts : acts ∈ s.others) (hnil : acts ≠ []) : ∃ next, Goes s next := by
  obtain ⟨i, hi⟩ := List.mem_iff_getElem?.mp hacts
  obtain ⟨act, rest, rfl⟩ := List.exists_cons_of_ne_nil hnil
  exact ⟨_, .go i act rest hi⟩

end Conducting

end SnapshotAudit
