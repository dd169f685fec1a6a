import SnapshotAudit.Pool
import SnapshotAudit.Proofs.Check.Steps
import SnapshotAudit.Proofs.Lists

/-!
This module contains a coordinator that conducts checks: what its threads have in hand and do step
by step, those of its pool and all others, while results of jobs come in, local inspections return,
deadlines pass and checks are cancelled. What matters about it later is kept as news, the latest
last.
-/

namespace SnapshotAudit

/--
What a thread does without being interrupted: it leaves the local inspection of a check to the pool,
sends a node its job, inspects, records an outcome, which may be an answer or stand for a missing
one, leaves notices to the pool, gives a node notice, or delivers a result.
-/
inductive CheckAct where
  | enlist (check : Nat)
  | dispatch (check : Nat) (node : Text)
  | inspect (check : Nat)
  | record (check : Nat) (outcome : NodeOutcome) (answered : Bool)
  | post (check : Nat) (notices : List Notice)
  | tell (check : Nat) (notice : Notice)
  | deliver (check : Nat) (result : CheckResult)
deriving DecidableEq

inductive CheckEnd where
  | deadline
  | cancelled
deriving DecidableEq

/--
What has happened in a check: an outcome was recorded, a job ran out of time so that its node is to
be given notice, the check ended early so that those nodes are to be given notice which are silent,
or a node was given notice.
-/
inductive CheckNews where
  | recorded (check : Nat) (node : Text) (answered : Bool)
  | overdue (check : Nat) (node : Text)
  | ended (check : Nat) (how : CheckEnd) (silent : List Text)
  | told (check : Nat) (notice : Notice)
deriving DecidableEq

structure CheckInHand where
  run : CheckRun
  asked : List Text
deriving DecidableEq

/--
A coordinator: its pool and what the threads of the pool have still to do, what all other threads
have still to do, its checks and the news of them.
-/
structure Conducting where
  self : Text
  timeout : Nat
  alive : Bool
  pool : Pool (List CheckAct)
  crew : List (List CheckAct)
  others : List (List CheckAct)
  checks : List CheckInHand
  past : List CheckNews

namespace Conducting

def start (self : Text) (timeout threads : Nat) : Conducting :=
  ⟨self, timeout, true, .ofThreads threads, [], [], [], []⟩

def openingActs (self : Text) (c : Nat) (run : CheckRun) : List CheckAct :=
  if run.finished then []
  else
    (if self ∈ run.participants then [.enlist c] else []) ++
      (CheckRun.remoteOf self run.participants).map (.dispatch c)

/--
What a dispatcher's thread does with the result of a job. The notice for a job that ran out of time
is left to the pool before the outcome is recorded.
-/
def replyActs (c : Nat) (node : Text) (result : DispatchResult) : List CheckAct :=
  match result with
  | .timedOut _ => [.post c [⟨node, .dispatcher⟩], .record c (result.contribution node) false]
  | _ => [.record c (result.contribution node) true]

def replyNews (c : Nat) (node : Text) (result : DispatchResult) : List CheckNews :=
  match result with
  | .timedOut _ => [.overdue c node]
  | _ => []

/--
Whether an outcome is one that a check still takes in.
-/
def counts (run : CheckRun) (outcome : NodeOutcome) : Bool :=
  !(run.finished || run.outcomes.contains outcome.node)

def perform (s : Conducting) (act : CheckAct) : Conducting × List CheckAct :=
  match act with
  | .enlist c => ({ s with pool := s.pool.post [.inspect c] }, [])
  | .dispatch c node =>
    ({ s with checks := s.checks.modify c fun k => { k with asked := k.asked ++ [node] } }, [])
  | .inspect c => (s, [.inspect c])
  | .record c outcome answered =>
    match s.checks[c]? with
    | none => (s, [])
    | some k =>
      ({ s with
          checks := s.checks.set c { k with run := (k.run.record outcome).1 }
          past := s.past ++
            if counts k.run outcome then [.recorded c outcome.node answered] else [] },
        ((k.run.record outcome).2.map fun conclusion => .deliver c conclusion.result).toList)
  | .post c notices => ({ s with pool := s.pool.post (notices.map (.tell c)) }, [])
  | .tell c notice => ({ s with past := s.past ++ [.told c notice] }, [])
  | .deliver c result =>
    ({ s with checks := s.checks.modify c fun k => { k with run := k.run.deliver result } }, [])

def conclude (s : Conducting) (c : Nat) (k : CheckInHand) (how : CheckEnd) (run : CheckRun)
    (silent : List Text) (acts : List CheckAct) : Conducting :=
  { s with
    checks := s.checks.set c { k with run }
    others := s.others ++ [acts]
    past := s.past ++ [.ended c how silent] }

/--
What can happen. After a deadline the notices are left to the pool; who cancels a check gives them
himself.
-/
inductive Step (s : Conducting) : Conducting → Prop where
  | check (job : UInt64) (desc : SnapshotDescriptor) (members : List Member)
    : Step s { s with
        checks := s.checks ++ [⟨.start job desc members, []⟩]
        others := s.others ++
          [openingActs s.self s.checks.length (.start job desc members)] }
  | reply (c : Nat) (k : CheckInHand) (node : Text) (result : DispatchResult)
    (found : s.checks[c]? = some k) (asked : node ∈ k.asked)
    : Step s { s with
        checks := s.checks.set c { k with asked := k.asked.erase node }
        others := s.others ++ [replyActs c node result]
        past := s.past ++ replyNews c node result }
  | deadline (c : Nat) (k : CheckInHand) (conclusion : Conclusion) (found : s.checks[c]? = some k)
    (expires : (k.run.expire s.timeout).2 = some conclusion)
    : Step s (s.conclude c k .deadline (k.run.expire s.timeout).1 conclusion.silent
        [.post c (conclusion.notices s.self), .deliver c conclusion.result])
  | cancel (c : Nat) (k : CheckInHand) (conclusion : Conclusion) (alive : s.alive = true)
    (found : s.checks[c]? = some k) (cancels : k.run.cancel.2 = some conclusion)
    : Step s (s.conclude c k .cancelled k.run.cancel.1 conclusion.silent
        ((conclusion.notices s.self).map (.tell c) ++ [.deliver c conclusion.result]))
  | abandon : Step s { s with alive := false }
  | takeUp (acts : List CheckAct) (pool : Pool (List CheckAct))
    (waits : s.pool.takeUp? = some (acts, pool))
    : Step s { s with pool, crew := s.crew ++ [acts] }
  | leave (i : Nat) (done : s.crew[i]? = some [])
    : Step s { s with pool := s.pool.release, crew := s.crew.eraseIdx i }
  | inspected (i c : Nat) (rest : List CheckAct) (outcome : NodeOutcome)
    (there : s.crew[i]? = some (.inspect c :: rest))
    : Step s { s with
        crew := s.crew.set i (.record c { outcome with node := s.self } true :: rest) }
  | work (i : Nat) (act : CheckAct) (rest : List CheckAct)
    (there : s.crew[i]? = some (act :: rest))
    : Step s { (s.perform act).1 with crew := s.crew.set i ((s.perform act).2 ++ rest) }
  | go (i : Nat) (act : CheckAct) (rest : List CheckAct)
    (there : s.others[i]? = some (act :: rest))
    : Step s { (s.perform act).1 with others := s.others.set i ((s.perform act).2 ++ rest) }

inductive Reached (self : Text) (timeout threads : Nat) : Conducting → Prop where
  | start : Reached self timeout threads (start self timeout threads)
  | step {s next : Conducting} (reached : Reached self timeout threads s) (step : Step s next)
    : Reached self timeout threads next

/-!
What is in hand, apart from who has it.
-/

def hands (s : Conducting) : List CheckAct :=
  s.pool.waiting.flatten ++ (s.crew.flatten ++ s.others.flatten)

structure Change (s next : Conducting) (gone come : List CheckAct) (news : List CheckNews)
    : Prop where
  self : next.self = s.self
  hands : ∃ rest, s.hands.Perm (gone ++ rest) ∧ next.hands.Perm (come ++ rest)
  past : next.past = s.past ++ news

variable {s next : Conducting} {gone come : List CheckAct} {news : List CheckNews}
variable {act : CheckAct}

theorem Change.mem_of_gone (h : Change s next gone come news) (hact : act ∈ gone)
    : act ∈ s.hands := by
  obtain ⟨rest, hbefore, -⟩ := h.hands
  exact hbefore.mem_iff.mpr (List.mem_append_left _ hact)

theorem Change.mem_of_come (h : Change s next gone come news) (hact : act ∈ come)
    : act ∈ next.hands := by
  obtain ⟨rest, -, hafter⟩ := h.hands
  exact hafter.mem_iff.mpr (List.mem_append_left _ hact)

theorem Change.come_or_mem (h : Change s next gone come news) (hact : act ∈ next.hands)
    : act ∈ come ∨ act ∈ s.hands := by
  obtain ⟨rest, hbefore, hafter⟩ := h.hands
  cases List.mem_append.mp (hafter.mem_iff.mp hact) with
  | inl hcome => exact .inl hcome
  | inr hrest => exact .inr (hbefore.mem_iff.mpr (List.mem_append_right _ hrest))

theorem Change.gone_or_mem (h : Change s next gone come news) (hact : act ∈ s.hands)
    : act ∈ gone ∨ act ∈ next.hands := by
  obtain ⟨rest, hbefore, hafter⟩ := h.hands
  cases List.mem_append.mp (hbefore.mem_iff.mp hact) with
  | inl hgone => exact .inl hgone
  | inr hrest => exact .inr (hafter.mem_iff.mpr (List.mem_append_right _ hrest))

inductive Move (s next : Conducting) : Prop where
  | shift (checks : next.checks = s.checks) (change : Change s next [] [] [])
  | opened (job : UInt64) (desc : SnapshotDescriptor) (members : List Member)
    (checks : next.checks = s.checks ++ [⟨.start job desc members, []⟩])
    (change : Change s next [] (openingActs s.self s.checks.length (.start job desc members)) [])
  | replied (c : Nat) (k : CheckInHand) (node : Text) (result : DispatchResult)
    (found : s.checks[c]? = some k) (asked : node ∈ k.asked)
    (checks : next.checks = s.checks.set c { k with asked := k.asked.erase node })
    (change : Change s next [] (replyActs c node result) (replyNews c node result))
  | ended (c : Nat) (k : CheckInHand) (how : CheckEnd) (run : CheckRun) (result : CheckResult)
    (acts : List CheckAct) (found : s.checks[c]? = some k) (running : k.run.finished = false)
    (closed : run.finished = true) (participants : run.participants = k.run.participants)
    (checks : next.checks = s.checks.set c { k with run })
    (gives : acts = [.post c (Conclusion.notices ⟨result, k.run.silent⟩ s.self),
        .deliver c result] ∨
      acts = (Conclusion.notices ⟨result, k.run.silent⟩ s.self).map (.tell c) ++
        [.deliver c result])
    (change : Change s next [] acts [.ended c how k.run.silent])
  | enlisted (c : Nat) (checks : next.checks = s.checks)
    (change : Change s next [.enlist c] [.inspect c] [])
  | dispatched (c : Nat) (node : Text)
    (checks : next.checks =
      s.checks.modify c fun k => { k with asked := k.asked ++ [node] })
    (change : Change s next [.dispatch c node] [] [])
  | inspected (c : Nat) (outcome : NodeOutcome) (own : outcome.node = s.self)
    (checks : next.checks = s.checks)
    (change : Change s next [.inspect c] [.record c outcome true] [])
  | recorded (c : Nat) (k : CheckInHand) (outcome : NodeOutcome) (answered : Bool)
    (acts : List CheckAct) (found : s.checks[c]? = some k)
    (checks : next.checks = s.checks.set c { k with run := (k.run.record outcome).1 })
    (delivers : ∀ act ∈ acts, ∃ result, act = .deliver c result)
    (change : Change s next [.record c outcome answered] acts
      (if counts k.run outcome then [.recorded c outcome.node answered] else []))
  | lost (c : Nat) (outcome : NodeOutcome) (answered : Bool) (checks : next.checks = s.checks)
    (change : Change s next [.record c outcome answered] [] [])
  | posted (c : Nat) (notices : List Notice) (checks : next.checks = s.checks)
    (change : Change s next [.post c notices] (notices.map (.tell c)) [])
  | told (c : Nat) (notice : Notice) (checks : next.checks = s.checks)
    (change : Change s next [.tell c notice] [] [.told c notice])
  | delivered (c : Nat) (result : CheckResult)
    (checks : next.checks =
      s.checks.modify c fun k => { k with run := k.run.deliver result })
    (change : Change s next [.deliver c result] [] [])

structure Performs (s after : Conducting) (act : CheckAct) (left next : List CheckAct)
    (news : List CheckNews) : Prop where
  self : after.self = s.self
  waiting : after.pool.waiting.flatten = s.pool.waiting.flatten ++ left
  crew : after.crew = s.crew
  others : after.others = s.others
  past : after.past = s.past ++ news

section Performs

variable {after : Conducting} {left does : List CheckAct} {i : Nat} {rest : List CheckAct}

theorem Performs.change_crew (h : Performs s after act left does news)
    (there : s.crew[i]? = some (act :: rest))
    : Change s { after with crew := s.crew.set i (does ++ rest) } [act] (left ++ does) news := by
  obtain ⟨more, hbefore, hafter, -⟩ := exists_perm_flatten there
  refine ⟨h.self, ⟨rest ++ (s.pool.waiting.flatten ++ (more ++ s.others.flatten)), ?_, ?_⟩, h.past⟩
  . apply List.perm_iff_count.mpr
    intro a
    have := hbefore.count_eq a
    simp only [hands, List.count_append, List.count_cons, List.count_nil] at this ⊢
    omega
  . apply List.perm_iff_count.mpr
    intro a
    have := (hafter (does ++ rest)).count_eq a
    simp only [hands, h.waiting, h.others, List.count_append] at this ⊢
    omega

theorem Performs.change_others (h : Performs s after act left does news)
    (there : s.others[i]? = some (act :: rest))
    : Change s { after with others := s.others.set i (does ++ rest) } [act] (left ++ does)
      news := by
  obtain ⟨more, hbefore, hafter, -⟩ := exists_perm_flatten there
  refine ⟨h.self, ⟨rest ++ (s.pool.waiting.flatten ++ (s.crew.flatten ++ more)), ?_, ?_⟩, h.past⟩
  . apply List.perm_iff_count.mpr
    intro a
    have := hbefore.count_eq a
    simp only [hands, List.count_append, List.count_cons, List.count_nil] at this ⊢
    omega
  . apply List.perm_iff_count.mpr
    intro a
    have := (hafter (does ++ rest)).count_eq a
    simp only [hands, h.waiting, h.crew, List.count_append] at this ⊢
    omega

end Performs

theorem move_perform (hact : ∀ c, act ≠ .inspect c) {checked : Conducting}
    (hchecks : checked.checks = (s.perform act).1.checks)
    (change : ∀ left news, Performs s (s.perform act).1 act left (s.perform act).2 news →
      Change s checked [act] (left ++ (s.perform act).2) news)
    : Move s checked := by
  cases act with
  | inspect c => exact absurd rfl (hact c)
  | enlist c =>
    exact .enlisted c hchecks (change [.inspect c] [] ⟨rfl, by simp [perform, Pool.post], rfl, rfl,
      (List.append_nil _).symm⟩)
  | dispatch c node =>
    exact .dispatched c node hchecks (change [] [] ⟨rfl, (List.append_nil _).symm, rfl, rfl,
      (List.append_nil _).symm⟩)
  | post c notices =>
    have hchange := change (notices.map (.tell c)) [] ⟨rfl, by simp [perform, Pool.post], rfl, rfl,
      (List.append_nil _).symm⟩
    rw [show (s.perform (.post c notices)).2 = [] from rfl, List.append_nil] at hchange
    exact .posted c notices hchecks hchange
  | tell c notice =>
    exact .told c notice hchecks (change [] [.told c notice] ⟨rfl, (List.append_nil _).symm, rfl,
      rfl, rfl⟩)
  | deliver c result =>
    exact .delivered c result hchecks (change [] [] ⟨rfl, (List.append_nil _).symm, rfl, rfl,
      (List.append_nil _).symm⟩)
  | record c outcome answered =>
    cases hfound : s.checks[c]? with
    | none =>
      have hsame : s.perform (.record c outcome answered) = (s, []) := by simp [perform, hfound]
      rw [hsame] at change hchecks
      exact .lost c outcome answered hchecks (change [] [] ⟨rfl, (List.append_nil _).symm, rfl, rfl,
        (List.append_nil _).symm⟩)
    | some k =>
      refine .recorded c k outcome answered (s.perform (.record c outcome answered)).2 hfound ?_ ?_
        (change [] _ ⟨?_, ?_, ?_, ?_, ?_⟩)
      . simp [hchecks, perform, hfound]
      . intro act hact
        simp only [perform, hfound, Option.mem_toList, Option.map_eq_some_iff]
          at hact
        obtain ⟨conclusion, -, rfl⟩ := hact
        exact ⟨conclusion.result, rfl⟩
      all_goals simp [perform, hfound]

theorem expire_eq_some {run : CheckRun} {timeout : Nat} {conclusion : Conclusion}
    (h : (run.expire timeout).2 = some conclusion)
    : run.finished = false ∧ (run.expire timeout).1.participants = run.participants ∧
      conclusion.silent = run.silent := by
  have hparticipants : (run.expire timeout).1.participants = run.participants :=
    congrArg (fun topology => topology.2.2.2.1) (run.expire_move timeout).topology_eq
  cases hfinished : run.finished with
  | true => simp [(run.expire_move timeout).eq_of_finished hfinished] at h
  | false =>
    refine ⟨rfl, hparticipants, ?_⟩
    simp only [CheckRun.expire, hfinished, Bool.false_eq_true, if_false, Option.some.injEq] at h
    rw [← h]

theorem cancel_eq_some {run : CheckRun} {conclusion : Conclusion}
    (h : run.cancel.2 = some conclusion)
    : run.finished = false ∧ run.cancel.1.finished = true ∧
      run.cancel.1.participants = run.participants ∧ conclusion.silent = run.silent := by
  cases hfinished : run.finished with
  | true => simp [CheckRun.cancel_of_finished hfinished] at h
  | false =>
    rw [CheckRun.cancel_of_running hfinished] at h ⊢
    refine ⟨rfl, rfl, rfl, ?_⟩
    rw [← Option.some.inj h]

theorem change_begin {acts : List CheckAct} (hself : next.self = s.self)
    (hpool : next.pool = s.pool) (hcrew : next.crew = s.crew)
    (hothers : next.others = s.others ++ [acts]) (hpast : next.past = s.past ++ news)
    : Change s next [] acts news := by
  refine ⟨hself, ⟨s.hands, .refl _, ?_⟩, hpast⟩
  apply List.perm_iff_count.mpr
  intro a
  simp only [hands, hpool, hcrew, hothers, List.flatten_append, List.flatten_singleton,
    List.count_append]
  omega

theorem move_of_perm (hself : next.self = s.self) (hchecks : next.checks = s.checks)
    (hpast : next.past = s.past) (hands : s.hands.Perm next.hands) : Move s next :=
  .shift hchecks ⟨hself, ⟨s.hands, .refl _, hands.symm⟩, by rw [hpast, List.append_nil]⟩

theorem Step.move (step : Step s next) : Move s next := by
  cases step with
  | check job desc members =>
    refine Move.opened job desc members rfl ?_
    exact change_begin rfl rfl rfl rfl (List.append_nil _).symm
  | reply c k node result found asked =>
    refine Move.replied c k node result found asked rfl ?_
    exact change_begin rfl rfl rfl rfl rfl
  | deadline c k conclusion found expires =>
    obtain ⟨running, participants, silent⟩ := expire_eq_some expires
    obtain ⟨result, nodes⟩ := conclusion
    obtain rfl : nodes = k.run.silent := silent
    refine Move.ended c k .deadline _ result _ found running (k.run.finished_expire s.timeout)
      participants rfl (.inl rfl) ?_
    exact change_begin rfl rfl rfl rfl rfl
  | cancel c k conclusion alive found cancels =>
    obtain ⟨running, closed, participants, silent⟩ := cancel_eq_some cancels
    obtain ⟨result, nodes⟩ := conclusion
    obtain rfl : nodes = k.run.silent := silent
    refine Move.ended c k .cancelled _ result _ found running closed participants rfl (.inr rfl) ?_
    exact change_begin rfl rfl rfl rfl rfl
  | abandon => exact move_of_perm rfl rfl rfl (.refl _)
  | takeUp acts pool waits =>
    obtain ⟨hwaiting, -, -⟩ := Pool.takeUp?_eq_some waits
    refine move_of_perm rfl rfl rfl ?_
    apply List.perm_iff_count.mpr
    intro a
    simp only [hands, hwaiting, List.flatten_append, List.flatten_cons, List.flatten_nil,
      List.count_append, List.count_nil]
    omega
  | leave i done =>
    obtain ⟨more, hbefore, -, hafter⟩ := exists_perm_flatten done
    refine move_of_perm rfl rfl rfl ?_
    exact (((hbefore.trans hafter.symm).append_right _).append_left _)
  | inspected i c rest outcome there =>
    have performs : Performs s s (.inspect c) [] [.record c { outcome with node := s.self } true]
        [] := ⟨rfl, (List.append_nil _).symm, rfl, rfl, (List.append_nil _).symm⟩
    exact .inspected c { outcome with node := s.self } rfl rfl (performs.change_crew there)
  | work i act rest there =>
    by_cases hact : ∃ c, act = .inspect c
    . -- the thread is still inspecting
      obtain ⟨c, rfl⟩ := hact
      have hcrew : s.crew.set i (.inspect c :: rest) = s.crew := set_eq_self there
      refine move_of_perm rfl rfl rfl ?_
      simp [hands, perform, hcrew]
    . refine move_perform (fun c heq => hact ⟨c, heq⟩) rfl ?_
      intro left news performs
      exact performs.change_crew there
  | go i act rest there =>
    by_cases hact : ∃ c, act = .inspect c
    . obtain ⟨c, rfl⟩ := hact
      have hothers : s.others.set i (.inspect c :: rest) = s.others := set_eq_self there
      refine move_of_perm rfl rfl rfl ?_
      simp [hands, perform, hothers]
    . refine move_perform (fun c heq => hact ⟨c, heq⟩) rfl ?_
      intro left news performs
      exact performs.change_others there

end Conducting

end SnapshotAudit
