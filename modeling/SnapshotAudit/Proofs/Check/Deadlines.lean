import SnapshotAudit.Proofs.Check.Timers
import SnapshotAudit.Proofs.Progress

/-!
This module contains that a coordinator has a timer for exactly those of its checks that wait for
nodes, whenever nothing is going on in it, and that its threads come to such a rest.
-/

namespace SnapshotAudit

namespace Timekeeping

variable {s next : Timekeeping} {act : TimedAct} {c : Nat} {k : TimedCheck}

/-!
The threads have nothing more to do at some time, unless something else happens.
-/

theorem idle_or_goes (s : Timekeeping) : s.Idle ∨ ∃ next, Goes s next := by
  cases hloop : s.loop with
  | cons act rest => exact .inr ⟨_, .work act rest hloop⟩
  | nil =>
    cases hqueue : s.queue with
    | cons task rest => exact .inr ⟨_, .take task rest hloop hqueue⟩
    | nil =>
      by_cases hthreads : ∀ acts ∈ s.threads, acts = []
      . exact .inl ⟨hqueue, hloop, hthreads⟩
      . push Not at hthreads
        obtain ⟨acts, hacts, hne⟩ := hthreads
        obtain ⟨i, there⟩ := List.mem_iff_getElem?.mp hacts
        obtain ⟨act, rest, rfl⟩ := List.exists_cons_of_ne_nil hne
        exact .inr ⟨_, .act i act rest there⟩

def asks (s : Timekeeping) (c : Nat) : Nat :=
  (s.checks[c]?.map fun k => k.run.participants.length + 1).getD 0

/--
How much there is to do about an act, and about a task, with all that comes of them.
-/
def actBurden (s : Timekeeping) (act : TimedAct) : Nat :=
  match act with
  | .arm c => s.asks c + 5
  | .record _ _ | .cancel _ => 4
  | .expire _ | .release _ => 2
  | .ask _ _ | .handOut _ | .deliver _ _ => 1

def taskBurden (task : TimerTask) : Nat :=
  match task with
  | .arm _ | .wake _ false => 3
  | .release _ | .wake _ true => 1

def burden (s : Timekeeping) : Nat :=
  (s.hands.map s.actBurden).sum + (s.queue.map taskBurden).sum + 2 * s.waits.length

theorem actBurden_pos (s : Timekeeping) (act : TimedAct) : 0 < s.actBurden act := by
  cases act with
  | arm c => exact Nat.succ_pos _
  | _ => simp [actBurden]

theorem closing_burden_le (k : TimedCheck) (c : Nat) (conclusion : Option Conclusion)
    : ((k.closing c conclusion).map s.actBurden).sum ≤ 3 := by
  cases conclusion with
  | none => simp [TimedCheck.closing]
  | some conclusion => simp [TimedCheck.closing, actBurden]

theorem followUp_burden_lt (about : act.subject = .check c) (found : s.checks[c]? = some k)
    : ((k.followUp s.self s.timeout act).map s.actBurden).sum + (act.posts.map taskBurden).sum <
      s.actBurden act := by
  cases act with
  | arm d =>
    obtain rfl : d = c := TimedSubject.check.inj about
    have hremote : (CheckRun.remoteOf s.self k.run.participants).length ≤
        k.run.participants.length := List.length_filter_le _ _
    have hasks : s.asks d = k.run.participants.length + 1 := by simp [asks, found]
    have hsum (nodes : List Text)
        : ((nodes.map (TimedAct.ask d)).map s.actBurden).sum = nodes.length := by
      simp [Function.comp_def, actBurden]
    simp only [TimedCheck.followUp, TimedAct.posts, List.map_append, List.sum_append, hsum,
      List.map_cons, List.map_nil, List.sum_cons, List.sum_nil, actBurden, taskBurden, hasks]
    split <;> simp [actBurden] <;> omega
  | record d outcome =>
    have := closing_burden_le (s := s) k d (k.run.record outcome).2
    simp only [TimedCheck.followUp, TimedAct.posts, List.map_nil, List.sum_nil, actBurden]
    omega
  | cancel d =>
    have := closing_burden_le (s := s) k d k.run.cancel.2
    simp only [TimedCheck.followUp, TimedAct.posts, List.map_nil, List.sum_nil, actBurden]
    omega
  | expire d =>
    cases h : (k.run.expire s.timeout).2 with
    | none => simp [TimedCheck.followUp, TimedAct.posts, h, actBurden]
    | some conclusion => simp [TimedCheck.followUp, TimedAct.posts, h, actBurden]
  | release job => cases about
  | _ => simp [TimedCheck.followUp, TimedAct.posts, actBurden]

theorem perform_burden_lt (s : Timekeeping) (act : TimedAct)
    : ((s.perform act).2.map s.actBurden).sum + ((s.perform act).1.queue.map taskBurden).sum <
      s.actBurden act + (s.queue.map taskBurden).sum := by
  cases habout : act.subject with
  | deadline job =>
    obtain rfl := TimedAct.eq_release habout
    simp only [perform, TimedAct.subject, TimedAct.posts, List.map_nil, List.sum_nil,
      List.map_append, List.sum_append, List.map_singleton, List.sum_singleton, taskBurden,
      actBurden]
    omega
  | check c =>
    cases found : s.checks[c]? with
    | none =>
      have := s.actBurden_pos act
      simp only [perform, habout, found, List.map_nil, List.sum_nil]
      omega
    | some k =>
      have := followUp_burden_lt habout found
      rw [perform_eq habout found]
      simp only [List.map_append, List.sum_append]
      omega

theorem Done.asks_eq (h : Done s next act) : next.asks = s.asks := by
  funext c
  rw [asks, asks, h.checks, perform_checks]
  cases s.checks[c]? with
  | none => rfl
  | some k =>
    rw [Option.map_some, Option.map_some, Option.map_some]
    split
    next => rw [TimedCheck.undergo_participants]
    next => rfl

theorem Done.burden_lt (h : Done s next act) : next.burden < s.burden := by
  have hacts : next.actBurden = s.actBurden := by
    funext act
    cases act <;> simp only [actBurden, h.asks_eq]
  have hperform := s.perform_burden_lt act
  obtain ⟨rest, hbefore, hafter⟩ := h.hands
  have hsum := (hbefore.map s.actBurden).sum_nat
  have hsum' := (hafter.map s.actBurden).sum_nat
  rw [List.map_cons, List.sum_cons] at hsum
  rw [List.map_append, List.sum_append] at hsum'
  rw [burden, burden, hacts, h.queue, h.waits, hsum, hsum']
  omega

theorem burden_stop_le (s : Timekeeping) (timer : Option Nat)
    : (s.stop timer).burden ≤ s.burden := by
  have hheard : ((s.hearings timer).map taskBurden).sum =
      (s.waits.filter fun wait => some wait.1 = timer).length := by
    simp [hearings, Function.comp_def, taskBurden]
  have hparts := List.length_eq_length_filter_add (l := s.waits) fun wait => some wait.1 = timer
  have hwaits : (s.stop timer).waits.length =
      (s.waits.filter fun wait => !decide (some wait.1 = timer)).length := by
    simp [stop]
  have hacts : (s.stop timer).actBurden = s.actBurden := rfl
  have hqueue : (s.stop timer).queue = s.queue ++ s.hearings timer := rfl
  have hhands : (s.stop timer).hands = s.hands := rfl
  rw [burden, burden, hacts, hhands, hqueue, List.map_append, List.sum_append, hheard, hwaits,
    hparts]
  omega

theorem burden_drop_le (s : Timekeeping) (job : UInt64) : (s.drop job).burden ≤ s.burden :=
  burden_stop_le { s with deadlines := s.deadlines.erase job } _

theorem burden_set_le (s : Timekeeping) (job : UInt64) (c : Nat)
    : (s.set job c).burden ≤ s.burden + 2 := by
  refine (burden_stop_le _ _).trans (Nat.le_of_eq ?_)
  change (s.hands.map s.actBurden).sum + (s.queue.map taskBurden).sum +
    2 * (s.waits ++ [(s.fresh, c)]).length = s.burden + 2
  rw [burden, List.length_append, List.length_singleton]
  omega

theorem burden_pursue (free : s.loop = []) (act : TimedAct)
    : (s.pursue [act]).burden = s.actBurden act + s.burden := by
  have hacts : (s.pursue [act]).actBurden = s.actBurden := rfl
  have hhands : (s.pursue [act]).hands = act :: s.hands := by simp [hands, pursue, free]
  rw [burden, burden, hacts, hhands, List.map_cons, List.sum_cons, pursue]
  simp only [Nat.add_assoc]

theorem burden_execute_lt (free : s.loop = []) (task : TimerTask)
    : (s.execute task).burden < taskBurden task + s.burden := by
  cases task with
  | release job => exact Nat.lt_one_add_iff.mpr (s.burden_drop_le job)
  | wake c stopped =>
    cases stopped with
    | true => exact Nat.lt_one_add_iff.mpr (Nat.le_refl _)
    | false =>
      rw [execute]
      split
      next => simp [taskBurden]
      next k found =>
        have hdrop := s.burden_drop_le k.run.job
        rw [burden_pursue (s := s.drop k.run.job) free, actBurden, taskBurden]
        omega
  | arm c =>
    rw [execute]
    split
    next => simp [taskBurden]
    next k found =>
      have hset := s.burden_set_le k.run.job c
      rw [taskBurden]
      omega

theorem Goes.burden_lt (goes : Goes s next) : next.burden < s.burden := by
  cases goes with
  | act i act rest there => exact (done_of_act there).burden_lt
  | work act rest there => exact (done_of_work there).burden_lt
  | take task rest free first =>
    have hburden : s.burden = taskBurden task + burden { s with queue := rest } := by
      have hacts : actBurden { s with queue := rest } = s.actBurden := rfl
      have hhands : hands { s with queue := rest } = s.hands := rfl
      rw [burden, burden, hacts, hhands, first, List.map_cons, List.sum_cons]
      dsimp only
      omega
    rw [hburden]
    exact burden_execute_lt (s := { s with queue := rest }) free task

/-!
The checks that there are.
-/

theorem Goes.jobs_eq (goes : Goes s next)
    : (next.checks.map fun k => k.run.job) = s.checks.map fun k => k.run.job := by
  have hdone {act : TimedAct} (done : Done s next act)
      : (next.checks.map fun k => k.run.job) = s.checks.map fun k => k.run.job := by
    apply List.ext_getElem?
    intro c
    rw [List.getElem?_map, List.getElem?_map, done.checks, perform_checks, Option.map_map]
    congr 1
    funext k
    dsimp only [Function.comp_apply]
    split
    next => exact k.undergo_job s.timeout act
    next => rfl
  cases goes with
  | act i act rest there => exact hdone (done_of_act there)
  | work act rest there => exact hdone (done_of_work there)
  | take task rest => rw [execute_checks]

theorem Goes.distinct (goes : Goes s next) (h : s.Distinct) : next.Distinct := by
  rw [Distinct, goes.jobs_eq]
  exact h

def EndedAt (s : Timekeeping) (c : Nat) (job : UInt64) : Prop :=
  ∃ k, s.checks[c]? = some k ∧ k.run.job = job ∧ k.run.finished = true

theorem Goes.endedAt {job : UInt64} (goes : Goes s next) (h : s.EndedAt c job)
    : next.EndedAt c job := by
  obtain ⟨k, found, rfl, closed⟩ := h
  have hdone {act : TimedAct} (done : Done s next act) : next.EndedAt c k.run.job := by
    refine ⟨_, by rw [done.checks, perform_checks, found, Option.map_some], ?_, ?_⟩
    . split
      next => exact k.undergo_job s.timeout act
      next => rfl
    . split
      next => exact TimedCheck.undergo_finished closed s.timeout act
      next => exact closed
  cases goes with
  | act i act rest there => exact hdone (done_of_act there)
  | work act rest there => exact hdone (done_of_work there)
  | take task rest => exact ⟨k, by rw [execute_checks]; exact found, rfl, closed⟩

variable {self : Text} {timeout : Nat} {first : UInt64}

theorem Reached.comes_released (reached : Reached self timeout first s) (distinct : s.Distinct)
    (found : s.checks[c]? = some k) (closed : k.run.finished = true)
    : Comes Goes (fun later => later.Idle ∧ later.deadlines.contains k.run.job = false ∧
        ∀ timer, (timer, c) ∉ later.waits) s := by
  apply Comes.of_measure
    (fun s => Reached self timeout first s ∧ s.Distinct ∧ s.EndedAt c k.run.job) burden ?_ ?_
    ⟨reached, distinct, k, found, rfl, closed⟩
  . rintro s ⟨reached, distinct, ended⟩
    refine s.idle_or_goes.imp_left fun idle => ?_
    obtain ⟨old, hold, hjob, hclosed⟩ := ended
    have hsound := reached.sound distinct
    rcases hsound.of_idle idle hold with ⟨running, -⟩ | ⟨-, hnone, hwaits⟩
    . rw [hclosed] at running
      cases running
    . refine ⟨idle, by rw [SortedMap.contains, ← hjob, hnone]; rfl, fun timer hwait => ?_⟩
      rw [← mem_view_waits (k := old), hwaits] at hwait
      exact Multiset.notMem_zero timer hwait
  . rintro s next ⟨reached, distinct, ended⟩ - goes
    exact ⟨⟨.step reached (.go goes), goes.distinct distinct, goes.endedAt ended⟩, goes.burden_lt⟩

/-!
The jobs of the checks are counted.
-/

theorem Goes.nextJob_eq (goes : Goes s next) : next.nextJob = s.nextJob := by
  cases goes with
  | act i act rest there => rw [perform_frame]
  | work act rest there => rw [perform_frame]
  | take task rest => exact (execute_frame _ task).2

structure Counted (first : UInt64) (s : Timekeeping) : Prop where
  nextJob : s.nextJob = first + UInt64.ofNat s.checks.length
  jobs : (s.checks.map fun k => k.run.job) =
    (List.range s.checks.length).map fun i => first + UInt64.ofNat i

theorem Counted.of_eq (h : Counted first s) (nextJob : next.nextJob = s.nextJob)
    (jobs : (next.checks.map fun k => k.run.job) = s.checks.map fun k => k.run.job)
    : Counted first next := by
  have hlength : next.checks.length = s.checks.length := by
    simpa using congrArg List.length jobs
  exact ⟨by rw [nextJob, hlength, h.nextJob], by rw [jobs, hlength, h.jobs]⟩

theorem Counted.step (h : Counted first s) (step : Step s next) : Counted first next := by
  cases step with
  | check assignment desc members =>
    refine ⟨?_, ?_⟩
    . rw [enroll, List.length_append, List.length_singleton]
      dsimp only
      rw [h.nextJob, UInt64.add_assoc, UInt64.ofNat_add]
      rfl
    . rw [enroll, List.map_append, List.length_append, List.length_singleton, List.range_succ,
        List.map_append, h.jobs, List.map_singleton, List.map_singleton, CheckRun.startOn_job,
        h.nextJob]
  | reply => exact h.of_eq rfl rfl
  | cancel => exact h.of_eq rfl rfl
  | goOff => exact h.of_eq rfl rfl
  | go goes => exact h.of_eq goes.nextJob_eq goes.jobs_eq

theorem Reached.counted (h : Reached self timeout first s) : Counted first s := by
  induction h with
  | start => exact ⟨(UInt64.add_zero first).symm, rfl⟩
  | step _ step ih => exact ih.step step

theorem Reached.distinct_of_length_le (h : Reached self timeout first s)
    (few : s.checks.length ≤ 2 ^ 64) : s.Distinct := by
  rw [Distinct, h.counted.jobs]
  apply List.nodup_range.map_on
  intro i hi j hj heq
  rw [List.mem_range] at hi hj
  -- a number comes again only when all others have been used
  have hnat := congrArg UInt64.toNat ((UInt64.add_right_inj first).mp heq)
  rw [UInt64.toNat_ofNat', UInt64.toNat_ofNat', Nat.mod_eq_of_lt (by omega),
    Nat.mod_eq_of_lt (by omega)] at hnat
  exact hnat

/--
When nothing is going on, exactly those jobs have a timer whose checks have participants and are not
over, and nothing else waits for a timer. A check that is over has lost its timer when the threads
have done what they have in hand, also if it was over before its timer was set. What is done about
the deadline of one check leaves those of all others alone.
-/
theorem Reached.deadlines_kept (reached : Reached self timeout first s) (distinct : s.Distinct)
    : (s.Idle → ∀ job, s.deadlines.contains job = true ↔
        ∃ k ∈ s.checks, k.run.job = job ∧ k.run.participants ≠ [] ∧ k.run.finished = false) ∧
      (s.Idle → ∀ c timer, (timer, c) ∈ s.waits ↔
        ∃ k, s.checks[c]? = some k ∧ s.deadlines.get? k.run.job = some timer) ∧
      (∀ c k, s.checks[c]? = some k → k.run.finished = true →
        Comes Goes (fun later => later.Idle ∧ later.deadlines.contains k.run.job = false ∧
          ∀ timer, (timer, c) ∉ later.waits) s) ∧
      (∀ task rest c k, s.loop = [] → s.queue = task :: rest → s.checks[c]? = some k →
        ¬task.subject.Concerns c k.run.job →
          ({ s with queue := rest }.execute task).deadlines.get? k.run.job =
              s.deadlines.get? k.run.job ∧
            ∀ timer, (timer, c) ∈ ({ s with queue := rest }.execute task).waits ↔
              (timer, c) ∈ s.waits) := by
  have hsound := reached.sound distinct
  refine ⟨hsound.contains_iff, hsound.mem_waits_iff, ?_, ?_⟩
  . intro c k found closed
    exact reached.comes_released distinct found closed
  . intro task rest c k free hqueue found hother
    obtain ⟨d, old, hold, concerns⟩ := hsound.known.queue task (hqueue ▸ List.mem_cons_self)
    have hne : d ≠ c := by
      rintro rfl
      obtain rfl : old = k := Option.some.inj (hold.symm.trans found)
      exact hother concerns
    have hview := hsound.view_execute_other free hqueue hold concerns found hne
    refine ⟨congrArg DeadlineView.timer hview, fun timer => ?_⟩
    rw [← mem_view_waits (k := k), ← mem_view_waits (k := k), hview]

theorem Reached.deadlines_kept_two
    : let desc : SnapshotDescriptor := ⟨"s", 1, 64, ["b"], [⟨1, "g", 8, 2, []⟩]⟩
      let run := CheckRun.startOn (Rendezvous.assign desc) 7 desc [⟨"b", .server, 0, 0⟩]
      (∃ s, Reached "a" 1000 7 s ∧ s.Idle ∧ s.checks.map TimedCheck.run = [run] ∧
        s.deadlines.contains 7 = true) ∧
      (∃ s, Reached "a" 1000 7 s ∧ s.queue = [.arm 0] ∧
        (s.checks.map fun k => k.run.finished) = [true] ∧
        Comes Goes (fun later => later.Idle ∧ later.deadlines.contains 7 = false ∧
          ∀ timer, (timer, 0) ∉ later.waits) s) := by
  intro desc run
  have h : Reached "a" 1000 7 (Timekeeping.start "a" 1000 7) := .start
  replace h := h.step (.check (Rendezvous.assign desc) desc [⟨"b", .server, 0, 0⟩])
  replace h := h.step (.go (.act 0 (.arm 0) [] (by decide +kernel)))
  replace h := h.step (.go (.act 0 (.ask 0 "b") [.handOut 0] (by decide +kernel)))
  refine ⟨?_, ?_⟩
  . -- the check waits for its node, and its timer is set
    replace h := h.step (.go (.act 0 (.handOut 0) [] (by decide +kernel)))
    replace h := h.step (.go (.take (.arm 0) [] rfl (by decide +kernel)))
    refine ⟨_, h, ⟨by decide +kernel, rfl, by decide +kernel⟩, by decide +kernel, ?_⟩
    exact ((h.deadlines_kept (h.distinct_of_length_le (by decide +kernel))).1
      ⟨by decide +kernel, rfl, by decide +kernel⟩ 7).mpr (by decide +kernel)
  . -- the check is over before its timer is set
    replace h := h.step (.reply 0 _ (.blank "b") rfl (by decide +kernel))
    replace h := h.step (.go (.act 1 (.record 0 (.blank "b")) [] (by decide +kernel)))
    refine ⟨_, h, by decide +kernel, by decide +kernel, ?_⟩
    exact (h.deadlines_kept (h.distinct_of_length_le (by decide +kernel))).2.2.1 0 _ rfl
      (by decide +kernel)

end Timekeeping

end SnapshotAudit
