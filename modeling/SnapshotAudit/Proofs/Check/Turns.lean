import SnapshotAudit.Proofs.Check.Countdown
import SnapshotAudit.Proofs.Ordered.Map

/-!
This module contains what each step of a coordinator means for the deadline of one check: it is a
turn for the check that is concerned and leaves all others as they are.
-/

namespace SnapshotAudit

/-!
What an act can do to the check that it is about.
-/

namespace CheckRun

theorem Move.concludes {run : CheckRun} {next : CheckRun × Option Conclusion} (h : Move run next)
    : (next.2 = none ∧ next.1.finished = run.finished) ∨
      ∃ conclusion, next.2 = some conclusion ∧ next.1.finished = true := by
  cases h with
  | idle => exact .inl ⟨rfl, rfl⟩
  | collect outcomes running => exact .inl ⟨rfl, rfl⟩
  | conclude outcomes silent running => exact .inr ⟨_, rfl, rfl⟩

theorem cancel_concludes (run : CheckRun)
    : (run.cancel.2 = none ∧ run.cancel.1.finished = run.finished) ∨
      ∃ conclusion, run.cancel.2 = some conclusion ∧ run.cancel.1.finished = true := by
  cases hfinished : run.finished with
  | true => exact .inl (by simp [cancel_of_finished hfinished, hfinished])
  | false =>
    rw [cancel_of_running hfinished]
    exact .inr ⟨_, rfl, rfl⟩

end CheckRun

namespace TimedCheck

theorem undergo_topology (k : TimedCheck) (timeout : Nat) (act : TimedAct)
    : (k.undergo timeout act).run.topology = k.run.topology := by
  cases act with
  | record c outcome => exact (k.run.record_move outcome).topology_eq
  | cancel c => exact k.run.topology_cancel
  | expire c => exact (k.run.expire_move timeout).topology_eq
  | _ => rfl

@[simp]
theorem undergo_job (k : TimedCheck) (timeout : Nat) (act : TimedAct)
    : (k.undergo timeout act).run.job = k.run.job :=
  congrArg (fun topology => topology.1) (k.undergo_topology timeout act)

@[simp]
theorem undergo_participants (k : TimedCheck) (timeout : Nat) (act : TimedAct)
    : (k.undergo timeout act).run.participants = k.run.participants :=
  congrArg (fun topology => topology.2.2.2.1) (k.undergo_topology timeout act)

theorem undergo_finished {k : TimedCheck} (closed : k.run.finished = true) (timeout : Nat)
    (act : TimedAct) : (k.undergo timeout act).run.finished = true := by
  cases act with
  | record c outcome => simpa [undergo, (k.run.record_move outcome).eq_of_finished closed]
  | cancel c => simpa [undergo, CheckRun.cancel_of_finished closed]
  | expire c => exact k.run.finished_expire timeout
  | _ => exact closed

variable {k : TimedCheck} {self : Text} {timeout c : Nat} {act next : TimedAct}

theorem mem_followUp_arm (h : next ∈ k.followUp self timeout (.arm c))
    : (∃ node, next = .ask c node) ∨ next = .handOut c := by
  simp only [followUp, List.mem_append, List.mem_map, List.mem_singleton] at h
  rcases h with (h | ⟨node, -, rfl⟩) | rfl
  . split at h
    . exact .inl ⟨self, List.mem_singleton.mp h⟩
    . cases h
  . exact .inl ⟨node, rfl⟩
  . exact .inr rfl

theorem mem_followUp_expire (h : next ∈ k.followUp self timeout (.expire c))
    : ∃ result, next = .deliver c result := by
  simp only [followUp, Option.mem_toList, Option.map_eq_some_iff] at h
  obtain ⟨conclusion, -, rfl⟩ := h
  exact ⟨conclusion.result, rfl⟩

theorem concerns_of_mem_followUp (about : act.subject = .check c)
    (h : next ∈ k.followUp self timeout act) : next.subject.Concerns c k.run.job := by
  have hclosing {conclusion : Option Conclusion} {d : Nat} (h : next ∈ k.closing d conclusion)
      : next.subject.Concerns d k.run.job := by
    cases conclusion with
    | none => simp [closing] at h
    | some conclusion =>
      simp only [closing, List.mem_cons, List.not_mem_nil, or_false] at h
      rcases h with rfl | rfl
      . exact .inr rfl
      . exact .inl rfl
  cases act with
  | arm d =>
    obtain ⟨node, rfl⟩ | rfl := mem_followUp_arm h
    . exact .inl about
    . exact .inl about
  | record d outcome =>
    obtain rfl : d = c := TimedSubject.check.inj about
    exact hclosing h
  | cancel d =>
    obtain rfl : d = c := TimedSubject.check.inj about
    exact hclosing h
  | expire d =>
    obtain ⟨result, rfl⟩ := mem_followUp_expire h
    exact .inl about
  | _ => simp [followUp] at h

end TimedCheck

namespace TimedAct

variable {act : TimedAct} {c : Nat} {job : UInt64}

theorem cue?_of_subject (about : act.subject = .check c) : act.cue? c job = some act.cue :=
  if_pos (.inl about)

theorem eq_release (about : act.subject = .deadline job) : act = .release job := by
  cases act with
  | release other => rw [TimedSubject.deadline.inj about]
  | _ => cases about

theorem others_of_cue {acts : List TimedAct} (h : ∀ act ∈ acts, act.cue = .other)
    : ∀ cue ∈ (acts.filterMap fun act => act.cue? c job : Multiset Cue), cue = .other := by
  intro cue hcue
  obtain ⟨act, hact, hcue⟩ := List.mem_filterMap.mp (Multiset.mem_coe.mp hcue)
  simp only [cue?, Option.ite_none_right_eq_some, Option.some.injEq] at hcue
  rw [← hcue.2]
  exact h act hact

end TimedAct

namespace Timekeeping

variable {s next : Timekeeping} {act : TimedAct} {c d : Nat} {k other : TimedCheck}

theorem perform_eq (about : act.subject = .check c) (found : s.checks[c]? = some k)
    : s.perform act =
      ({ s with
          checks := s.checks.set c (k.undergo s.timeout act)
          queue := s.queue ++ act.posts },
        k.followUp s.self s.timeout act) := by
  simp [perform, about, found]

structure Done (s next : Timekeeping) (act : TimedAct) : Prop where
  checks : next.checks = (s.perform act).1.checks
  queue : next.queue = (s.perform act).1.queue
  deadlines : next.deadlines = s.deadlines
  waits : next.waits = s.waits
  fresh : next.fresh = s.fresh
  hands : ∃ rest : List TimedAct, s.hands.Perm (act :: rest) ∧
    next.hands.Perm ((s.perform act).2 ++ rest)

theorem perform_frame (s : Timekeeping) (act : TimedAct)
    : (s.perform act).1 = { s with
        checks := (s.perform act).1.checks
        queue := (s.perform act).1.queue } := by
  unfold perform
  split
  next => rfl
  next => split <;> rfl

theorem done_of_act {i : Nat} {rest : List TimedAct} (there : s.threads[i]? = some (act :: rest))
    : Done s { (s.perform act).1 with threads := s.threads.set i ((s.perform act).2 ++ rest) }
        act := by
  obtain ⟨more, hbefore, hafter, -⟩ := exists_perm_flatten there
  rw [perform_frame]
  refine ⟨rfl, rfl, rfl, rfl, rfl, rest ++ (more ++ s.loop), ?_, ?_⟩
  . apply List.perm_iff_count.mpr
    intro a
    have := hbefore.count_eq a
    simp only [hands, List.count_append, List.count_cons] at this ⊢
    omega
  . apply List.perm_iff_count.mpr
    intro a
    have := (hafter ((s.perform act).2 ++ rest)).count_eq a
    simp only [hands, List.count_append] at this ⊢
    omega

theorem done_of_work {rest : List TimedAct} (there : s.loop = act :: rest)
    : Done s { (s.perform act).1 with loop := (s.perform act).2 ++ rest } act := by
  rw [perform_frame]
  refine ⟨rfl, rfl, rfl, rfl, rfl, rest ++ s.threads.flatten, ?_, ?_⟩
  . rw [hands, there, List.cons_append]
  . rw [hands, List.append_assoc]

theorem Done.view_self (h : Done s next act) (about : act.subject = .check c)
    (found : s.checks[c]? = some k)
    : ∃ rest : Multiset Cue, (s.view c k).hands = act.cue ::ₘ rest ∧
        next.view c (k.undergo s.timeout act) = {
          begun := (k.undergo s.timeout act).asked ≠ [] ∨
            (k.undergo s.timeout act).handedOut = true
          finished := (k.undergo s.timeout act).run.finished
          hands := ↑((k.followUp s.self s.timeout act).filterMap
            fun act => act.cue? c k.run.job) + rest
          queue := (s.view c k).queue ++ act.posts.filterMap fun task => task.cue? c k.run.job
          timer := (s.view c k).timer
          waits := (s.view c k).waits } := by
  obtain ⟨rest, hbefore, hafter⟩ := h.hands
  have hqueue := h.queue
  rw [perform_eq about found] at hafter hqueue
  refine ⟨rest.filterMap fun act => act.cue? c k.run.job, ?_, ?_⟩
  . have hcues := hbefore.filterMap fun act => act.cue? c k.run.job
    simp only [List.filterMap_cons, TimedAct.cue?_of_subject about] at hcues
    exact Multiset.coe_eq_coe.mpr hcues
  . ext1
    all_goals simp only [view, TimedCheck.undergo_job, h.deadlines, h.waits, hqueue,
      List.filterMap_append]
    rw [Multiset.coe_add, ← List.filterMap_append]
    exact Multiset.coe_eq_coe.mpr (hafter.filterMap _)

theorem Done.view_other (h : Done s next act) (hact : ¬act.subject.Concerns d other.run.job)
    (hthen : ∀ after ∈ (s.perform act).2, ¬after.subject.Concerns d other.run.job)
    (hqueue : next.queue = s.queue ++ act.posts)
    : next.view d other = s.view d other := by
  obtain ⟨rest, hbefore, hafter⟩ := h.hands
  have hnone : act.posts.filterMap (fun task => task.cue? d other.run.job) = [] :=
    List.filterMap_eq_nil_iff.mpr fun task htask =>
      if_neg (TimedAct.subject_of_posts htask ▸ hact)
  ext1
  all_goals simp only [view, h.deadlines, h.waits, hqueue, List.filterMap_append, hnone,
    List.append_nil]
  apply Multiset.coe_eq_coe.mpr
  have hcues := hafter.filterMap fun act => act.cue? d other.run.job
  have hcame : (s.perform act).2.filterMap (fun act => act.cue? d other.run.job) = [] :=
    List.filterMap_eq_nil_iff.mpr fun after hafter => if_neg (hthen after hafter)
  rw [List.filterMap_append, hcame, List.nil_append] at hcues
  refine hcues.trans (hbefore.filterMap _ |>.trans ?_).symm
  rw [List.filterMap_cons, TimedAct.cue?, if_neg hact]

theorem closing_cues (k : TimedCheck) (c : Nat) (conclusion : Conclusion)
    : (k.closing c (some conclusion)).filterMap (fun act => act.cue? c k.run.job) =
        [.release, .other] := by
  simp [TimedCheck.closing, TimedAct.cue?, TimedAct.subject, TimedAct.cue]

theorem Done.turn_of_quiet (h : Done s next act) (about : act.subject = .check c)
    (found : s.checks[c]? = some k) (cue : act.cue = .other) (posts : act.posts = [])
    (quiet : k.followUp s.self s.timeout act = [])
    (same : (k.undergo s.timeout act).run.finished = k.run.finished)
    : (s.view c k).Turn (next.view c (k.undergo s.timeout act)) := by
  obtain ⟨rest, hhands, hview⟩ := h.view_self about found
  rw [hview, posts, quiet, same, List.filterMap_nil, List.filterMap_nil, Multiset.coe_nil,
    Multiset.zero_add, List.append_nil]
  exact .other _ rest (cue ▸ hhands)

theorem Done.turn_of_closing (h : Done s next act) (about : act.subject = .check c)
    (found : s.checks[c]? = some k) (cue : act.cue = .other) (posts : act.posts = [])
    {run : CheckRun} {conclusion : Option Conclusion}
    (closing : k.followUp s.self s.timeout act = k.closing c conclusion)
    (undergo : k.undergo s.timeout act = { k with run })
    (concludes : (conclusion = none ∧ run.finished = k.run.finished) ∨
      ∃ some, conclusion = .some some ∧ run.finished = true)
    : (s.view c k).Turn (next.view c (k.undergo s.timeout act)) := by
  rcases concludes with ⟨rfl, same⟩ | ⟨conclusion, rfl, closed⟩
  . exact h.turn_of_quiet about found cue posts closing (by rw [undergo, same])
  . obtain ⟨rest, hhands, hview⟩ := h.view_self about found
    rw [hview, posts, closing, closing_cues, undergo, closed, List.filterMap_nil, List.append_nil,
      ← Multiset.cons_coe, ← Multiset.cons_coe, Multiset.coe_nil, Multiset.cons_add,
      Multiset.cons_add, Multiset.zero_add]
    exact .close rest (cue ▸ hhands)

theorem Done.turn_self (h : Done s next act) (about : act.subject = .check c)
    (found : s.checks[c]? = some k)
    : (s.view c k).Turn (next.view c (k.undergo s.timeout act)) := by
  cases act with
  | release job => cases about
  | ask d node => exact h.turn_of_quiet about found rfl rfl rfl rfl
  | handOut d => exact h.turn_of_quiet about found rfl rfl rfl rfl
  | deliver d result => exact h.turn_of_quiet about found rfl rfl rfl rfl
  | record d outcome =>
    obtain rfl : d = c := TimedSubject.check.inj about
    exact h.turn_of_closing about found rfl rfl rfl rfl (k.run.record_move outcome).concludes
  | cancel d =>
    obtain rfl : d = c := TimedSubject.check.inj about
    exact h.turn_of_closing about found rfl rfl rfl rfl k.run.cancel_concludes
  | expire d =>
    obtain ⟨rest, hhands, hview⟩ := h.view_self about found
    have closed : (k.undergo s.timeout (.expire d)).run.finished = true :=
      k.run.finished_expire s.timeout
    have hposts : (TimedAct.expire d).posts = [] := rfl
    rw [hview, closed, hposts, List.filterMap_nil, List.append_nil]
    refine .expire rest _ hhands (TimedAct.others_of_cue fun after hafter => ?_)
    obtain ⟨result, rfl⟩ := TimedCheck.mem_followUp_expire hafter
    rfl
  | arm d =>
    obtain ⟨rest, hhands, hview⟩ := h.view_self about found
    obtain rfl : d = c := TimedSubject.check.inj about
    have hposts
        : (TimedAct.arm d).posts.filterMap (fun task => task.cue? d k.run.job) = [.arm] := by
      simp [TimedAct.posts, TimerTask.cue?, TimerTask.subject, TimerTask.cue]
    rw [hview, hposts]
    refine .arm rest _ hhands (TimedAct.others_of_cue fun after hafter => ?_)
    obtain ⟨node, rfl⟩ | rfl := TimedCheck.mem_followUp_arm hafter
    . rfl
    . rfl

theorem Done.turn_release (h : Done s next (.release k.run.job))
    : (s.view c k).Turn (next.view c k) := by
  obtain ⟨rest, hbefore, hafter⟩ := h.hands
  have hcue : (TimedAct.release k.run.job).cue? c k.run.job = some .release := if_pos (.inr rfl)
  have htask : (TimerTask.release k.run.job).cue? c k.run.job = some .release := if_pos (.inr rfl)
  have hhands : (s.view c k).hands =
      .release ::ₘ ↑(rest.filterMap fun act => act.cue? c k.run.job) := by
    have hcues := hbefore.filterMap fun act => act.cue? c k.run.job
    simp only [List.filterMap_cons, hcue] at hcues
    exact Multiset.coe_eq_coe.mpr hcues
  have hview : next.view c k =
      { s.view c k with
        hands := ↑(rest.filterMap fun act => act.cue? c k.run.job)
        queue := (s.view c k).queue ++ [.release] } := by
    ext1
    all_goals simp only [view, h.deadlines, h.waits]
    . exact Multiset.coe_eq_coe.mpr (hafter.filterMap _)
    . rw [h.queue, perform, TimedAct.subject, TimedAct.posts, List.filterMap_append]
      simp [htask]
  rw [hview]
  exact .release _ hhands

/-!
What holds of a coordinator as a whole.
-/

def Distinct (s : Timekeeping) : Prop :=
  (s.checks.map fun k => k.run.job).Nodup

instance (s : Timekeeping) : Decidable s.Distinct :=
  inferInstanceAs (Decidable (List.Nodup _))

theorem Distinct.eq_of_job (h : s.Distinct) (hc : s.checks[c]? = some k)
    (hd : s.checks[d]? = some other) (hjob : k.run.job = other.run.job) : c = d := by
  have hjobs (i : Nat) (k : TimedCheck) (hi : s.checks[i]? = some k)
      : (s.checks.map fun k => k.run.job)[i]? = some k.run.job := by
    rw [List.getElem?_map, hi]
    rfl
  have hlt : c < (s.checks.map fun k => k.run.job).length := by
    rw [List.length_map]
    exact (List.getElem?_eq_some_iff.mp hc).1
  exact (List.getElem?_inj hlt h).mp ((hjobs c k hc).trans (hjob ▸ (hjobs d other hd).symm))

def Has (s : Timekeeping) (p : Nat → UInt64 → Prop) : Prop :=
  ∃ c k, s.checks[c]? = some k ∧ p c k.run.job

structure Known (s : Timekeeping) : Prop where
  hands : ∀ act ∈ s.hands, s.Has act.subject.Concerns
  queue : ∀ task ∈ s.queue, s.Has task.subject.Concerns
  waits : ∀ wait ∈ s.waits, s.Has fun c _ => c = wait.2

structure Owned (s : Timekeeping) : Prop where
  fresh : ∀ job timer, s.deadlines.get? job = some timer → timer < s.fresh
  has : ∀ job timer, s.deadlines.get? job = some timer → s.Has fun _ known => known = job
  apart : ∀ job other timer, s.deadlines.get? job = some timer →
    s.deadlines.get? other = some timer → job = other

/--
Every check is at some stage of its deadline, and a check without participants is over.
-/
structure Sound (s : Timekeeping) : Prop where
  distinct : s.Distinct
  known : s.Known
  owned : s.Owned
  attended : ∀ k ∈ s.checks, k.run.participants = [] → k.run.finished = true
  stages : ∀ c k, s.checks[c]? = some k → (s.view c k).Stage

def Turns (s next : Timekeeping) : Prop :=
  ∀ c new, next.checks[c]? = some new →
    ∃ k, s.checks[c]? = some k ∧ (s.view c k).Turn (next.view c new)

theorem Done.turns (h : Done s next act) (distinct : s.Distinct) (found : s.checks[c]? = some k)
    (concerns : act.subject.Concerns c k.run.job) : Turns s next := by
  intro d new hnew
  have hchecks := h.checks
  have hqueue := h.queue
  rcases concerns with about | about
  . have hthen : ∀ after ∈ (s.perform act).2, after.subject.Concerns c k.run.job := by
      rw [perform_eq about found]
      exact fun after hafter => TimedCheck.concerns_of_mem_followUp about hafter
    rw [perform_eq about found] at hchecks hqueue
    rw [hchecks, getElem?_set_eq_some found] at hnew
    rcases hnew with ⟨rfl, rfl⟩ | ⟨hne, hold⟩
    . exact ⟨k, found, h.turn_self about found⟩
    . have hjob : k.run.job ≠ new.run.job := fun heq => hne (distinct.eq_of_job found hold heq).symm
      refine ⟨new, hold, ?_⟩
      rw [h.view_other (TimedSubject.not_concerns (.inl about) hne.symm hjob)
        (fun after hafter => TimedSubject.not_concerns (hthen after hafter) hne.symm hjob) hqueue]
      exact .rest
  . obtain rfl := TimedAct.eq_release about
    refine ⟨new, by rwa [hchecks] at hnew, ?_⟩
    by_cases hjob : k.run.job = new.run.job
    . rw [hjob] at h
      exact h.turn_release
    . rw [h.view_other (TimedSubject.deadline_concerns.not.mpr hjob) nofun hqueue]
      exact .rest

/-!
What the thread that has the timers does.
-/

theorem mem_view_waits {timer : Nat} : timer ∈ (s.view c k).waits ↔ (timer, c) ∈ s.waits := by
  simp only [view, Multiset.mem_coe, List.mem_filterMap, Option.ite_none_right_eq_some,
    Option.some.injEq]
  constructor
  . rintro ⟨wait, hwait, rfl, rfl⟩
    exact hwait
  . intro h
    exact ⟨(timer, c), h, rfl, rfl⟩

theorem view_take_self {task : TimerTask} {rest : List TimerTask} (first : s.queue = task :: rest)
    (h : task.subject.Concerns c k.run.job)
    : (s.view c k).queue = task.cue :: ({ s with queue := rest }.view c k).queue := by
  simp only [view, first, List.filterMap_cons, TimerTask.cue?, if_pos h]

theorem view_take_other {task : TimerTask} {rest : List TimerTask} (first : s.queue = task :: rest)
    (h : ¬task.subject.Concerns c k.run.job) : { s with queue := rest }.view c k = s.view c k := by
  simp only [view, hands, first, List.filterMap_cons, TimerTask.cue?, if_neg h]

theorem stop_none (s : Timekeeping) : s.stop none = s := by
  simp [stop, hearings]

theorem drop_eq (s : Timekeeping) (job : UInt64)
    : s.drop job =
      { s with
        deadlines := s.deadlines.erase job
        waits := s.waits.filter fun wait => some wait.1 ≠ s.deadlines.get? job
        queue := s.queue ++ s.hearings (s.deadlines.get? job) } :=
  rfl

theorem view_drop_self (timers : ∀ timer, (timer, c) ∈ s.waits →
      s.deadlines.get? k.run.job = some timer)
    : ∃ stopped, (∀ cue ∈ stopped, cue = .stopped) ∧ (s.drop k.run.job).view c k =
        { s.view c k with
          queue := (s.view c k).queue ++ stopped
          timer := none
          waits := 0 } := by
  refine ⟨(s.hearings (s.deadlines.get? k.run.job)).filterMap fun task => task.cue? c k.run.job,
    ?_, ?_⟩
  . intro cue hcue
    simp only [hearings, List.mem_filterMap, List.mem_map, TimerTask.cue?,
      Option.ite_none_right_eq_some, Option.some.injEq] at hcue
    obtain ⟨_, ⟨wait, -, rfl⟩, -, rfl⟩ := hcue
    rfl
  . have hnone : (s.drop k.run.job |>.view c k).waits = 0 := by
      apply Multiset.eq_zero_iff_forall_notMem.mpr
      intro timer htimer
      obtain ⟨hwaits, hleft⟩ := List.mem_filter.mp (mem_view_waits.mp htimer)
      simp [timers timer hwaits] at hleft
    ext1
    . rfl
    . rfl
    . rfl
    . exact List.filterMap_append
    . simp only [view, drop_eq, SortedMap.get?_erase_eq, if_pos]
    . exact hnone

theorem view_drop_other {job : UInt64} (hjob : job ≠ other.run.job)
    (timers : ∀ timer, (timer, d) ∈ s.waits → s.deadlines.get? job ≠ some timer)
    : (s.drop job).view d other = s.view d other := by
  have hstopped : (s.hearings (s.deadlines.get? job)).filterMap
      (fun task => task.cue? d other.run.job) = [] := by
    apply List.filterMap_eq_nil_iff.mpr
    intro task htask
    simp only [hearings, List.mem_map, List.mem_filter, decide_eq_true_eq] at htask
    obtain ⟨wait, ⟨hwait, htimer⟩, rfl⟩ := htask
    refine if_neg (TimedSubject.check_concerns.not.mpr ?_)
    rintro rfl
    exact timers wait.1 hwait htimer.symm
  have hwaits : (s.waits.filter fun wait => some wait.1 ≠ s.deadlines.get? job).filterMap
      (fun wait => if wait.2 = d then some wait.1 else none) =
        s.waits.filterMap fun wait => if wait.2 = d then some wait.1 else none := by
    rw [List.filterMap_filter]
    apply List.filterMap_congr
    intro wait hwait
    by_cases hd : wait.2 = d
    . have := timers wait.1 (hd ▸ hwait)
      simp [hd, this.symm]
    . simp [hd]
  simp only [view, drop_eq, List.filterMap_append, hstopped, List.append_nil, hwaits,
    SortedMap.get?_erase_eq, if_neg hjob.symm, hands]

theorem view_pursue (free : s.loop = []) (c : Nat)
    : (s.pursue [.expire c]).view d other =
      { s.view d other with
        hands := (if d = c then {.expire} else 0) + (s.view d other).hands } := by
  by_cases hd : d = c
  . simp [view, hands, pursue, free, hd, TimedAct.cue?, TimedAct.subject,
      TimedAct.cue]
  . simp [view, hands, pursue, free, hd, Ne.symm hd, TimedAct.cue?, TimedAct.subject]

theorem Sound.timer_of_waits (h : Sound s) (found : s.checks[c]? = some k) {timer : Nat}
    (waits : (timer, c) ∈ s.waits) : s.deadlines.get? k.run.job = some timer :=
  (h.stages c k found).timer_of_waits (mem_view_waits.mpr waits)

theorem Sound.timers_apart (h : Sound s) (found : s.checks[c]? = some k) {job : UInt64}
    (hjob : job ≠ k.run.job) {timer : Nat} (waits : (timer, c) ∈ s.waits)
    : s.deadlines.get? job ≠ some timer := by
  intro hother
  exact hjob (h.owned.apart job k.run.job timer hother (h.timer_of_waits found waits))

theorem execute_frame (s : Timekeeping) (task : TimerTask)
    : (s.execute task).checks = s.checks ∧ (s.execute task).nextJob = s.nextJob := by
  cases task with
  | release job => exact ⟨rfl, rfl⟩
  | wake c stopped =>
    cases stopped with
    | true => exact ⟨rfl, rfl⟩
    | false =>
      rw [execute]
      split <;> exact ⟨rfl, rfl⟩
  | arm c =>
    rw [execute]
    split <;> exact ⟨rfl, rfl⟩

theorem execute_checks (s : Timekeeping) (task : TimerTask)
    : (s.execute task).checks = s.checks :=
  (s.execute_frame task).1

/--
The deadline of a check is set. The check has no timer yet, so that no other one is stopped.
-/
theorem execute_arm_eq (found : s.checks[c]? = some k)
    (unset : s.deadlines.get? k.run.job = none)
    : s.execute (.arm c) =
      { s with
        deadlines := s.deadlines.insert k.run.job s.fresh
        waits := s.waits ++ [(s.fresh, c)]
        fresh := s.fresh + 1 } := by
  simp only [execute, found, Timekeeping.set, Deadlines.set, unset, stop_none]

theorem execute_wake_eq (found : s.checks[c]? = some k)
    : s.execute (.wake c false) = (s.drop k.run.job).pursue [.expire c] := by
  simp only [execute, found]

section Take

variable {rest : List TimerTask} {task : TimerTask}

theorem Sound.unset_of_arm (h : Sound s) (first : s.queue = .arm c :: rest)
    (found : s.checks[c]? = some k) : s.deadlines.get? k.run.job = none := by
  apply (h.stages c k found).unset_of_arm
  rw [view_take_self first (.inl rfl)]
  exact List.mem_cons_self

theorem Sound.turn_execute_self (h : Sound s) (free : s.loop = []) (first : s.queue = task :: rest)
    (found : s.checks[c]? = some k) (concerns : task.subject.Concerns c k.run.job)
    : (s.view c k).Turn (({ s with queue := rest }.execute task).view c k) := by
  have hqueue := view_take_self first concerns
  obtain ⟨stopped, hstops, hdrop⟩ := view_drop_self (s := { s with queue := rest })
    fun timer => h.timer_of_waits found
  cases task with
  | release job =>
    obtain rfl : job = k.run.job := TimedSubject.deadline_concerns.mp concerns
    rw [execute, hdrop]
    exact .drop _ stopped hqueue hstops
  | wake d stops =>
    obtain rfl : d = c := TimedSubject.check_concerns.mp concerns
    cases stops with
    | true => exact .hear _ hqueue
    | false =>
      rw [execute_wake_eq (s := { s with queue := rest }) found,
        view_pursue (s := drop { s with queue := rest } k.run.job) free, hdrop, if_pos rfl,
        Multiset.singleton_add]
      exact .wake _ stopped hqueue hstops
  | arm d =>
    obtain rfl : d = c := TimedSubject.check_concerns.mp concerns
    have unset := h.unset_of_arm first found
    have hview : ({ s with queue := rest }.execute (.arm d)).view d k =
        { { s with queue := rest }.view d k with
          timer := some s.fresh
          waits := s.fresh ::ₘ (s.view d k).waits } := by
      rw [execute_arm_eq (s := { s with queue := rest }) found unset]
      ext1
      . rfl
      . rfl
      . rfl
      . rfl
      . simp only [view, SortedMap.get?_insert_eq, if_pos]
      . simp only [view, List.filterMap_append, List.filterMap_cons, List.filterMap_nil, if_pos,
          ← Multiset.coe_add, Multiset.coe_singleton]
        rw [Multiset.add_comm, Multiset.singleton_add]
    rw [hview]
    exact .set _ _ hqueue unset

theorem Sound.view_execute_other (h : Sound s) (free : s.loop = [])
    (first : s.queue = task :: rest) (found : s.checks[c]? = some k)
    (concerns : task.subject.Concerns c k.run.job) (hother : s.checks[d]? = some other)
    (hne : c ≠ d)
    : ({ s with queue := rest }.execute task).view d other = s.view d other := by
  have hjob : k.run.job ≠ other.run.job := fun heq => hne (h.distinct.eq_of_job found hother heq)
  have htake := view_take_other first (TimedSubject.not_concerns concerns hne hjob)
  have hdrop := view_drop_other (s := { s with queue := rest }) hjob
    fun timer => h.timers_apart hother hjob
  cases task with
  | release job =>
    obtain rfl : job = k.run.job := TimedSubject.deadline_concerns.mp concerns
    rw [execute, hdrop, htake]
  | wake e stops =>
    obtain rfl : e = c := TimedSubject.check_concerns.mp concerns
    cases stops with
    | true => exact htake
    | false =>
      rw [execute_wake_eq (s := { s with queue := rest }) found,
        view_pursue (s := drop { s with queue := rest } k.run.job) free, hdrop, htake,
        if_neg (Ne.symm hne), Multiset.zero_add]
  | arm e =>
    obtain rfl : e = c := TimedSubject.check_concerns.mp concerns
    rw [execute_arm_eq (s := { s with queue := rest }) found (h.unset_of_arm first found), ← htake]
    ext1
    . rfl
    . rfl
    . rfl
    . rfl
    . simp only [view, SortedMap.get?_insert_eq, if_neg hjob.symm]
    . simp only [view, List.filterMap_append, List.filterMap_cons, List.filterMap_nil, if_neg hne,
        List.append_nil]

theorem Sound.turns_take (h : Sound s) (free : s.loop = []) (first : s.queue = task :: rest)
    : Turns s ({ s with queue := rest }.execute task) := by
  intro d new hnew
  rw [execute_checks] at hnew
  obtain ⟨c, k, found, concerns⟩ := h.known.queue task (first ▸ List.mem_cons_self)
  refine ⟨new, hnew, ?_⟩
  by_cases hcd : c = d
  . subst hcd
    obtain rfl : k = new := Option.some.inj (found.symm.trans hnew)
    exact h.turn_execute_self free first found concerns
  . rw [h.view_execute_other free first found concerns hnew hcd]
    exact .rest

end Take

theorem turns_goOff {timer : Nat} (running : (timer, c) ∈ s.waits)
    : Turns s (s.goOff timer c) := by
  intro d new hnew
  refine ⟨new, hnew, ?_⟩
  have hwaits := (List.perm_cons_erase running).filterMap
    fun wait => if wait.2 = d then some wait.1 else none
  rw [List.filterMap_cons] at hwaits
  by_cases hd : c = d
  . subst hd
    rw [if_pos rfl] at hwaits
    have hcue : (TimerTask.wake c false).cue? c new.run.job = some .wake := if_pos (.inl rfl)
    have hview : (s.goOff timer c).view c new =
        { s.view c new with
          waits := ((s.goOff timer c).view c new).waits
          queue := (s.view c new).queue ++ [.wake] } := by
      simp only [view, goOff, hands, List.filterMap_append, List.filterMap_cons, hcue,
        List.filterMap_nil]
    rw [hview]
    exact .goOff timer _ (Multiset.coe_eq_coe.mpr hwaits)
  . rw [if_neg hd] at hwaits
    have hcue : (TimerTask.wake c false).cue? d new.run.job = none :=
      if_neg (by simp [TimerTask.subject, hd])
    have hview : (s.goOff timer c).view d new = s.view d new := by
      simp only [view, goOff, hands, List.filterMap_append, List.filterMap_cons, hcue,
        List.filterMap_nil, List.append_nil, Multiset.coe_eq_coe.mpr hwaits]
    rw [hview]
    exact .rest

theorem hands_begin (s : Timekeeping) (act : TimedAct)
    : (s.begin act).hands = s.hands ++ [act] := by
  simp [hands, begin]

theorem turns_begin (distinct : s.Distinct) (found : s.checks[c]? = some k)
    (begun : (s.view c k).begun) (about : act.subject = .check c) (cue : act.cue = .other)
    : Turns s (s.begin act) := by
  intro d new hnew
  refine ⟨new, hnew, ?_⟩
  by_cases hd : c = d
  . subst hd
    obtain rfl : k = new := Option.some.inj (found.symm.trans hnew)
    have hview : (s.begin act).view c k =
        { s.view c k with hands := .other ::ₘ (s.view c k).hands } := by
      ext1
      . rfl
      . rfl
      . simp only [view, hands_begin, List.filterMap_append, List.filterMap_cons,
          TimedAct.cue?_of_subject about, cue, List.filterMap_nil, ← Multiset.coe_add,
          Multiset.coe_singleton]
        rw [Multiset.add_comm, Multiset.singleton_add]
      all_goals rfl
    rw [hview]
    exact .begin begun
  . have hjob : k.run.job ≠ new.run.job := fun heq => hd (distinct.eq_of_job found hnew heq)
    have hcue : act.cue? d new.run.job = none :=
      if_neg (TimedSubject.not_concerns (.inl about) hd hjob)
    have hview : (s.begin act).view d new = s.view d new := by
      ext1
      . rfl
      . rfl
      . simp only [view, hands_begin, List.filterMap_append, List.filterMap_cons, hcue,
          List.filterMap_nil, List.append_nil]
      all_goals rfl
    rw [hview]
    exact .rest

end Timekeeping

end SnapshotAudit
