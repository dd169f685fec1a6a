import SnapshotAudit.Proofs.Check.Turns

/-!
This module contains that a coordinator stays sound whatever happens in it: all that it has to do
and all timers belong to its checks, and the deadline of each check is at some stage.
-/

namespace SnapshotAudit

namespace Timekeeping

variable {s next : Timekeeping} {act : TimedAct} {c : Nat} {k : TimedCheck}

/-!
What there is in a coordinator belongs to its checks, whatever it does.
-/

def Keeps (s next : Timekeeping) : Prop :=
  ∀ (c : Nat) (k : TimedCheck), s.checks[c]? = some k →
    ∃ new : TimedCheck, next.checks[c]? = some new ∧ new.run.job = k.run.job

theorem keeps_of_checks_eq (h : next.checks = s.checks) : Keeps s next :=
  fun _ k found => ⟨k, h ▸ found, rfl⟩

theorem Has.keep {p : Nat → UInt64 → Prop} (h : s.Has p) (keeps : Keeps s next) : next.Has p := by
  obtain ⟨c, k, found, hp⟩ := h
  obtain ⟨new, hnew, hjob⟩ := keeps c k found
  exact ⟨c, new, hnew, hjob ▸ hp⟩

theorem perform_checks (s : Timekeeping) (act : TimedAct) (c : Nat)
    : (s.perform act).1.checks[c]? = s.checks[c]?.map fun k =>
        if act.subject = .check c then k.undergo s.timeout act else k := by
  cases habout : act.subject with
  | deadline job => simp [perform, habout]
  | check d =>
    cases hd : s.checks[d]? with
    | none =>
      by_cases hcd : d = c
      . subst hcd
        simp [perform, habout, hd]
      . simp [perform, habout, hd, hcd]
    | some k =>
      rw [perform_eq habout hd, List.getElem?_set]
      by_cases hcd : d = c
      . subst hcd
        rw [if_pos rfl, if_pos (List.getElem?_eq_some_iff.mp hd).1, hd, Option.map_some, if_pos rfl]
      . simp [hcd]

theorem Done.keeps (h : Done s next act) : Keeps s next := by
  intro c k found
  refine ⟨if act.subject = .check c then k.undergo s.timeout act else k, ?_, ?_⟩
  . rw [h.checks, perform_checks, found, Option.map_some]
  . split
    next => exact k.undergo_job s.timeout act
    next => rfl

theorem has_of_mem_perform {after : TimedAct} (h : after ∈ (s.perform act).2)
    : s.Has after.subject.Concerns := by
  cases habout : act.subject with
  | deadline job => simp [perform, habout] at h
  | check c =>
    cases found : s.checks[c]? with
    | none => simp [perform, habout, found] at h
    | some k =>
      rw [perform_eq habout found] at h
      exact ⟨c, k, found, TimedCheck.concerns_of_mem_followUp habout h⟩

theorem mem_perform_queue {task : TimerTask} (h : task ∈ (s.perform act).1.queue)
    : task ∈ s.queue ∨ task ∈ act.posts := by
  unfold perform at h
  split at h
  next => exact List.mem_append.mp h
  next =>
    split at h
    next => exact .inl h
    next => exact List.mem_append.mp h

theorem Known.done (h : s.Known) (done : Done s next act) : next.Known := by
  obtain ⟨rest, hbefore, hafter⟩ := done.hands
  refine ⟨?_, ?_, ?_⟩
  . intro other hother
    apply Has.keep ?_ done.keeps
    rcases List.mem_append.mp (hafter.mem_iff.mp hother) with hthen | hrest
    . exact has_of_mem_perform hthen
    . exact h.hands other (hbefore.mem_iff.mpr (List.mem_cons_of_mem _ hrest))
  . intro task htask
    apply Has.keep ?_ done.keeps
    rw [done.queue] at htask
    rcases mem_perform_queue htask with hold | hposted
    . exact h.queue task hold
    . obtain ⟨c, k, found, hact⟩ := h.hands act (hbefore.mem_iff.mpr List.mem_cons_self)
      exact ⟨c, k, found, TimedAct.subject_of_posts hposted ▸ hact⟩
  . intro wait hwait
    rw [done.waits] at hwait
    exact (h.waits wait hwait).keep done.keeps

theorem Known.begin (h : s.Known) (about : s.Has act.subject.Concerns) : (s.begin act).Known := by
  refine ⟨?_, h.queue, h.waits⟩
  intro other hother
  rw [hands_begin] at hother
  rcases List.mem_append.mp hother with hold | hnew
  . exact h.hands other hold
  . rw [List.mem_singleton.mp hnew]
    exact about

theorem Known.goOff (h : s.Known) {timer : Nat} (running : (timer, c) ∈ s.waits)
    : (s.goOff timer c).Known := by
  refine ⟨h.hands, ?_, fun wait hwait => h.waits wait (List.mem_of_mem_erase hwait)⟩
  intro task htask
  rcases List.mem_append.mp htask with hold | hnew
  . exact h.queue task hold
  . rw [List.mem_singleton.mp hnew]
    obtain ⟨d, k, found, rfl⟩ := h.waits (timer, c) running
    exact ⟨d, k, found, .inl rfl⟩

theorem Known.stop (h : s.Known) (timer : Option Nat) : (s.stop timer).Known := by
  refine ⟨h.hands, ?_, fun wait hwait => h.waits wait (List.mem_of_mem_filter hwait)⟩
  intro task htask
  rcases List.mem_append.mp htask with hold | hheard
  . exact h.queue task hold
  . obtain ⟨wait, hwait, rfl⟩ := List.mem_map.mp hheard
    obtain ⟨c, k, found, hc⟩ := h.waits wait (List.mem_of_mem_filter hwait)
    exact ⟨c, k, found, .inl (congrArg TimedSubject.check hc.symm)⟩

theorem Known.drop (h : s.Known) (job : UInt64) : (s.drop job).Known :=
  Known.stop (s := { s with deadlines := s.deadlines.erase job }) ⟨h.hands, h.queue, h.waits⟩ _

theorem Known.set (h : s.Known) (job : UInt64) (found : s.checks[c]? = some k)
    : (s.set job c).Known := by
  apply Known.stop
  refine ⟨h.hands, h.queue, ?_⟩
  intro wait hwait
  rcases List.mem_append.mp hwait with hold | hnew
  . exact h.waits wait hold
  . rw [List.mem_singleton.mp hnew]
    exact ⟨c, k, found, rfl⟩

theorem Known.pursue (h : s.Known) (about : s.Has act.subject.Concerns)
    : (s.pursue [act]).Known := by
  refine ⟨?_, h.queue, h.waits⟩
  intro other hother
  rcases List.mem_append.mp hother with hnew | hthread
  . rw [List.mem_singleton.mp hnew]
    exact about
  . exact h.hands other (List.mem_append_right _ hthread)

theorem Known.execute {task : TimerTask} (h : s.Known) : (s.execute task).Known := by
  cases task with
  | release job => exact h.drop job
  | wake c stopped =>
    cases stopped with
    | true => exact h
    | false =>
      rw [Timekeeping.execute]
      split
      next => exact h
      next k found => exact (h.drop k.run.job).pursue ⟨c, k, found, .inl rfl⟩
  | arm c =>
    rw [Timekeeping.execute]
    split
    next => exact h
    next k found => exact h.set k.run.job found

theorem Known.take {task : TimerTask} {rest : List TimerTask} (h : s.Known)
    (first : s.queue = task :: rest) : ({ s with queue := rest }.execute task).Known := by
  have hrest (other : TimerTask) (hother : other ∈ rest) : s.Has other.subject.Concerns :=
    h.queue other (first ▸ List.mem_cons_of_mem _ hother)
  exact Known.execute (s := { s with queue := rest }) ⟨h.hands, hrest, h.waits⟩

/-!
Every timer has an owner.
-/

theorem Owned.mono (h : s.Owned) (keeps : Keeps s next) (deadlines : next.deadlines = s.deadlines)
    (fresh : next.fresh = s.fresh) : next.Owned where
  fresh job timer hget := by
    rw [fresh]
    exact h.fresh job timer (deadlines ▸ hget)
  has job timer hget := (h.has job timer (deadlines ▸ hget)).keep keeps
  apart job other timer hget hother :=
    h.apart job other timer (deadlines ▸ hget) (deadlines ▸ hother)

theorem Owned.drop (h : s.Owned) (job : UInt64) : (s.drop job).Owned := by
  have hold {other : UInt64} {timer : Nat} (hget : (s.drop job).deadlines.get? other = some timer)
      : s.deadlines.get? other = some timer := by
    rw [drop_eq, SortedMap.get?_erase_eq, Option.ite_none_left_eq_some] at hget
    exact hget.2
  exact ⟨fun other timer hget => h.fresh other timer (hold hget),
    fun other timer hget => h.has other timer (hold hget),
    fun one other timer hget hother => h.apart one other timer (hold hget) (hold hother)⟩

theorem Owned.set (h : s.Owned) (found : s.checks[c]? = some k) : (s.set k.run.job c).Owned := by
  have hcases {job : UInt64} {timer : Nat}
      (hget : (s.deadlines.insert k.run.job s.fresh).get? job = some timer)
      : (job = k.run.job ∧ timer = s.fresh) ∨ s.deadlines.get? job = some timer := by
    rw [SortedMap.get?_insert_eq] at hget
    split at hget
    next heq => exact .inl ⟨heq, (Option.some.inj hget).symm⟩
    next => exact .inr hget
  refine ⟨?_, ?_, ?_⟩
  . intro job timer hget
    rcases hcases hget with ⟨-, rfl⟩ | hold
    . exact Nat.lt_succ_self s.fresh
    . exact Nat.lt_succ_of_lt (h.fresh job timer hold)
  . intro job timer hget
    rcases hcases hget with ⟨rfl, -⟩ | hold
    . exact ⟨c, k, found, rfl⟩
    . exact h.has job timer hold
  . -- no timer that is kept is as new as the one that is set
    intro job other timer hget hother
    rcases hcases hget, hcases hother with ⟨⟨rfl, rfl⟩ | hold, ⟨rfl, hfresh⟩ | hkept⟩
    . rfl
    . exact absurd (h.fresh other _ hkept) (Nat.lt_irrefl _)
    . exact absurd (h.fresh job _ hold) (hfresh ▸ Nat.lt_irrefl _)
    . exact h.apart job other timer hold hkept

theorem Owned.execute {task : TimerTask} (h : s.Owned) : (s.execute task).Owned := by
  cases task with
  | release job => exact h.drop job
  | wake c stopped =>
    cases stopped with
    | true => exact h
    | false =>
      rw [Timekeeping.execute]
      split
      next => exact h
      next k found => exact (h.drop k.run.job).mono (keeps_of_checks_eq rfl) rfl rfl
  | arm c =>
    rw [Timekeeping.execute]
    split
    next => exact h
    next k found => exact h.set found

/-!
A check that is started.
-/

variable {run : CheckRun}

theorem Distinct.of_enroll (h : (s.enroll run).Distinct)
    : s.Distinct ∧ ∀ k ∈ s.checks, k.run.job ≠ run.job := by
  rw [Distinct, enroll, List.map_append, List.nodup_append] at h
  refine ⟨h.1, fun k hk heq => ?_⟩
  exact h.2.2 k.run.job (List.mem_map.mpr ⟨k, hk, rfl⟩) run.job (by simp) heq

theorem keeps_enroll (s : Timekeeping) (run : CheckRun) : Keeps s (s.enroll run) :=
  fun c k found => ⟨k, by rw [enroll, getElem?_append_singleton]; exact .inr found, rfl⟩

theorem hands_enroll (s : Timekeeping) (run : CheckRun)
    : (s.enroll run).hands = s.hands ++ openingActs s.checks.length run := by
  simp [hands, enroll]

theorem subject_of_openingActs (h : act ∈ openingActs c run) : act.subject = .check c := by
  unfold openingActs at h
  split at h
  next => rw [List.mem_singleton.mp h]; rfl
  next => rw [List.mem_singleton.mp h]; rfl

theorem Known.enroll (h : s.Known) : (s.enroll run).Known := by
  have keeps := keeps_enroll s run
  refine ⟨?_, fun task htask => (h.queue task htask).keep keeps,
    fun wait hwait => (h.waits wait hwait).keep keeps⟩
  intro act hact
  rw [hands_enroll] at hact
  rcases List.mem_append.mp hact with hold | hnew
  . exact (h.hands act hold).keep keeps
  . refine ⟨s.checks.length, ⟨run, [], false⟩, ?_, .inl (subject_of_openingActs hnew)⟩
    rw [Timekeeping.enroll, getElem?_append_singleton]
    exact .inl ⟨rfl, rfl⟩

theorem Has.apart {p : Nat → UInt64 → Prop} (h : s.Has p) {job : UInt64}
    (hjob : ∀ k ∈ s.checks, k.run.job ≠ job)
    : ∃ c other, p c other ∧ c ≠ s.checks.length ∧ other ≠ job := by
  obtain ⟨c, k, found, hp⟩ := h
  obtain ⟨hlt, -⟩ := List.getElem?_eq_some_iff.mp found
  exact ⟨c, k.run.job, hp, Nat.ne_of_lt hlt, hjob k (List.mem_of_getElem? found)⟩

theorem Sound.view_enroll_new (h : Sound s) (hjob : ∀ k ∈ s.checks, k.run.job ≠ run.job)
    : (s.enroll run).view s.checks.length ⟨run, [], false⟩ = {
        begun := False
        finished := run.finished
        hands := {if run.finished then .other else .arm}
        queue := []
        timer := none
        waits := 0 } := by
  have hhands : s.hands.filterMap (fun act => act.cue? s.checks.length run.job) = [] := by
    apply List.filterMap_eq_nil_iff.mpr
    intro act hact
    obtain ⟨c, other, hconcerns, hc, hother⟩ := (h.known.hands act hact).apart hjob
    exact if_neg (TimedSubject.not_concerns hconcerns hc hother)
  have hqueue : s.queue.filterMap (fun task => task.cue? s.checks.length run.job) = [] := by
    apply List.filterMap_eq_nil_iff.mpr
    intro task htask
    obtain ⟨c, other, hconcerns, hc, hother⟩ := (h.known.queue task htask).apart hjob
    exact if_neg (TimedSubject.not_concerns hconcerns hc hother)
  have hwaits : s.waits.filterMap
      (fun wait => if wait.2 = s.checks.length then some wait.1 else none) = [] := by
    apply List.filterMap_eq_nil_iff.mpr
    intro wait hwait
    obtain ⟨c, other, rfl, hc, -⟩ := (h.known.waits wait hwait).apart hjob
    exact if_neg hc
  have hopening : (openingActs s.checks.length run).filterMap
      (fun act => act.cue? s.checks.length run.job) = [if run.finished then .other else .arm] := by
    cases hfinished : run.finished with
    | true =>
      simp [openingActs, hfinished, TimedAct.cue?, TimedAct.subject, TimedAct.cue]
    | false =>
      simp [openingActs, hfinished, TimedAct.cue?, TimedAct.subject, TimedAct.cue]
  have htimer : s.deadlines.get? run.job = none := by
    apply Option.eq_none_iff_forall_ne_some.mpr
    intro timer hget
    obtain ⟨c, other, heq, -, hother⟩ := (h.owned.has run.job timer hget).apart hjob
    exact hother heq
  ext1
  . simp [view]
  . rfl
  . simp only [view, hands_enroll, List.filterMap_append, hhands, List.nil_append, hopening,
      Multiset.coe_singleton]
  . exact hqueue
  . exact htimer
  . simp only [view, enroll, hwaits, Multiset.coe_nil]

theorem view_enroll_old (hjob : ∀ k ∈ s.checks, k.run.job ≠ run.job)
    (found : s.checks[c]? = some k) : (s.enroll run).view c k = s.view c k := by
  obtain ⟨hlt, -⟩ := List.getElem?_eq_some_iff.mp found
  have hopening : (openingActs s.checks.length run).filterMap
      (fun act => act.cue? c k.run.job) = [] := by
    apply List.filterMap_eq_nil_iff.mpr
    intro act hact
    apply if_neg
    exact TimedSubject.not_concerns (.inl (subject_of_openingActs hact)) (Nat.ne_of_gt hlt)
      (hjob k (List.mem_of_getElem? found)).symm
  ext1
  . rfl
  . rfl
  . simp only [view, hands_enroll, List.filterMap_append, hopening, List.append_nil]
  all_goals rfl

theorem Sound.stages_enroll (h : Sound s) (hjob : ∀ k ∈ s.checks, k.run.job ≠ run.job)
    (found : (s.enroll run).checks[c]? = some k) : ((s.enroll run).view c k).Stage := by
  rw [enroll, getElem?_append_singleton] at found
  rcases found with ⟨rfl, rfl⟩ | hold
  . rw [h.view_enroll_new hjob]
    cases hfinished : run.finished with
    | true =>
      exact .past ⟨by simp, by simp, rfl, rfl, .inl rfl, fun _ => rfl⟩
    | false => exact .unarmed ⟨rfl, rfl, rfl, rfl, id, rfl⟩
  . rw [view_enroll_old hjob hold]
    exact h.stages c k hold

/-!
Whatever happens, all of this stays so.
-/

theorem Distinct.of_keeps (h : next.Distinct) (keeps : Keeps s next) : s.Distinct := by
  apply List.nodup_iff_getElem?_ne_getElem?.mpr
  intro c d hlt hd heq
  rw [List.length_map] at hd
  rw [List.getElem?_map, List.getElem?_map, List.getElem?_eq_getElem (Nat.lt_trans hlt hd),
    List.getElem?_eq_getElem hd, Option.map_some, Option.map_some, Option.some.injEq] at heq
  obtain ⟨one, hone, hjob⟩ := keeps c _ (List.getElem?_eq_getElem (Nat.lt_trans hlt hd))
  obtain ⟨other, hother, hjob'⟩ := keeps d _ (List.getElem?_eq_getElem hd)
  have := h.eq_of_job hone hother (hjob.trans (heq.trans hjob'.symm))
  omega

theorem Goes.keeps (goes : Goes s next) : Keeps s next := by
  cases goes with
  | act i act rest there => exact (done_of_act there).keeps
  | work act rest there => exact (done_of_work there).keeps
  | take task rest => exact keeps_of_checks_eq (execute_checks _ task)

theorem Step.keeps (step : Step s next) : Keeps s next := by
  cases step with
  | check assignment desc members => exact keeps_enroll s _
  | reply => exact keeps_of_checks_eq rfl
  | cancel => exact keeps_of_checks_eq rfl
  | goOff => exact keeps_of_checks_eq rfl
  | go goes => exact goes.keeps

namespace Sound

variable (h : Sound s)
include h

theorem stages_of_turns (turns : Turns s next) (found : next.checks[c]? = some k)
    : (next.view c k).Stage := by
  obtain ⟨old, hold, turn⟩ := turns c k found
  exact (h.stages c old hold).turn turn

theorem enroll (assignment : Assignment) (desc : SnapshotDescriptor) (members : List Member)
    (distinct : (s.enroll (.startOn assignment s.nextJob desc members)).Distinct)
    : Sound (s.enroll (.startOn assignment s.nextJob desc members)) where
  distinct := distinct
  known := h.known.enroll
  owned := h.owned.mono (keeps_enroll s _) rfl rfl
  attended k hk hparticipants := by
    rcases List.mem_append.mp hk with hold | hnew
    . exact h.attended k hold hparticipants
    . rw [List.mem_singleton.mp hnew] at hparticipants ⊢
      rw [CheckRun.startOn_participants] at hparticipants
      rw [CheckRun.startOn_finished, hparticipants]
      rfl
  stages _ _ found := h.stages_enroll distinct.of_enroll.2 found

theorem begin (found : s.checks[c]? = some k) (begun : (s.view c k).begun)
    (about : act.subject = .check c) (cue : act.cue = .other) : Sound (s.begin act) where
  distinct := h.distinct
  known := h.known.begin ⟨c, k, found, .inl about⟩
  owned := h.owned.mono (keeps_of_checks_eq rfl) rfl rfl
  attended := h.attended
  stages _ _ := h.stages_of_turns (turns_begin h.distinct found begun about cue)

theorem goOff {timer : Nat} (running : (timer, c) ∈ s.waits) : Sound (s.goOff timer c) where
  distinct := h.distinct
  known := h.known.goOff running
  owned := h.owned.mono (keeps_of_checks_eq rfl) rfl rfl
  attended := h.attended
  stages _ _ := h.stages_of_turns (turns_goOff running)

theorem done (done : Done s next act) (distinct : next.Distinct) : Sound next where
  distinct := distinct
  known := h.known.done done
  owned := h.owned.mono done.keeps done.deadlines done.fresh
  attended k hk hparticipants := by
    obtain ⟨c, found⟩ := List.mem_iff_getElem?.mp hk
    rw [done.checks, perform_checks, Option.map_eq_some_iff] at found
    obtain ⟨old, hold, rfl⟩ := found
    have hattended := h.attended old (List.mem_of_getElem? hold)
    split at hparticipants
    next about =>
      rw [if_pos about]
      rw [TimedCheck.undergo_participants] at hparticipants
      exact TimedCheck.undergo_finished (hattended hparticipants) s.timeout act
    next about =>
      rw [if_neg about]
      exact hattended hparticipants
  stages _ _ found := by
    obtain ⟨rest, hbefore, -⟩ := done.hands
    obtain ⟨c, k, hc, concerns⟩ := h.known.hands act (hbefore.mem_iff.mpr List.mem_cons_self)
    exact h.stages_of_turns (done.turns h.distinct hc concerns) found

theorem take {task : TimerTask} {rest : List TimerTask} (free : s.loop = [])
    (first : s.queue = task :: rest) : Sound ({ s with queue := rest }.execute task) where
  distinct := by
    rw [Distinct, execute_checks]
    exact h.distinct
  known := h.known.take first
  owned := Owned.execute (s := { s with queue := rest })
    (h.owned.mono (keeps_of_checks_eq rfl) rfl rfl)
  attended k hk := by
    rw [execute_checks] at hk
    exact h.attended k hk
  stages _ _ := h.stages_of_turns (h.turns_take free first)

theorem goes (goes : Goes s next) (distinct : next.Distinct) : Sound next := by
  cases goes with
  | act i act rest there => exact h.done (done_of_act there) distinct
  | work act rest there => exact h.done (done_of_work there) distinct
  | take task rest free first => exact h.take free first

theorem step (step : Step s next) (distinct : next.Distinct) : Sound next := by
  cases step with
  | check assignment desc members => exact h.enroll assignment desc members distinct
  | reply c k outcome found asked =>
    exact h.begin found (.inl (List.ne_nil_of_mem asked)) rfl rfl
  | cancel c k found handedOut => exact h.begin found (.inr handedOut) rfl rfl
  | goOff timer c running => exact h.goOff running
  | go goes => exact h.goes goes distinct

end Sound

theorem sound_start (self : Text) (timeout : Nat) (job : UInt64)
    : Sound (start self timeout job) where
  distinct := List.nodup_nil
  known := ⟨nofun, nofun, nofun⟩
  owned := ⟨nofun, nofun, nofun⟩
  attended := nofun
  stages _ _ found := by simp [start] at found

variable {self : Text} {timeout : Nat} {job : UInt64}

theorem Reached.sound (h : Reached self timeout job s) (distinct : s.Distinct) : Sound s := by
  induction h with
  | start => exact sound_start self timeout job
  | step _ step ih => exact (ih (distinct.of_keeps step.keeps)).step step distinct

/-!
What is left when nothing is going on.
-/

theorem Idle.view (h : s.Idle) (c : Nat) (k : TimedCheck)
    : (s.view c k).hands = 0 ∧ (s.view c k).queue = [] := by
  have hhands : s.hands = [] := by
    rw [hands, h.loop, List.nil_append, List.flatten_eq_nil_iff]
    exact h.threads
  simp [Timekeeping.view, hhands, h.queue]

theorem Sound.of_idle (h : Sound s) (idle : s.Idle) (found : s.checks[c]? = some k)
    : (k.run.finished = false ∧ ∃ timer, s.deadlines.get? k.run.job = some timer ∧
        (s.view c k).waits = {timer}) ∨
      (k.run.finished = true ∧ s.deadlines.get? k.run.job = none ∧ (s.view c k).waits = 0) :=
  (h.stages c k found).of_idle (idle.view c k).1 (idle.view c k).2

theorem Sound.contains_iff (h : Sound s) (idle : s.Idle) (job : UInt64)
    : s.deadlines.contains job = true ↔
      ∃ k ∈ s.checks, k.run.job = job ∧ k.run.participants ≠ [] ∧ k.run.finished = false := by
  rw [SortedMap.contains_eq_true_iff]
  constructor
  . rintro ⟨timer, hget⟩
    obtain ⟨c, k, found, rfl⟩ := h.owned.has job timer hget
    have hk := List.mem_of_getElem? found
    rcases h.of_idle idle found with ⟨running, -⟩ | ⟨-, hnone, -⟩
    . refine ⟨k, hk, rfl, fun hparticipants => ?_, running⟩
      rw [h.attended k hk hparticipants] at running
      cases running
    . rw [hget] at hnone
      cases hnone
  . rintro ⟨k, hk, rfl, -, running⟩
    obtain ⟨c, found⟩ := List.mem_iff_getElem?.mp hk
    rcases h.of_idle idle found with ⟨-, timer, hget, -⟩ | ⟨closed, -⟩
    . exact ⟨timer, hget⟩
    . rw [closed] at running
      cases running

theorem Sound.mem_waits_iff (h : Sound s) (idle : s.Idle) (c timer : Nat)
    : (timer, c) ∈ s.waits ↔
      ∃ k, s.checks[c]? = some k ∧ s.deadlines.get? k.run.job = some timer := by
  constructor
  . intro hwait
    obtain ⟨d, k, found, rfl⟩ := h.known.waits (timer, c) hwait
    exact ⟨k, found, h.timer_of_waits found hwait⟩
  . rintro ⟨k, found, hget⟩
    rcases h.of_idle idle found with ⟨-, other, hother, hwaits⟩ | ⟨-, hnone, -⟩
    . obtain rfl : timer = other := Option.some.inj (hget.symm.trans hother)
      rw [← mem_view_waits (k := k), hwaits]
      exact Multiset.mem_singleton_self timer
    . rw [hget] at hnone
      cases hnone

end Timekeeping

end SnapshotAudit
