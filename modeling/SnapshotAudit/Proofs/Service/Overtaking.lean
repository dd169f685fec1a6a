import SnapshotAudit.Proofs.Lists
import SnapshotAudit.Proofs.Service.Moves

/-!
This module contains what becomes of a cancellation that comes before its job. A node remembers it
and refuses the job when that comes, unless it has forgotten the cancellation in between. Of too
many cancellations it forgets the one of the smallest job, however recent that is, so that it
depends on the other jobs how long a cancellation is remembered.
-/

namespace SnapshotAudit

namespace VerifyService

variable {service : VerifyService} {job other : UInt64}

structure Forgets (service : VerifyService) (job forgotten : UInt64) : Prop where
  unknown : service.pending.contains job = false
  full : maximumEarly ≤ service.cancelledEarly.size
  least : service.cancelledEarly.least? = some forgotten
  another : job ≠ forgotten

def above (service : VerifyService) (job : UInt64) : List UInt64 :=
  service.cancelledEarly.elements.filter fun other => job < other

theorem mem_above : other ∈ service.above job ↔
    service.cancelledEarly.contains other = true ∧ job < other := by
  rw [above, List.mem_filter, SortedSet.mem_elements, decide_eq_true_eq]

theorem nodup_above (service : VerifyService) (job : UInt64) : (service.above job).Nodup :=
  service.cancelledEarly.keys_nodup.filter _

theorem size_le_of_least (h : service.cancelledEarly.least? = some job)
    : service.cancelledEarly.size ≤ (service.above job).length + 1 := by
  rw [← List.length_cons (a := job)]
  apply SortedMap.size_le_length
  intro other hother
  rw [List.mem_cons, mem_above]
  exact ((SortedSet.least?_eq_some_iff.mp h).2 other hother).imp_right fun hlt =>
    ⟨hother, Std.compare_eq_lt.mp hlt⟩

/-!
What the steps of a service leave of the cancellations that it remembers.
-/

def spared (service : VerifyService) : SortedSet UInt64 :=
  let early := service.cancelledEarly
  if maximumEarly ≤ early.size then
    match early.least? with
    | none => early
    | some least => early.erase least
  else early

theorem cancelledEarly_rememberCancel (service : VerifyService) (job : UInt64)
    : (service.rememberCancel job).cancelledEarly = service.spared.add job := rfl

theorem contains_spared (service : VerifyService) (other : UInt64)
    : service.spared.contains other = true ↔
      service.cancelledEarly.contains other = true ∧
        ¬(maximumEarly ≤ service.cancelledEarly.size ∧
          service.cancelledEarly.least? = some other) := by
  unfold spared
  dsimp only
  split
  next full =>
    split
    next hnone => simp [hnone]
    next least hleast =>
      rw [SortedMap.contains_erase, and_comm, hleast, Option.some.injEq, eq_comm (a := least)]
      simp [full]
  next room => simp [room]

theorem size_spared_add_one (full : maximumEarly ≤ service.cancelledEarly.size)
    : service.spared.size + 1 = service.cancelledEarly.size := by
  obtain ⟨least, hleast⟩ := SortedSet.exists_least? (Nat.lt_of_lt_of_le (by decide) full)
  simp only [spared, if_pos full, hleast]
  exact SortedMap.size_erase_add_one (SortedSet.least?_eq_some_iff.mp hleast).1

theorem size_rememberCancel_le (h : service.cancelledEarly.size ≤ maximumEarly) (job : UInt64)
    : (service.rememberCancel job).cancelledEarly.size ≤ maximumEarly := by
  rw [cancelledEarly_rememberCancel]
  apply Nat.le_trans (SortedMap.size_insert_le ..)
  by_cases full : maximumEarly ≤ service.cancelledEarly.size
  . rw [size_spared_add_one full]
    exact h
  . rw [spared, if_neg full]
    exact Nat.lt_of_not_le full

theorem cancel_of_unknown (unknown : service.pending.contains job = false)
    : service.cancel job = (service.rememberCancel job, false) := by
  have hnone : service.pending.get? job = none := by simpa [SortedMap.contains] using unknown
  rw [cancel, hnone]

theorem cancelledEarly_cancel_of_pending (pending : service.pending.contains job = true)
    : (service.cancel job).1.cancelledEarly = service.cancelledEarly := by
  obtain ⟨attached, hsome⟩ := SortedMap.contains_eq_true_iff.mp pending
  rw [cancel, hsome]

theorem contains_cancelledEarly_cancel (service : VerifyService) (job other : UInt64)
    : (service.cancel job).1.cancelledEarly.contains other = true ↔
      (other = job ∧ service.pending.contains job = false) ∨
        (service.cancelledEarly.contains other = true ∧ ¬service.Forgets job other) := by
  cases known : service.pending.contains job with
  | true =>
    rw [cancelledEarly_cancel_of_pending known]
    have hspared : ¬service.Forgets job other := by
      intro forgets
      rw [forgets.unknown] at known
      cases known
    simp [hspared]
  | false =>
    rw [cancel_of_unknown known, cancelledEarly_rememberCancel, SortedSet.add,
      SortedMap.contains_insert, contains_spared]
    by_cases heq : other = job
    . simp [heq]
    . have hforgets : service.Forgets job other ↔ maximumEarly ≤ service.cancelledEarly.size ∧
          service.cancelledEarly.least? = some other :=
        ⟨fun h => ⟨h.full, h.least⟩, fun h => ⟨known, h.1, h.2, Ne.symm heq⟩⟩
      simp [heq, hforgets]

theorem forgets_rememberCancel (full : maximumEarly ≤ service.cancelledEarly.size)
    (least : ∀ other, service.cancelledEarly.contains other = true → job < other)
    (unknown : service.pending.contains other = false) (another : other ≠ job)
    : (service.rememberCancel job).Forgets other job where
  unknown := unknown
  full := by
    have hnew : service.spared.contains job = false := by
      refine Bool.eq_false_iff.mpr fun held => ?_
      exact absurd (least job ((contains_spared ..).mp held).1) (UInt64.lt_irrefl job)
    rw [cancelledEarly_rememberCancel, SortedSet.add, SortedMap.size_insert_of_new hnew,
      size_spared_add_one full]
    exact full
  least := by
    rw [cancelledEarly_rememberCancel, SortedSet.least?_eq_some_iff]
    refine ⟨(SortedMap.contains_insert ..).mpr (.inl rfl), fun q hq => ?_⟩
    exact ((SortedMap.contains_insert ..).mp hq).imp_right fun held =>
      Std.compare_eq_lt.mpr (least q ((contains_spared ..).mp held).1)
  another := another

theorem Admitted.early {request : VerifyRequest} {decided : VerifyService × Admission}
    (h : service.Admitted request decided)
    : decided.1.cancelledEarly = service.cancelledEarly := by
  cases h <;> rfl

theorem Admitted.pending_of_contains {request : VerifyRequest}
    {decided : VerifyService × Admission} (h : service.Admitted request decided)
    (pending : decided.1.pending.contains job = true)
    : service.pending.contains job = true := by
  cases h with
  | refused gone => exact pending
  | owns known => exact ((SortedMap.contains_insert ..).mp pending).elim (fun h => h ▸ known) id
  | joins known => exact ((SortedMap.contains_insert ..).mp pending).elim (fun h => h ▸ known) id
  | waits => exact pending

theorem contains_cancelledEarly_arrive (service : VerifyService) (request : VerifyRequest)
    (other : UInt64)
    : (service.arrive request).1.cancelledEarly.contains other = true ↔
      other ≠ request.job ∧ service.cancelledEarly.contains other = true := by
  cases early : service.cancelledEarly.contains request.job with
  | true =>
    rw [arrive_of_early early]
    exact SortedMap.contains_erase ..
  | false =>
    rw [arrive_of_unknown early, ((service.recorded request.job).advance_admitted request).early]
    refine ⟨fun hother => ⟨?_, hother⟩, And.right⟩
    rintro rfl
    exact Bool.false_ne_true (early.symm.trans hother)

end VerifyService

namespace Serving

variable {conduct : Conduct} {serving next first : Serving} {s : ServingStep} {past : List Event}
variable {job other : UInt64}

inductive Recalls (service : VerifyService) : ServingStep → VerifyService → Prop where
  | enter (request : VerifyRequest) : Recalls service (.enter request) (service.arrive request).1
  | cancel (job : UInt64) : Recalls service (.cancel job) (service.cancel job).1
  | keep {s : ServingStep} {next : VerifyService}
    (early : next.cancelledEarly = service.cancelledEarly)
    (pending : ∀ job, next.pending.contains job = true → service.pending.contains job = true)
    (quiet : (∀ request, s ≠ .enter request) ∧ ∀ job, s ≠ .cancel job) : Recalls service s next

theorem Move.recalls (move : Move conduct serving s next)
    : Recalls serving.service s next.service := by
  cases move with
  | enter request => exact .enter request
  | cancel job => exact .cancel job
  | @retry index request found =>
    have hadmitted := serving.service.advance_admitted request
    exact .keep hadmitted.early (fun _ => hadmitted.pending_of_contains) (by simp)
  | release found returns =>
    refine .keep ?_ ?_ (by simp)
    . unfold become VerifyService.release
      dsimp only
      split <;> rfl
    . simp [become]
  | @collect index request id outcome found known =>
    refine .keep rfl ?_ (by simp)
    intro job hjob
    exact ((SortedMap.contains_erase ..).mp hjob).2
  | stir found => exact .keep rfl (fun _ => id) (by simp)
  | ask found asks => exact .keep rfl (fun _ => id) (by simp)
  | announce found => exact .keep rfl (fun _ => id) (by simp)
  | publish found => exact .keep rfl (fun _ => id) (by simp)
  | notify owed => exact .keep rfl (fun _ => id) (by simp)

/-!
What is remembered after a step.
-/

namespace Recalls

variable {service later : VerifyService}

theorem size_le (h : Recalls service s later)
    (bound : service.cancelledEarly.size ≤ VerifyService.maximumEarly)
    : later.cancelledEarly.size ≤ VerifyService.maximumEarly := by
  cases h with
  | enter request =>
    refine Nat.le_trans ?_ bound
    rw [← SortedMap.length_keys service.cancelledEarly]
    apply SortedMap.size_le_length
    intro other hother
    exact SortedMap.mem_keys.mpr
      ((service.contains_cancelledEarly_arrive request other).mp hother).2
  | cancel job =>
    cases known : service.pending.contains job with
    | true => rwa [VerifyService.cancelledEarly_cancel_of_pending known]
    | false =>
      rw [VerifyService.cancel_of_unknown known]
      exact VerifyService.size_rememberCancel_le bound job
  | keep early => rwa [early]

theorem pending_of_contains (h : Recalls service s later)
    (absent : ∀ request, s = .enter request → request.job ≠ job)
    (pending : later.pending.contains job = true) : service.pending.contains job = true := by
  cases h with
  | enter request =>
    cases early : service.cancelledEarly.contains request.job with
    | true => rwa [VerifyService.arrive_of_early early] at pending
    | false =>
      rw [VerifyService.arrive_of_unknown early] at pending
      have hadmitted := (service.recorded request.job).advance_admitted request
      have hrecorded := hadmitted.pending_of_contains pending
      exact ((VerifyService.contains_pending_recorded ..).mp hrecorded).resolve_left
        (absent request rfl).symm
  | cancel other =>
    obtain ⟨attached, hget⟩ := SortedMap.contains_eq_true_iff.mp pending
    rw [VerifyService.pending_cancel] at hget
    split at hget
    next => cases hget
    next => exact SortedMap.contains_eq_true_iff.mpr ⟨attached, hget⟩
  | keep _ kept => exact kept job pending

theorem contains_iff (h : Recalls service s later)
    (absent : ∀ request, s = .enter request → request.job ≠ job)
    (unknown : service.pending.contains job = false)
    : later.cancelledEarly.contains job = true ↔
      s = .cancel job ∨ (service.cancelledEarly.contains job = true ∧
        ∀ other, s = .cancel other → ¬service.Forgets other job) := by
  cases h with
  | enter request =>
    rw [VerifyService.contains_cancelledEarly_arrive]
    simp [(absent request rfl).symm]
  | cancel other =>
    rw [VerifyService.contains_cancelledEarly_cancel]
    have hsame : job = other ∧ service.pending.contains other = false ↔
        ServingStep.cancel other = .cancel job := by
      rw [ServingStep.cancel.injEq]
      refine ⟨fun h => h.1.symm, ?_⟩
      rintro rfl
      exact ⟨rfl, unknown⟩
    rw [hsame]
    simp
  | keep early _ quiet =>
    rw [early]
    simp [quiet.2]

theorem remembered_of_contains (h : Recalls service s later)
    (remembered : later.cancelledEarly.contains job = true)
    : service.cancelledEarly.contains job = true ∨
      (s = .cancel job ∧ service.pending.contains job = false) := by
  cases h with
  | enter request =>
    exact .inl ((service.contains_cancelledEarly_arrive request job).mp remembered).2
  | cancel other =>
    rcases (service.contains_cancelledEarly_cancel other job).mp remembered with ⟨rfl, known⟩ | held
    . exact .inr ⟨rfl, known⟩
    . exact .inl held.1
  | keep early => exact .inl (early ▸ remembered)

end Recalls

/-!
What is remembered after many steps.
-/

def Event.isNotice (event : Event) : Bool :=
  match event.step with
  | .cancel job => !event.before.service.pending.contains job
  | _ => false

def Event.Forgets (event : Event) (job : UInt64) : Prop :=
  ∃ other, event.step = .cancel other ∧ event.before.service.Forgets other job

/--
What happens from some moment on. Jobs may come as they like.
-/
inductive Follows (conduct : Conduct) (first : Serving) : List Event → Serving → Prop where
  | start : Follows conduct first [] first
  | move {past : List Event} {serving next : Serving} {s : ServingStep}
    (earlier : Follows conduct first past serving) (move : Move conduct serving s next)
    : Follows conduct first (past ++ [⟨serving, s, next⟩]) next

/--
Whenever the cancellation of a job is forgotten the job is cancelled again.
-/
def Kept (job : UInt64) (past : List Event) : Prop :=
  ∀ front event back, past = front ++ event :: back → event.Forgets job →
    ∃ later ∈ back, later.step = .cancel job

def Absent (job : UInt64) (past : List Event) : Prop :=
  ∀ event ∈ past, ∀ request, event.step = .enter request → request.job ≠ job

theorem kept_append (past : List Event) (event : Event)
    : Kept job (past ++ [event]) ↔
      ¬event.Forgets job ∧ (event.step = .cancel job ∨ Kept job past) := by
  constructor
  . intro h
    refine ⟨fun forgets => ?_, ?_⟩
    . obtain ⟨later, hlater, _⟩ := h past event [] rfl forgets
      cases hlater
    . by_cases hstep : event.step = .cancel job
      . exact .inl hstep
      . refine .inr ?_
        rintro front earlier back rfl forgets
        obtain ⟨later, hlater, hcancel⟩ := h front earlier (back ++ [event]) (by simp) forgets
        cases List.mem_append.mp hlater with
        | inl hback => exact ⟨later, hback, hcancel⟩
        | inr hlast =>
          rw [List.mem_singleton.mp hlast] at hcancel
          exact absurd hcancel hstep
  . rintro ⟨spared, hevent⟩ front earlier back hpast forgets
    rcases append_singleton_eq_append_cons hpast with ⟨rfl, rfl, rfl⟩ | ⟨middle, rfl, rfl⟩
    . exact absurd forgets spared
    . rcases hevent with hstep | hkept
      . exact ⟨event, by simp, hstep⟩
      . obtain ⟨later, hlater, hcancel⟩ := hkept front earlier middle rfl forgets
        exact ⟨later, List.mem_append_left _ hlater, hcancel⟩

theorem absent_append {event : Event}
    : Absent job (past ++ [event]) ↔
      Absent job past ∧ ∀ request, event.step = .enter request → request.job ≠ job := by
  simp [Absent, or_imp, forall_and]

theorem Event.isNotice_of_forgets {event : Event} (h : event.Forgets job)
    : event.isNotice = true := by
  obtain ⟨other, hstep, forgets⟩ := h
  rw [isNotice, hstep]
  simp [forgets.unknown]

theorem Move.length_above_le (move : Move conduct serving s next) (job : UInt64)
    : (next.service.above job).length ≤ (serving.service.above job).length +
      if Event.isNotice ⟨serving, s, next⟩ then 1 else 0 := by
  have hkept {other : UInt64} (hother : other ∈ next.service.above job) :
      other ∈ serving.service.above job ∨
        (s = .cancel other ∧ serving.service.pending.contains other = false) := by
    obtain ⟨hcontains, hlt⟩ := VerifyService.mem_above.mp hother
    exact (move.recalls.remembered_of_contains hcontains).imp_left fun hheld =>
      VerifyService.mem_above.mpr ⟨hheld, hlt⟩
  split
  next notice =>
    obtain ⟨other, rfl⟩ : ∃ other, s = .cancel other := by
      unfold Event.isNotice at notice
      split at notice
      next other hstep => exact ⟨other, hstep⟩
      next => cases notice
    rw [← List.length_cons (a := other)]
    apply (VerifyService.nodup_above ..).length_le_of_subset
    intro new hnew
    rcases hkept hnew with hheld | ⟨hstep, _⟩
    . exact List.mem_cons_of_mem _ hheld
    . rw [ServingStep.cancel.inj hstep]
      exact List.mem_cons_self
  next silent =>
    apply (VerifyService.nodup_above ..).length_le_of_subset
    intro new hnew
    rcases hkept hnew with hheld | ⟨rfl, unknown⟩
    . exact hheld
    . exact absurd (by simp [Event.isNotice, unknown]) silent

namespace Follows

theorem size_le (h : Follows conduct first past serving)
    (bound : first.service.cancelledEarly.size ≤ VerifyService.maximumEarly)
    : serving.service.cancelledEarly.size ≤ VerifyService.maximumEarly := by
  induction h with
  | start => exact bound
  | move earlier move ih => exact move.recalls.size_le ih

theorem unknown (h : Follows conduct first past serving) (absent : Absent job past)
    (unknown : first.service.pending.contains job = false)
    : serving.service.pending.contains job = false := by
  induction h with
  | start => exact unknown
  | @move past serving next s earlier move ih =>
    obtain ⟨hpast, hlast⟩ := absent_append.mp absent
    refine Bool.eq_false_iff.mpr fun pending => ?_
    have hbefore := move.recalls.pending_of_contains hlast pending
    exact Bool.false_ne_true ((ih hpast).symm.trans hbefore)

theorem contains_iff (h : Follows conduct first past serving) (absent : Absent job past)
    (unknown : first.service.pending.contains job = false)
    (remembered : first.service.cancelledEarly.contains job = true)
    : serving.service.cancelledEarly.contains job = true ↔ Kept job past := by
  induction h with
  | start => simp [remembered, Kept]
  | @move past serving next s earlier move ih =>
    obtain ⟨hpast, hlast⟩ := absent_append.mp absent
    have hunknown := earlier.unknown hpast unknown
    have hforgets : Event.Forgets ⟨serving, s, next⟩ job ↔
        ∃ other, s = .cancel other ∧ serving.service.Forgets other job := Iff.rfl
    -- a job does not take its own room
    have hown : s = .cancel job → ∀ other, s = .cancel other →
        ¬serving.service.Forgets other job := by
      rintro rfl other heq forgets
      exact forgets.another (ServingStep.cancel.inj heq).symm
    rw [move.recalls.contains_iff hlast hunknown, ih hpast, kept_append, hforgets]
    simp only [not_exists, not_and]
    constructor
    . rintro (hcancel | ⟨hkept, hspared⟩)
      . exact ⟨hown hcancel, .inl hcancel⟩
      . exact ⟨hspared, .inr hkept⟩
    . rintro ⟨hspared, hcancel | hkept⟩
      . exact .inl hcancel
      . exact .inr ⟨hkept, hspared⟩

theorem length_above_le (h : Follows conduct first past serving) (job : UInt64)
    : (serving.service.above job).length ≤
      (first.service.above job).length + past.countP Event.isNotice := by
  induction h with
  | start => simp
  | @move past serving next s earlier move ih =>
    have hlast := move.length_above_le job
    rw [List.countP_append, List.countP_singleton]
    omega

theorem to_event (h : Follows conduct first past serving) {front back : List Event} {event : Event}
    (hpast : past = front ++ event :: back) : Follows conduct first front event.before := by
  induction h generalizing back with
  | start => simp at hpast
  | @move past serving next s earlier move ih =>
    rcases append_singleton_eq_append_cons hpast with ⟨_, rfl, rfl⟩ | ⟨middle, _, rfl⟩
    . exact earlier
    . exact ih rfl

theorem kept_of_few (h : Follows conduct first past serving)
    (few : (first.service.above job).length + past.countP Event.isNotice <
      VerifyService.maximumEarly)
    : Kept job past := by
  intro front event back hpast forgets
  have hbefore := (h.to_event hpast).length_above_le job
  have ⟨_, _, hforgets⟩ := forgets
  have hfull := Nat.le_trans hforgets.full (VerifyService.size_le_of_least hforgets.least)
  rw [hpast, List.countP_append, List.countP_cons_of_pos (Event.isNotice_of_forgets forgets)] at few
  omega

end Follows

/-!
What becomes of the job.
-/

def refuse (serving : Serving) (request : VerifyRequest) : Serving :=
  { serving with
    service :=
      { serving.service with
        cancelledEarly := serving.service.cancelledEarly.erase request.job }
    jobs := serving.jobs ++
      [⟨request, .returned
        (serving.service.cancelledOutcome request.job "before it started")⟩] }

theorem Move.eq_refuse {request : VerifyRequest} (move : Move conduct serving (.enter request) next)
    (early : serving.service.cancelledEarly.contains request.job = true)
    : next = serving.refuse request := by
  cases move
  rw [VerifyService.arrive_of_early early]
  rfl

theorem Move.not_returned {request : VerifyRequest}
    (move : Move conduct serving (.enter request) next)
    (unknown : serving.service.cancelledEarly.contains request.job = false)
    (outcome : NodeOutcome) : next.jobs ≠ serving.jobs ++ [⟨request, .returned outcome⟩] := by
  cases move
  intro hjobs
  have hphase : phaseOf (serving.service.arrive request).2 = .returned outcome := by
    simpa using hjobs
  rw [VerifyService.arrive_of_unknown unknown] at hphase
  have hpending : (serving.service.recorded request.job).pending.contains request.job = true :=
    (VerifyService.contains_pending_recorded ..).mpr (.inl rfl)
  have hadmitted := (serving.service.recorded request.job).advance_admitted request
  generalize (serving.service.recorded request.job).advance request = decided at hadmitted hphase
  cases hadmitted with
  | refused gone => exact Bool.false_ne_true (gone.symm.trans hpending)
  | owns => cases hphase
  | joins => cases hphase
  | waits => cases hphase

/--
No more than so many cancellations of jobs that have not come are remembered at any time. A job
whose cancellation came first is refused, and no inspection starts for it, exactly when its
cancellation was not forgotten since. It was not when there was room for it and for those of all
larger jobs.
-/
theorem refused_of_overtaken {conduct : Conduct} {serving noted later : Serving}
    {since : List Event} {job : UInt64} (unknown : (serving.service.cancel job).2 = false)
    (cancelled : Move conduct serving (.cancel job) noted)
    (follows : Follows conduct noted since later) (absent : Absent job since)
    : (∀ node past serving, Follows conduct (start node) past serving →
        serving.service.cancelledEarly.size ≤ VerifyService.maximumEarly) ∧
      (∀ request last, request.job = job → Move conduct later (.enter request) last →
        (Kept job since → last = later.refuse request) ∧
        (¬Kept job since → ∀ outcome, last.jobs ≠ later.jobs ++ [⟨request, .returned outcome⟩])) ∧
      ((noted.service.above job).length + since.countP Event.isNotice <
          VerifyService.maximumEarly → Kept job since) := by
  have hunknown : serving.service.pending.contains job = false := by
    rw [← Bool.not_eq_true, ← VerifyService.cancel_eq_true_iff, unknown]
    exact Bool.false_ne_true
  have hrecalls := cancelled.recalls
  have hnoted : noted.service.cancelledEarly.contains job = true :=
    (hrecalls.contains_iff (by simp) hunknown).mpr (.inl rfl)
  have hgone : noted.service.pending.contains job = false :=
    Bool.eq_false_iff.mpr fun pending => Bool.false_ne_true
      (hunknown.symm.trans (hrecalls.pending_of_contains (by simp) pending))
  have hkept := follows.contains_iff absent hgone hnoted
  refine ⟨?_, ?_, follows.kept_of_few⟩
  . intro node past serving reached
    exact reached.size_le (Nat.zero_le _)
  . rintro request last rfl enters
    exact ⟨fun kept => enters.eq_refuse (hkept.mpr kept), fun lost =>
      enters.not_returned (Bool.eq_false_iff.mpr fun held => lost (hkept.mp held))⟩

theorem refused_of_overtaken_seven
    : let inspector : Inspector := ⟨"a", "data/a/snapshots"⟩
      let later := (start "a").run inspector .empty [.cancel 7, .cancel 9, .cancel 3]
      let request : VerifyRequest := ⟨7, "s", 64, []⟩
      ((start "a").service.cancel 7).2 = false ∧
        later.service.cancelledEarly.size ≤ VerifyService.maximumEarly ∧
        later.step inspector .empty (.enter request) = later.refuse request := by
  intro inspector later request
  let noted := (start "a").step inspector .empty (.cancel 7)
  let between := noted.step inspector .empty (.cancel 9)
  let since : List Event := [⟨noted, .cancel 9, between⟩, ⟨between, .cancel 3, later⟩]
  have cancelled : Move (inspector.conduct .empty) (start "a") (.cancel 7) noted := .cancel 7
  have follows : Follows (inspector.conduct .empty) noted since later :=
    .move (.move .start (.cancel 9)) (.cancel 3)
  have absent : Absent 7 since := by simp [Absent, since]
  obtain ⟨bounded, refused, kept⟩ := refused_of_overtaken rfl cancelled follows absent
  refine ⟨rfl, bounded "a" (⟨start "a", .cancel 7, noted⟩ :: since) later ?_, ?_⟩
  . exact .move (.move (.move .start (.cancel 7)) (.cancel 9)) (.cancel 3)
  . exact (refused request _ rfl (.enter request)).1 (kept (by decide +kernel))

theorem service_run_cancels (inspector : Inspector) (tree : FileTree) {jobs : List UInt64}
    {serving : Serving} (free : serving.service.pending = .empty)
    (room : serving.service.cancelledEarly.size + jobs.length ≤ VerifyService.maximumEarly)
    : (serving.run inspector tree (jobs.map .cancel)).service =
      { serving.service with
        cancelledEarly := jobs.foldl SortedSet.add serving.service.cancelledEarly } := by
  induction jobs generalizing serving with
  | nil => rfl
  | cons job rest ih =>
    rw [List.length_cons] at room
    have hunknown : serving.service.pending.contains job = false := by
      rw [free]
      rfl
    have hroom : ¬VerifyService.maximumEarly ≤ serving.service.cancelledEarly.size := by omega
    have hstep : (serving.step inspector tree (.cancel job)).service =
        { serving.service with
          cancelledEarly := serving.service.cancelledEarly.add job } := by
      change (serving.service.cancel job).1 = _
      rw [VerifyService.cancel_of_unknown hunknown]
      simp only [VerifyService.rememberCancel, if_neg hroom]
    have hsize : (serving.service.cancelledEarly.add job).size ≤
        serving.service.cancelledEarly.size + 1 := SortedMap.size_insert_le ..
    have hfree : (serving.step inspector tree (.cancel job)).service.pending = .empty := by
      rw [hstep]
      exact free
    have hrest := ih hfree (by rw [hstep]; dsimp only; omega)
    rw [hstep] at hrest
    exact hrest

theorem owns_of_forgotten (inspector : Inspector) (tree : FileTree) {request : VerifyRequest}
    (free : serving.service.pending = .empty) (idle : serving.service.running = .empty)
    (full : VerifyService.maximumEarly ≤ serving.service.cancelledEarly.size)
    (least : ∀ q, serving.service.cancelledEarly.contains q = true → request.job < q)
    (another : other ≠ request.job)
    : (((serving.step inspector tree (.cancel request.job)).step inspector tree
        (.cancel other)).service.arrive request).2 = .owns serving.service.started := by
  have hunknown (q : UInt64) : serving.service.pending.contains q = false := by
    rw [free]
    rfl
  let noted := serving.service.rememberCancel request.job
  have hnoted : noted.pending.contains other = false := hunknown other
  have hforgets : noted.Forgets other request.job :=
    VerifyService.forgets_rememberCancel full least (hunknown other) another
  have hservice : ((serving.step inspector tree (.cancel request.job)).step inspector tree
      (.cancel other)).service = noted.rememberCancel other := by
    change ((serving.service.cancel request.job).1.cancel other).1 = _
    rw [VerifyService.cancel_of_unknown (hunknown request.job)]
    exact congrArg Prod.fst (VerifyService.cancel_of_unknown hnoted)
  have hlost : (noted.rememberCancel other).cancelledEarly.contains request.job = false := by
    have hgone := noted.contains_cancelledEarly_cancel other request.job
    rw [VerifyService.cancel_of_unknown hnoted] at hgone
    simpa [hforgets, another.symm] using hgone
  rw [hservice, VerifyService.arrive_of_unknown hlost, VerifyService.advance_of_free]
  . rfl
  . exact (VerifyService.contains_pending_recorded ..).mpr (.inl rfl)
  . change serving.service.running.get? request.snapshot = none
    rw [idle]
    rfl

theorem owns_of_many {inspector : Inspector} {tree : FileTree} {early : List UInt64}
    {serving noted later : Serving} {request : VerifyRequest}
    (hserving : serving = (start inspector.node).run inspector tree (early.map .cancel))
    (hnoted : noted = serving.step inspector tree (.cancel job))
    (hlater : later = noted.step inspector tree (.cancel other)) (hrequest : request.job = job)
    (nodup : early.Nodup) (many : early.length = VerifyService.maximumEarly)
    (larger : ∀ q ∈ early, job < q) (another : other ≠ job)
    : (serving.service.cancel job).2 = false ∧ (later.service.arrive request).2 = .owns 0 := by
  subst hrequest
  have hservice : serving.service = { (start inspector.node).service with
      cancelledEarly := SortedSet.ofElements early } := by
    rw [hserving]
    exact service_run_cancels inspector tree rfl (Nat.le_of_eq ((Nat.zero_add _).trans many))
  have hearly (q : UInt64) : serving.service.cancelledEarly.contains q = true ↔ q ∈ early := by
    rw [hservice]
    exact SortedSet.contains_ofElements ..
  have hstarted : serving.service.started = 0 := by rw [hservice]; rfl
  refine ⟨by rw [hservice]; rfl, ?_⟩
  rw [hlater, hnoted, ← hstarted]
  apply owns_of_forgotten
  . rw [hservice]
    rfl
  . rw [hservice]
    rfl
  . rw [← many]
    exact SortedMap.length_le_size nodup fun q hq => (hearly q).mpr hq
  . exact fun q hq => larger q ((hearly q).mp hq)
  . exact another

/--
A cancellation that is forgotten at once. Its job has the smallest number of all, and one more
cancellation takes its room.
-/
theorem owns_of_overtaken
    : let inspector : Inspector := ⟨"n1", "data/n1/snapshots"⟩
      let early : List UInt64 := (List.range 1024).map fun n => UInt64.ofNat (n + 2)
      let serving := (start "n1").run inspector .empty (early.map .cancel)
      let noted := serving.step inspector .empty (.cancel 1)
      let later := noted.step inspector .empty (.cancel 1026)
      let request : VerifyRequest := ⟨1, "s", 64, []⟩
      (serving.service.cancel 1).2 = false ∧ (later.service.arrive request).2 = .owns 0 := by
  intro inspector early serving noted later request
  have htoNat {n : Nat} (h : n ∈ List.range 1024) : (UInt64.ofNat (n + 2)).toNat = n + 2 := by
    rw [List.mem_range] at h
    exact UInt64.toNat_ofNat_of_lt' (Nat.lt_of_lt_of_le (by omega) (show 1026 ≤ 2 ^ 64 by decide))
  have hnodup : early.Nodup := by
    refine List.pairwise_map.mpr (List.pairwise_lt_range.imp_of_mem fun hm hn hlt heq => ?_)
    have hsame := congrArg UInt64.toNat heq
    rw [htoNat hm, htoNat hn] at hsame
    omega
  have hmany : early.length = VerifyService.maximumEarly := by
    rw [List.length_map, List.length_range, VerifyService.maximumEarly]
  have hlarger : ∀ q ∈ early, 1 < q := by
    intro q hq
    obtain ⟨n, hn, rfl⟩ := List.mem_map.mp hq
    rw [UInt64.lt_iff_toNat_lt, htoNat hn]
    exact Nat.lt_of_lt_of_le (by decide) (Nat.le_add_left 2 n)
  exact owns_of_many rfl rfl rfl rfl hnodup hmany hlarger (by decide)

end Serving

end SnapshotAudit
