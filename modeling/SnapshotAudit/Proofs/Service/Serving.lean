import SnapshotAudit.Proofs.Inspection
import SnapshotAudit.Proofs.Service.Steps

/-!
This module contains a service at work: many jobs at once, each executed by a thread of its own that
goes on step by step, while jobs are cancelled in between. Whatever the order of the steps, a job
gets the outcome of an inspection that was asked its question, or the answer that it was cancelled.
-/

namespace SnapshotAudit

inductive ServingPhase where
  /-- It waits to be told that something has changed. -/
  | parked
  /-- It was told, and is about to look whether it can go on. -/
  | awake
  /-- It inspects, and has asked some times whether to stop. -/
  | inspecting (id : InspectionId) (told : List Bool)
  /-- Its inspection has returned, and the next one can start. -/
  | released (id : InspectionId) (outcome : NodeOutcome)
  /-- It has told those who wait, but its outcome is not known yet. -/
  | announced (id : InspectionId) (outcome : NodeOutcome)
  /-- It waits for the outcome of an inspection. -/
  | attached (id : InspectionId)
  | returned (outcome : NodeOutcome)
deriving DecidableEq

structure ServingJob where
  request : VerifyRequest
  phase : ServingPhase
deriving DecidableEq

/--
A service at work: its state, the jobs it was given, and how often those who wait are still to be
told that a job was cancelled.
-/
structure Serving where
  service : VerifyService
  jobs : List ServingJob
  notices : Nat

inductive ServingStep where
  | enter (request : VerifyRequest)
  /-- A thread wakes without having been told anything. -/
  | stir (index : Nat)
  | retry (index : Nat)
  | ask (index : Nat)
  | release (index : Nat)
  | announce (index : Nat)
  | publish (index : Nat)
  | collect (index : Nat)
  | cancel (job : UInt64)
  | notify

namespace Serving

def start (node : Text) : Serving :=
  ⟨.start node, [], 0⟩

def phaseOf (admission : Admission) : ServingPhase :=
  match admission with
  | .refused outcome => .returned outcome
  | .owns id => .inspecting id []
  | .joins id => .attached id
  | .waits => .parked

def wakeAll (jobs : List ServingJob) : List ServingJob :=
  jobs.map fun job =>
    match job.phase with
    | .parked => { job with phase := .awake }
    | _ => job

def act (serving : Serving) (index : Nat)
    (step : ServingJob → Option (VerifyService × ServingPhase)) : Serving :=
  match serving.jobs[index]? with
  | none => serving
  | some job =>
    match step job with
    | none => serving
    | some (service, phase) =>
      { serving with service, jobs := serving.jobs.set index { job with phase } }

variable (inspector : Inspector) (tree : FileTree)

/--
The inspection for a request as far as it has come when it was told some answers to its questions.
Unless it has come to its end it asks once more.
-/
def inspection (request : VerifyRequest) (told : List Bool) : Inspection :=
  (inspector.inspect tree request fun n => told.getD (n - 1) false).1

def step (serving : Serving) (s : ServingStep) : Serving :=
  let service := serving.service
  match s with
  | .enter request =>
    let decided := service.arrive request
    { serving with
      service := decided.1
      jobs := serving.jobs ++ [⟨request, phaseOf decided.2⟩] }
  | .stir index =>
    serving.act index fun job =>
      match job.phase with
      | .parked => some (service, .awake)
      | _ => none
  | .retry index =>
    serving.act index fun job =>
      match job.phase with
      | .awake =>
        let decided := service.advance job.request
        some (decided.1, phaseOf decided.2)
      | _ => none
  | .ask index =>
    serving.act index fun job =>
      match job.phase with
      | .inspecting id told =>
        if told.length < (inspection inspector tree job.request told).polls then
          some (service, .inspecting id (told ++ [service.stopped id]))
        else none
      | _ => none
  | .release index =>
    serving.act index fun job =>
      match job.phase with
      | .inspecting id told =>
        if told.length = (inspection inspector tree job.request told).polls then
          some (service.release id,
            .released id (inspection inspector tree job.request told).outcome)
        else none
      | _ => none
  | .announce index =>
    match (serving.jobs[index]?).map ServingJob.phase with
    | some (.released ..) =>
      { serving with jobs := wakeAll serving.jobs }.act index fun job =>
        match job.phase with
        | .released id outcome => some (service, .announced id outcome)
        | _ => none
    | _ => serving
  | .publish index =>
    serving.act index fun job =>
      match job.phase with
      | .announced id outcome => some (service.publish id outcome, .attached id)
      | _ => none
  | .collect index =>
    serving.act index fun job =>
      match job.phase with
      | .attached id =>
        ((service.inspections.get? id).bind SharedInspection.result).map fun outcome =>
          let left := service.leave job.request.job id outcome
          (left.1, .returned left.2)
      | _ => none
  | .cancel job =>
    let cancelled := service.cancel job
    { serving with
      service := cancelled.1
      notices := serving.notices + cancelled.2.toNat }
  | .notify =>
    if serving.notices = 0 then serving
    else { serving with jobs := wakeAll serving.jobs, notices := serving.notices - 1 }

def run (serving : Serving) (steps : List ServingStep) : Serving :=
  steps.foldl (step inspector tree) serving

/-!
What the jobs of a service get.
-/

/--
The answer that a job was cancelled.
-/
def SaysCancelled (service : VerifyService) (job : UInt64) (outcome : NodeOutcome) : Prop :=
  ∃ moment, (moment = "before it started" ∨ moment = "while queued" ∨ moment = "while running") ∧
    outcome = service.cancelledOutcome job moment

theorem SaysCancelled.failed {service : VerifyService} {job : UInt64} {outcome : NodeOutcome}
    (h : SaysCancelled service job outcome) : outcome.failed = true := by
  obtain ⟨moment, _, rfl⟩ := h
  rfl

def Reported (request : VerifyRequest) (outcome : NodeOutcome) : Prop :=
  (∃ service : VerifyService, service.node = inspector.node ∧
      SaysCancelled service request.job outcome) ∨
    ∃ question told, question.sameQuestion request = true ∧
      outcome = (inspection inspector tree question told).outcome

structure Truthful (service : VerifyService) : Prop where
  node : service.node = inspector.node
  fresh : ∀ id, service.started ≤ id → service.known id = none
  results : ∀ id question outcome, service.known id = some (question, some outcome) →
    ∃ told, outcome = (inspection inspector tree question told).outcome

def Justified (service : VerifyService) (job : ServingJob) : Prop :=
  match job.phase with
  | .parked | .awake => True
  | .inspecting id _ => ∃ result, service.known id = some (job.request, result)
  | .released id outcome | .announced id outcome =>
    (∃ result, service.known id = some (job.request, result)) ∧
      ∃ told, outcome = (inspection inspector tree job.request told).outcome
  | .attached id => ∃ question result, service.known id = some (question, result) ∧
    question.sameQuestion job.request = true
  | .returned outcome => Reported inspector tree job.request outcome

structure Sound (serving : Serving) : Prop where
  truthful : Truthful inspector tree serving.service
  justified : ∀ job ∈ serving.jobs, Justified inspector tree serving.service job

def Continues (service next : VerifyService) : Prop :=
  ∀ id question result, service.known id = some (question, result) →
    ∃ result, next.known id = some (question, result)

variable {inspector tree}

theorem Continues.justified {service next : VerifyService} (h : Continues service next)
    {job : ServingJob} (justified : Justified inspector tree service job)
    : Justified inspector tree next job := by
  obtain ⟨request, phase⟩ := job
  cases phase with
  | parked => trivial
  | awake => trivial
  | inspecting id told =>
    obtain ⟨result, hknown⟩ := justified
    exact h id request result hknown
  | released id outcome =>
    obtain ⟨⟨result, hknown⟩, houtcome⟩ := justified
    exact ⟨h id request result hknown, houtcome⟩
  | announced id outcome =>
    obtain ⟨⟨result, hknown⟩, houtcome⟩ := justified
    exact ⟨h id request result hknown, houtcome⟩
  | attached id =>
    obtain ⟨question, result, hknown, hsame⟩ := justified
    obtain ⟨result, hknown⟩ := h id question result hknown
    exact ⟨question, result, hknown, hsame⟩
  | returned outcome => exact justified

/-!
What the steps of the service leave of this.
-/

theorem continues_of_known {service next : VerifyService}
    (h : ∀ id, next.known id = service.known id) : Continues service next := by
  intro id question result hknown
  exact ⟨result, (h id).trans hknown⟩

theorem Truthful.of_known {service next : VerifyService}
    (h : Truthful inspector tree service) (hknown : ∀ id, next.known id = service.known id)
    (hstarted : next.started = service.started) (hnode : next.node = service.node)
    : Truthful inspector tree next := by
  refine ⟨hnode.trans h.node, ?_, ?_⟩
  . intro id hid
    rw [hknown]
    exact h.fresh id (hstarted ▸ hid)
  . intro id question outcome hresult
    exact h.results id question outcome ((hknown id).symm.trans hresult)

theorem Truthful.opened {service : VerifyService} (h : Truthful inspector tree service)
    (request : VerifyRequest) : Truthful inspector tree (service.opened request) := by
  refine ⟨h.node, ?_, ?_⟩
  . intro id hid
    have hid : service.started + 1 ≤ id := hid
    have hnew : id ≠ service.started := by omega
    rw [VerifyService.known_opened, if_neg hnew]
    exact h.fresh id (by omega)
  . intro id question outcome hresult
    rw [VerifyService.known_opened] at hresult
    split at hresult
    next => simp at hresult
    next => exact h.results id question outcome hresult

theorem Truthful.continues_opened {service : VerifyService}
    (h : Truthful inspector tree service) (request : VerifyRequest)
    : Continues service (service.opened request) := by
  intro id question result hknown
  have hold : id ≠ service.started := by
    intro heq
    rw [h.fresh id (Nat.le_of_eq heq.symm)] at hknown
    cases hknown
  exact ⟨result, by rw [VerifyService.known_opened, if_neg hold, hknown]⟩

theorem Truthful.publish {service : VerifyService} (h : Truthful inspector tree service)
    {id : InspectionId} {request : VerifyRequest} {outcome : NodeOutcome}
    (hknown : ∃ result, service.known id = some (request, result))
    (houtcome : ∃ told, outcome = (inspection inspector tree request told).outcome)
    : Truthful inspector tree (service.publish id outcome) := by
  obtain ⟨result, hknown⟩ := hknown
  refine ⟨h.node, ?_, ?_⟩
  . intro other hother
    rw [VerifyService.known_publish, h.fresh other hother]
    simp
  . intro other question found hresult
    rw [VerifyService.known_publish] at hresult
    split at hresult
    next heq =>
      subst heq
      rw [hknown] at hresult
      simp only [Option.map_some, Option.some.injEq, Prod.mk.injEq] at hresult
      obtain ⟨rfl, rfl⟩ := hresult
      exact houtcome
    next => exact h.results other question found hresult

theorem continues_publish (service : VerifyService) (id : InspectionId) (outcome : NodeOutcome)
    : Continues service (service.publish id outcome) := by
  intro other question result hknown
  rw [VerifyService.known_publish, hknown]
  split
  next => exact ⟨some outcome, rfl⟩
  next => exact ⟨result, rfl⟩

theorem Truthful.admitted {service : VerifyService} (h : Truthful inspector tree service)
    {request : VerifyRequest} {decided : VerifyService × Admission}
    (admitted : service.Admitted request decided)
    : Truthful inspector tree decided.1 ∧ Continues service decided.1 ∧
      Justified inspector tree decided.1 ⟨request, phaseOf decided.2⟩ := by
  cases admitted with
  | refused gone =>
    exact ⟨h, continues_of_known fun _ => rfl, .inl ⟨service, h.node, _, .inr (.inl rfl), rfl⟩⟩
  | owns pending free =>
    have hattach := (service.opened request).known_attach request.job service.started
    refine ⟨(h.opened request).of_known hattach rfl rfl, ?_, ?_⟩
    . intro id question result hknown
      rw [hattach]
      exact h.continues_opened request id question result hknown
    . refine ⟨none, ?_⟩
      rw [hattach, VerifyService.known_opened, if_pos rfl]
  | joins pending id running found hfound answers =>
    have hattach := service.known_attach request.job id
    refine ⟨h.of_known hattach rfl rfl, continues_of_known hattach, ?_⟩
    refine ⟨found.question, found.result, ?_, ?_⟩
    . rw [hattach, VerifyService.known, hfound]
      rfl
    . simp only [SharedInspection.answers, Bool.and_eq_true] at answers
      exact answers.2
  | waits pending id running other => exact ⟨h, continues_of_known fun _ => rfl, trivial⟩

theorem Truthful.arrive {service : VerifyService} (h : Truthful inspector tree service)
    (request : VerifyRequest)
    : Truthful inspector tree (service.arrive request).1 ∧
      Continues service (service.arrive request).1 ∧
      Justified inspector tree (service.arrive request).1
        ⟨request, phaseOf (service.arrive request).2⟩ := by
  unfold VerifyService.arrive
  split
  next =>
    exact ⟨h.of_known (fun _ => rfl) rfl rfl, continues_of_known fun _ => rfl,
      .inl ⟨service, h.node, _, .inl rfl, rfl⟩⟩
  next =>
    have hpending : Truthful inspector tree
        { service with pending := service.pending.insert request.job none } :=
      h.of_known (fun _ => rfl) rfl rfl
    exact hpending.admitted (VerifyService.advance_admitted _ request)

/-!
What the steps of the threads leave of it.
-/

theorem Sound.act {serving : Serving} (h : Sound inspector tree serving) {index : Nat}
    {next : ServingJob → Option (VerifyService × ServingPhase)}
    (hnext : ∀ job ∈ serving.jobs, ∀ service phase, next job = some (service, phase) →
      Truthful inspector tree service ∧ Continues serving.service service ∧
        Justified inspector tree service { job with phase })
    : Sound inspector tree (serving.act index next) := by
  unfold Serving.act
  split
  next => exact h
  next job hjob =>
    split
    next => exact h
    next service phase hstep =>
      obtain ⟨htruthful, hcontinues, hjustified⟩ :=
        hnext job (List.mem_of_getElem? hjob) service phase hstep
      refine ⟨htruthful, ?_⟩
      intro other hother
      cases List.mem_or_eq_of_mem_set hother with
      | inl hold => exact hcontinues.justified (h.justified other hold)
      | inr heq => exact heq ▸ hjustified

theorem Sound.wakeAll {serving : Serving} (h : Sound inspector tree serving)
    : ∀ job ∈ Serving.wakeAll serving.jobs, Justified inspector tree serving.service job := by
  intro job hjob
  obtain ⟨earlier, hearlier, rfl⟩ := List.mem_map.mp hjob
  split
  next => trivial
  next => exact h.justified earlier hearlier

theorem Sound.step {serving : Serving} (h : Sound inspector tree serving) (s : ServingStep)
    : Sound inspector tree (serving.step inspector tree s) := by
  have hsame := continues_of_known (fun id => rfl (a := serving.service.known id))
  cases s with
  | enter request =>
    obtain ⟨htruthful, hcontinues, hjustified⟩ := h.truthful.arrive request
    refine ⟨htruthful, ?_⟩
    intro job hjob
    cases List.mem_append.mp hjob with
    | inl hold => exact hcontinues.justified (h.justified job hold)
    | inr heq => exact List.mem_singleton.mp heq ▸ hjustified
  | stir index =>
    apply h.act
    intro job hjob service phase hstep
    split at hstep
    next =>
      cases hstep
      exact ⟨h.truthful, hsame, trivial⟩
    next => cases hstep
  | retry index =>
    apply h.act
    intro job hjob service phase hstep
    split at hstep
    next =>
      cases hstep
      exact h.truthful.admitted (VerifyService.advance_admitted _ job.request)
    next => cases hstep
  | ask index =>
    apply h.act
    intro job hjob service phase hstep
    split at hstep
    next id told hphase =>
      split at hstep
      next =>
        cases hstep
        have hjustified := h.justified job hjob
        rw [Justified, hphase] at hjustified
        exact ⟨h.truthful, hsame, hjustified⟩
      next => cases hstep
    next => cases hstep
  | release index =>
    apply h.act
    intro job hjob service phase hstep
    split at hstep
    next id told hphase =>
      split at hstep
      next =>
        cases hstep
        have hjustified := h.justified job hjob
        rw [Justified, hphase] at hjustified
        have hknown := serving.service.known_release id
        refine ⟨h.truthful.of_known hknown (serving.service.started_release id)
          (serving.service.node_release id), continues_of_known hknown, ?_, told, rfl⟩
        rw [hknown]
        exact hjustified
      next => cases hstep
    next => cases hstep
  | announce index =>
    unfold Serving.step
    dsimp only
    split
    next =>
      have hwoken : Sound inspector tree { serving with jobs := Serving.wakeAll serving.jobs } :=
        ⟨h.truthful, h.wakeAll⟩
      apply hwoken.act
      intro job hjob service phase hstep
      split at hstep
      next id outcome hphase =>
        cases hstep
        have hjustified := hwoken.justified job hjob
        rw [Justified, hphase] at hjustified
        exact ⟨h.truthful, hsame, hjustified⟩
      next => cases hstep
    next => exact h
  | publish index =>
    apply h.act
    intro job hjob service phase hstep
    split at hstep
    next id outcome hphase =>
      cases hstep
      have hjustified := h.justified job hjob
      rw [Justified, hphase] at hjustified
      obtain ⟨hknown, houtcome⟩ := hjustified
      refine ⟨h.truthful.publish hknown houtcome, continues_publish _ id outcome, ?_⟩
      obtain ⟨result, hknown⟩ := hknown
      obtain ⟨result, hknown⟩ := continues_publish _ id outcome id job.request result hknown
      exact ⟨job.request, result, hknown, VerifyRequest.sameQuestion_self job.request⟩
    next => cases hstep
  | collect index =>
    apply h.act
    intro job hjob service phase hstep
    split at hstep
    next id hphase =>
      rw [Option.map_eq_some_iff] at hstep
      obtain ⟨outcome, hresult, heq⟩ := hstep
      cases heq
      have hjustified := h.justified job hjob
      rw [Justified, hphase] at hjustified
      have hknown := serving.service.known_leave job.request.job id outcome
      refine ⟨h.truthful.of_known hknown rfl rfl, continues_of_known hknown, ?_⟩
      obtain ⟨question, result, hknown, hsame⟩ := hjustified
      obtain rfl := VerifyService.result_of_known hknown hresult
      obtain ⟨told, houtcome⟩ := h.truthful.results id question outcome hknown
      -- a job that was cancelled while it waited is told that instead
      simp only [VerifyService.leave]
      split
      next => exact .inr ⟨question, told, hsame, houtcome⟩
      next => exact .inl ⟨serving.service, h.truthful.node, _, .inr (.inr rfl), rfl⟩
    next => cases hstep
  | cancel job =>
    have hknown := serving.service.known_cancel job
    refine ⟨h.truthful.of_known hknown (serving.service.started_cancel job)
      (serving.service.node_cancel job), ?_⟩
    intro other hother
    exact (continues_of_known hknown).justified (h.justified other hother)
  | notify =>
    unfold Serving.step
    dsimp only
    split
    next => exact h
    next => exact ⟨h.truthful, h.wakeAll⟩

theorem Sound.run {serving : Serving} (h : Sound inspector tree serving)
    (steps : List ServingStep) : Sound inspector tree (serving.run inspector tree steps) := by
  induction steps generalizing serving with
  | nil => exact h
  | cons s rest ih => exact ih (h.step s)

variable (inspector tree) in
theorem sound_start : Sound inspector tree (start inspector.node) where
  truthful := {
    node := rfl
    fresh := fun _ _ => rfl
    results := fun _ _ _ h => by cases h }
  justified := by simp [start]

variable (inspector tree) in
theorem reported_of_run (steps : List ServingStep) {request : VerifyRequest}
    {outcome : NodeOutcome}
    (h : ⟨request, .returned outcome⟩ ∈ ((start inspector.node).run inspector tree steps).jobs)
    : Reported inspector tree request outcome :=
  ((sound_start inspector tree).run steps).justified _ h

end Serving

end SnapshotAudit
