import SnapshotAudit.Proofs.Inspection.Stages
import SnapshotAudit.Proofs.Service.Serving

/-!
This module contains everything that can happen in a service at work, whatever its inspections come
to. The files that are inspected may change at any time, so that the same question may be answered
in different ways; what is inspected once and for all, as in a run of `Serving`, is the special case
in which they do not.
-/

namespace SnapshotAudit

/--
How inspections go. With what it was told so far, when it asked whether to stop, an inspection may
ask once more, or return with an outcome. It is never stuck, and it does not say that it was
cancelled unless it was told to stop.
-/
structure Conduct where
  asks : VerifyRequest → List Bool → Prop
  returns : VerifyRequest → List Bool → NodeOutcome → Prop
  goes_on : ∀ request told, asks request told ∨ ∃ outcome, returns request told outcome
  sincere : ∀ request told outcome, returns request told outcome → true ∉ told →
    ∀ failure, outcome.failure = some failure → failure.kind ≠ .cancelled

def Inspector.conduct (inspector : Inspector) (tree : FileTree) : Conduct where
  asks request told := told.length < (Serving.inspection inspector tree request told).polls
  returns request told outcome :=
    (Serving.inspection inspector tree request told).polls ≤ told.length ∧
      outcome = (Serving.inspection inspector tree request told).outcome
  goes_on := by
    intro request told
    cases Nat.lt_or_ge told.length (Serving.inspection inspector tree request told).polls with
    | inl asks => exact .inl asks
    | inr returns => exact .inr ⟨_, returns, rfl⟩
  sincere := by
    rintro request told outcome ⟨_, rfl⟩ untold failure hfailure hkind
    obtain ⟨n, hn⟩ := Inspector.told_of_inspect hfailure hkind
    rw [List.getD_eq_getElem?_getD] at hn
    cases hget : told[n - 1]? with
    | none => simp [hget] at hn
    | some answer =>
      simp only [hget, Option.getD_some] at hn
      exact untold (hn ▸ List.mem_of_getElem? hget)

namespace ServingPhase

def outstanding (phase : ServingPhase) : Bool :=
  match phase with
  | .returned _ => false
  | _ => true

end ServingPhase

namespace Serving

def become (serving : Serving) (index : Nat) (job : ServingJob) (service : VerifyService)
    : Serving :=
  { serving with service, jobs := serving.jobs.set index job }

/--
What can happen in a service at work.
-/
inductive Move (conduct : Conduct) (serving : Serving) : ServingStep → Serving → Prop where
  | enter (request : VerifyRequest)
    : Move conduct serving (.enter request)
      { serving with
        service := (serving.service.arrive request).1
        jobs := serving.jobs ++ [⟨request, phaseOf (serving.service.arrive request).2⟩] }
  | stir {index : Nat} {request : VerifyRequest}
    (found : serving.jobs[index]? = some ⟨request, .parked⟩)
    : Move conduct serving (.stir index)
      (serving.become index ⟨request, .awake⟩ serving.service)
  | retry {index : Nat} {request : VerifyRequest}
    (found : serving.jobs[index]? = some ⟨request, .awake⟩)
    : Move conduct serving (.retry index)
      (serving.become index ⟨request, phaseOf (serving.service.advance request).2⟩
        (serving.service.advance request).1)
  | ask {index : Nat} {request : VerifyRequest} {id : InspectionId} {told : List Bool}
    (found : serving.jobs[index]? = some ⟨request, .inspecting id told⟩)
    (asks : conduct.asks request told)
    : Move conduct serving (.ask index)
      (serving.become index ⟨request, .inspecting id (told ++ [serving.service.stopped id])⟩
        serving.service)
  | release {index : Nat} {request : VerifyRequest} {id : InspectionId} {told : List Bool}
    {outcome : NodeOutcome}
    (found : serving.jobs[index]? = some ⟨request, .inspecting id told⟩)
    (returns : conduct.returns request told outcome)
    : Move conduct serving (.release index)
      (serving.become index ⟨request, .released id outcome⟩ (serving.service.release id))
  | announce {index : Nat} {request : VerifyRequest} {id : InspectionId} {outcome : NodeOutcome}
    (found : serving.jobs[index]? = some ⟨request, .released id outcome⟩)
    : Move conduct serving (.announce index)
      ({ serving with jobs := wakeAll serving.jobs }.become index
        ⟨request, .announced id outcome⟩ serving.service)
  | publish {index : Nat} {request : VerifyRequest} {id : InspectionId} {outcome : NodeOutcome}
    (found : serving.jobs[index]? = some ⟨request, .announced id outcome⟩)
    : Move conduct serving (.publish index)
      (serving.become index ⟨request, .attached id⟩ (serving.service.publish id outcome))
  | collect {index : Nat} {request : VerifyRequest} {id : InspectionId} {outcome : NodeOutcome}
    (found : serving.jobs[index]? = some ⟨request, .attached id⟩)
    (known : (serving.service.inspections.get? id).bind SharedInspection.result = some outcome)
    : Move conduct serving (.collect index)
      (serving.become index
        ⟨request, .returned (serving.service.leave request.job id outcome).2⟩
        (serving.service.leave request.job id outcome).1)
  | cancel (job : UInt64)
    : Move conduct serving (.cancel job)
      { serving with
        service := (serving.service.cancel job).1
        notices := serving.notices + (serving.service.cancel job).2.toNat }
  | notify (owed : serving.notices ≠ 0)
    : Move conduct serving .notify
      { serving with jobs := wakeAll serving.jobs, notices := serving.notices - 1 }

theorem getElem?_wakeAll {jobs : List ServingJob} {index : Nat} {request : VerifyRequest}
    {id : InspectionId} {outcome : NodeOutcome}
    (found : jobs[index]? = some ⟨request, .released id outcome⟩)
    : (wakeAll jobs)[index]? = some ⟨request, .released id outcome⟩ := by
  simp [wakeAll, found]

theorem act_move {conduct : Conduct} {serving : Serving} {s : ServingStep} {index : Nat}
    {next : ServingJob → Option (VerifyService × ServingPhase)}
    (hnext : ∀ request phase service phase',
      serving.jobs[index]? = some ⟨request, phase⟩ →
      next ⟨request, phase⟩ = some (service, phase') →
        Move conduct serving s (serving.become index ⟨request, phase'⟩ service))
    : serving.act index next = serving ∨ Move conduct serving s (serving.act index next) := by
  unfold act
  split
  next => exact .inl rfl
  next job found =>
    split
    next => exact .inl rfl
    next service phase hstep => exact .inr (hnext job.request job.phase service phase found hstep)

theorem step_move (inspector : Inspector) (tree : FileTree) (serving : Serving) (s : ServingStep)
    : serving.step inspector tree s = serving ∨
      Move (inspector.conduct tree) serving s (serving.step inspector tree s) := by
  cases s with
  | enter request => exact .inr (.enter request)
  | stir index =>
    apply act_move
    rintro request phase service next found hnext
    dsimp only at hnext
    split at hnext
    next =>
      cases hnext
      exact .stir found
    next => cases hnext
  | retry index =>
    apply act_move
    rintro request phase service next found hnext
    dsimp only at hnext
    split at hnext
    next =>
      cases hnext
      exact .retry found
    next => cases hnext
  | ask index =>
    apply act_move
    rintro request phase service next found hnext
    dsimp only at hnext
    split at hnext
    next id told =>
      split at hnext
      next asks =>
        cases hnext
        exact .ask found asks
      next => cases hnext
    next => cases hnext
  | release index =>
    apply act_move
    rintro request phase service next found hnext
    dsimp only at hnext
    split at hnext
    next id told =>
      split at hnext
      next ended =>
        cases hnext
        exact .release found ⟨Nat.le_of_eq ended.symm, rfl⟩
      next => cases hnext
    next => cases hnext
  | announce index =>
    simp only [step]
    split
    next id outcome released =>
      obtain ⟨⟨request, phase⟩, found, rfl⟩ := Option.map_eq_some_iff.mp released
      simp only [act, getElem?_wakeAll found]
      exact .inr (.announce found)
    next => exact .inl rfl
  | publish index =>
    apply act_move
    rintro request phase service next found hnext
    dsimp only at hnext
    split at hnext
    next id outcome =>
      cases hnext
      exact .publish found
    next => cases hnext
  | collect index =>
    apply act_move
    rintro request phase service next found hnext
    dsimp only at hnext
    split at hnext
    next id =>
      obtain ⟨outcome, known, hleft⟩ := Option.map_eq_some_iff.mp hnext
      cases hleft
      exact .collect found known
    next => cases hnext
  | cancel job => exact .inr (.cancel job)
  | notify =>
    simp only [step]
    split
    next => exact .inl rfl
    next owed => exact .inr (.notify owed)

structure Event where
  before : Serving
  step : ServingStep
  after : Serving

def Admissible (serving : Serving) (s : ServingStep) : Prop :=
  match s with
  | .enter request =>
    ∀ job ∈ serving.jobs, job.phase.outstanding = true → job.request.job ≠ request.job
  | _ => True

/--
What can have happened until a service at work has come to a state, the latest event last.
-/
inductive Happened (conduct : Conduct) (node : Text) : List Event → Serving → Prop where
  | start : Happened conduct node [] (start node)
  | move {past : List Event} {serving next : Serving} {s : ServingStep}
    (earlier : Happened conduct node past serving) (admissible : serving.Admissible s)
    (move : Move conduct serving s next)
    : Happened conduct node (past ++ [⟨serving, s, next⟩]) next

section Run

variable (inspector : Inspector) (tree : FileTree)

instance (serving : Serving) (s : ServingStep) : Decidable (serving.Admissible s) :=
  match s with
  | .enter request => inferInstanceAs (Decidable (∀ job ∈ serving.jobs,
      job.phase.outstanding = true → job.request.job ≠ request.job))
  | .stir _ | .retry _ | .ask _ | .release _ | .announce _ | .publish _ | .collect _ | .cancel _
  | .notify => inferInstanceAs (Decidable True)

def Orderly (serving : Serving) (steps : List ServingStep) : Prop :=
  match steps with
  | [] => True
  | s :: rest => serving.Admissible s ∧ (serving.step inspector tree s).Orderly rest

instance decidableOrderly (serving : Serving) (steps : List ServingStep) :
    Decidable (serving.Orderly inspector tree steps) :=
  match steps with
  | [] => inferInstanceAs (Decidable True)
  | s :: rest =>
    have := decidableOrderly (serving.step inspector tree s) rest
    inferInstanceAs (Decidable (serving.Admissible s ∧ _))

variable {inspector tree}

theorem Happened.run {node : Text} {past : List Event} {serving : Serving}
    (h : Happened (inspector.conduct tree) node past serving) {steps : List ServingStep}
    (orderly : serving.Orderly inspector tree steps)
    : ∃ later, Happened (inspector.conduct tree) node later
        (serving.run inspector tree steps) := by
  induction steps generalizing past serving with
  | nil => exact ⟨past, h⟩
  | cons s rest ih =>
    obtain ⟨admissible, orderly⟩ := orderly
    cases step_move inspector tree serving s with
    | inl idle =>
      rw [idle] at orderly
      simpa only [Serving.run, List.foldl_cons, idle] using ih h orderly
    | inr move => exact ih (h.move admissible move) orderly

theorem happened_run {steps : List ServingStep}
    (orderly : (start inspector.node).Orderly inspector tree steps)
    : ∃ past, Happened (inspector.conduct tree) inspector.node past
        ((start inspector.node).run inspector tree steps) :=
  Happened.start.run orderly

end Run

end Serving

end SnapshotAudit
