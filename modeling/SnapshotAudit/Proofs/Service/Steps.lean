import SnapshotAudit.Proofs.Ordered.Map
import SnapshotAudit.Service

/-!
This module contains what the steps of a service do: what becomes of a job that tries to go on, and
what each step leaves of the inspections that were started.
-/

namespace SnapshotAudit

theorem VerifyRequest.sameQuestion_eq_true_iff (a b : VerifyRequest)
    : a.sameQuestion b = true ↔
      a.snapshot = b.snapshot ∧ a.pageSize = b.pageSize ∧ a.groups = b.groups := by
  simp [sameQuestion, and_assoc]

theorem VerifyRequest.sameQuestion_self (request : VerifyRequest)
    : request.sameQuestion request = true :=
  (sameQuestion_eq_true_iff ..).mpr ⟨rfl, rfl, rfl⟩

namespace VerifyService

def opened (service : VerifyService) (request : VerifyRequest) : VerifyService :=
  { service with
    running := service.running.insert request.snapshot service.started
    inspections := service.inspections.insert service.started ⟨request, .empty, none⟩
    started := service.started + 1 }

inductive Admitted (service : VerifyService) (request : VerifyRequest)
    : VerifyService × Admission → Prop where
  | refused (gone : service.pending.contains request.job = false)
    : Admitted service request
      (service, .refused (service.cancelledOutcome request.job "while queued"))
  | owns (pending : service.pending.contains request.job = true)
    (free : service.running.get? request.snapshot = none)
    : Admitted service request
      ((service.opened request).attach request.job service.started, .owns service.started)
  | joins (pending : service.pending.contains request.job = true) (id : InspectionId)
    (running : service.running.get? request.snapshot = some id) (inspection : SharedInspection)
    (found : service.inspections.get? id = some inspection)
    (answers : inspection.answers request = true)
    : Admitted service request (service.attach request.job id, .joins id)
  | waits (pending : service.pending.contains request.job = true) (id : InspectionId)
    (running : service.running.get? request.snapshot = some id)
    (other : ∀ inspection, service.inspections.get? id = some inspection →
      inspection.answers request = false)
    : Admitted service request (service, .waits)

theorem advance_admitted (service : VerifyService) (request : VerifyRequest)
    : Admitted service request (service.advance request) := by
  unfold advance
  split
  next pending =>
    split
    next free => exact .owns pending free
    next id running =>
      split
      next hany =>
        obtain ⟨inspection, found, answers⟩ := (Option.any_eq_true _ _).mp hany
        exact .joins pending id running inspection found answers
      next hnone =>
        refine .waits pending id running ?_
        intro inspection found
        simpa [found] using hnone
  next gone => exact .refused (by simpa using gone)

theorem get?_pending_attach (service : VerifyService) (job : UInt64) (id : InspectionId)
    (k : UInt64)
    : (service.attach job id).pending.get? k =
      if k = job then some (some id) else service.pending.get? k :=
  SortedMap.get?_insert_eq ..

def recorded (service : VerifyService) (job : UInt64) : VerifyService :=
  { service with pending := service.pending.insert job none }

theorem get?_pending_recorded (service : VerifyService) (job k : UInt64)
    : (service.recorded job).pending.get? k =
      if k = job then some none else service.pending.get? k :=
  SortedMap.get?_insert_eq ..

theorem contains_pending_recorded (service : VerifyService) (job k : UInt64)
    : (service.recorded job).pending.contains k = true ↔
      k = job ∨ service.pending.contains k = true :=
  SortedMap.contains_insert ..

theorem arrive_of_early {service : VerifyService} {request : VerifyRequest}
    (early : service.cancelledEarly.contains request.job = true)
    : service.arrive request =
      ({ service with cancelledEarly := service.cancelledEarly.erase request.job },
        .refused (service.cancelledOutcome request.job "before it started")) := by
  simp [arrive, early]

theorem arrive_of_unknown {service : VerifyService} {request : VerifyRequest}
    (unknown : service.cancelledEarly.contains request.job = false)
    : service.arrive request = (service.recorded request.job).advance request := by
  simp [arrive, unknown, recorded]

theorem advance_of_free {service : VerifyService} {request : VerifyRequest}
    (pending : service.pending.contains request.job = true)
    (free : service.running.get? request.snapshot = none)
    : service.advance request =
      ((service.opened request).attach request.job service.started, .owns service.started) := by
  simp [advance, pending, free, opened]

/-!
The question and the result of each inspection that was started.
-/

def known (service : VerifyService) (id : InspectionId)
    : Option (VerifyRequest × Option NodeOutcome) :=
  (service.inspections.get? id).map fun inspection => (inspection.question, inspection.result)

theorem result_of_known {service : VerifyService} {id : InspectionId} {question : VerifyRequest}
    {result : Option NodeOutcome} {outcome : NodeOutcome}
    (hknown : service.known id = some (question, result))
    (hresult : (service.inspections.get? id).bind SharedInspection.result = some outcome)
    : result = some outcome := by
  unfold known at hknown
  cases hget : service.inspections.get? id with
  | none => simp [hget] at hknown
  | some inspection =>
    simp only [hget, Option.map_some, Option.some.injEq, Prod.mk.injEq, Option.bind_some]
      at hknown hresult
    rw [← hknown.2, hresult]

theorem known_of_jobs {service next : VerifyService} {id : InspectionId}
    (change : SortedSet UInt64 → SortedSet UInt64)
    (h : next.inspections = service.inspections.modify id fun inspection =>
      { inspection with jobs := change inspection.jobs }) (q : InspectionId)
    : next.known q = service.known q := by
  unfold known
  rw [h, SortedMap.get?_modify]
  split
  next =>
    rw [Option.map_map]
    rfl
  next => rfl

theorem known_attach (service : VerifyService) (job : UInt64) (id q : InspectionId)
    : (service.attach job id).known q = service.known q :=
  known_of_jobs (fun jobs => jobs.add job) rfl q

theorem known_opened (service : VerifyService) (request : VerifyRequest) (q : InspectionId)
    : (service.opened request).known q =
      if q = service.started then some (request, none) else service.known q := by
  unfold known opened
  rw [SortedMap.get?_insert_eq]
  split <;> rfl

theorem known_release (service : VerifyService) (id q : InspectionId)
    : (service.release id).known q = service.known q := by
  unfold release
  split <;> rfl

theorem known_publish (service : VerifyService) (id : InspectionId) (outcome : NodeOutcome)
    (q : InspectionId)
    : (service.publish id outcome).known q =
      if q = id then (service.known q).map fun k => (k.1, some outcome) else service.known q := by
  unfold known publish
  rw [SortedMap.get?_modify]
  split
  next => simp [Function.comp_def]
  next => rfl

theorem result_finish {service : VerifyService} {id : InspectionId}
    (hknown : (service.known id).isSome = true) (outcome : NodeOutcome)
    : ((service.finish id outcome).inspections.get? id).bind SharedInspection.result =
        some outcome := by
  obtain ⟨k, hk⟩ := Option.isSome_iff_exists.mp hknown
  have hfinish : (service.finish id outcome).known id = some (k.1, some outcome) := by
    rw [finish, known_publish, if_pos rfl, known_release, hk]
    rfl
  obtain ⟨inspection, hget, heq⟩ := Option.map_eq_some_iff.mp hfinish
  rw [hget]
  exact congrArg Prod.snd heq

theorem known_leave (service : VerifyService) (job : UInt64) (id : InspectionId)
    (outcome : NodeOutcome) (q : InspectionId)
    : (service.leave job id outcome).1.known q = service.known q :=
  known_of_jobs (fun jobs => jobs.erase job) rfl q

theorem known_cancel (service : VerifyService) (job : UInt64) (q : InspectionId)
    : (service.cancel job).1.known q = service.known q := by
  unfold cancel
  split
  next => rfl
  next attached _ =>
    cases attached with
    | none => rfl
    | some id => exact known_of_jobs (fun jobs => jobs.erase job) rfl q

theorem started_release (service : VerifyService) (id : InspectionId)
    : (service.release id).started = service.started := by
  unfold release
  split <;> rfl

theorem started_cancel (service : VerifyService) (job : UInt64)
    : (service.cancel job).1.started = service.started := by
  unfold cancel
  split <;> rfl

theorem node_release (service : VerifyService) (id : InspectionId)
    : (service.release id).node = service.node := by
  unfold release
  split <;> rfl

theorem node_cancel (service : VerifyService) (job : UInt64)
    : (service.cancel job).1.node = service.node := by
  unfold cancel
  split <;> rfl

/-!
The jobs that are attached to each inspection.
-/

def isAttached (service : VerifyService) (id : InspectionId) (job : UInt64) : Bool :=
  (service.inspections.get? id).any fun inspection => inspection.jobs.contains job

theorem known_eq_none {service : VerifyService} {id : InspectionId}
    (h : service.known id = none) : service.inspections.get? id = none := by
  simpa [known] using h

theorem isAttached_of_unknown {service : VerifyService} {id : InspectionId}
    (h : service.known id = none) (job : UInt64) : service.isAttached id job = false := by
  simp [isAttached, known_eq_none h]

theorem isAttached_opened (service : VerifyService) (request : VerifyRequest) (id : InspectionId)
    (job : UInt64)
    : (service.opened request).isAttached id job = true ↔
      id ≠ service.started ∧ service.isAttached id job = true := by
  unfold isAttached opened
  rw [SortedMap.get?_insert_eq]
  split
  next heq => simp [heq]
  next hne => simp [hne]

theorem isAttached_attach {service : VerifyService} {id : InspectionId}
    (hknown : (service.inspections.get? id).isSome = true) (job : UInt64) (q : InspectionId)
    (k : UInt64)
    : (service.attach job id).isAttached q k = true ↔
      (q = id ∧ k = job) ∨ service.isAttached q k = true := by
  unfold isAttached attach
  rw [SortedMap.get?_modify]
  split
  next heq =>
    subst heq
    obtain ⟨inspection, hget⟩ := Option.isSome_iff_exists.mp hknown
    simp [hget]
  next hne => simp [hne]

theorem isAttached_erase {service next : VerifyService} (id : InspectionId) (job : UInt64)
    (h : next.inspections = service.inspections.modify id fun inspection =>
      { inspection with jobs := inspection.jobs.erase job }) (q : InspectionId) (k : UInt64)
    : next.isAttached q k = true ↔ ¬(q = id ∧ k = job) ∧ service.isAttached q k = true := by
  unfold isAttached
  rw [h, SortedMap.get?_modify]
  split
  next heq =>
    subst heq
    cases service.inspections.get? q with
    | none => simp
    | some inspection => simp [SortedMap.contains_erase]
  next hne => simp [hne]

theorem isAttached_release (service : VerifyService) (id q : InspectionId) (job : UInt64)
    : (service.release id).isAttached q job = service.isAttached q job := by
  unfold release
  split <;> rfl

theorem isAttached_publish (service : VerifyService) (id : InspectionId) (outcome : NodeOutcome)
    (q : InspectionId) (job : UInt64)
    : (service.publish id outcome).isAttached q job = service.isAttached q job := by
  unfold isAttached publish
  rw [SortedMap.get?_modify]
  split
  next => simp [Option.any_map]
  next => rfl

/-!
What a step leaves of the pending jobs and of the running inspections.
-/

@[simp]
theorem pending_release (service : VerifyService) (id : InspectionId)
    : (service.release id).pending = service.pending := by
  unfold release
  split <;> rfl

@[simp]
theorem inspections_release (service : VerifyService) (id : InspectionId)
    : (service.release id).inspections = service.inspections := by
  unfold release
  split <;> rfl

theorem running_release {service : VerifyService} {id : InspectionId} {question : VerifyRequest}
    {result : Option NodeOutcome} (hknown : service.known id = some (question, result))
    (name : Text) (q : InspectionId)
    : (service.release id).running.get? name = some q ↔
      service.running.get? name = some q ∧ ¬(name = question.snapshot ∧ q = id) := by
  obtain ⟨inspection, hget, heq⟩ := Option.map_eq_some_iff.mp hknown
  obtain ⟨rfl, -⟩ := Prod.mk.inj heq
  unfold release
  rw [hget]
  dsimp only
  split
  next hrunning =>
    rw [SortedMap.get?_erase_eq]
    split
    next hname =>
      subst hname
      simp [hrunning, eq_comm]
    next hname => simp [hname]
  next hrunning =>
    constructor
    . intro h
      refine ⟨h, ?_⟩
      rintro ⟨rfl, rfl⟩
      exact hrunning h
    . rintro ⟨h, _⟩
      exact h

theorem pending_cancel (service : VerifyService) (job k : UInt64)
    : (service.cancel job).1.pending.get? k =
      if k = job then none else service.pending.get? k := by
  unfold cancel
  split
  next hnone =>
    split
    next heq =>
      subst heq
      exact hnone
    next => rfl
  next => exact SortedMap.get?_erase_eq ..

theorem cancel_eq_true_iff (service : VerifyService) (job : UInt64)
    : (service.cancel job).2 = true ↔ service.pending.contains job = true := by
  unfold cancel
  split
  next hnone => simp [SortedMap.contains, hnone]
  next hsome => simp [SortedMap.contains, hsome]

theorem running_cancel (service : VerifyService) (job : UInt64)
    : (service.cancel job).1.running = service.running := by
  unfold cancel
  split <;> rfl

theorem isAttached_cancel (service : VerifyService) (job : UInt64) (id : InspectionId) (k : UInt64)
    : (service.cancel job).1.isAttached id k = true ↔
      ¬(service.pending.get? job = some (some id) ∧ k = job) ∧
        service.isAttached id k = true := by
  unfold cancel
  split
  next hnone =>
    change service.isAttached id k = true ↔ _
    simp [hnone]
  next attached hsome =>
    cases attached with
    | none => simp [hsome, isAttached]
    | some own =>
      rw [isAttached_erase own job rfl, hsome, Option.some.injEq, Option.some.injEq,
        eq_comm (a := id)]

end VerifyService

end SnapshotAudit
