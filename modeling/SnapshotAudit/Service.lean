import SnapshotAudit.Ordered.Set
import SnapshotAudit.Snapshot.Outcome

/-!
This module contains the bookkeeping of a node that is asked to inspect its snapshots. Jobs that ask
the same question share an inspection, at most one inspection of a snapshot runs at a time, and a
job can be cancelled before it arrives, while it waits and while it runs. Every function here is one
step that happens as a whole.
-/

namespace SnapshotAudit

abbrev InspectionId := Nat

/--
An inspection, the jobs that are attached to it and, when it has returned, its outcome.
-/
structure SharedInspection where
  question : VerifyRequest
  jobs : SortedSet UInt64
  result : Option NodeOutcome
deriving DecidableEq

namespace SharedInspection

/--
An inspection answers a request that asks its question. One whose jobs were all cancelled is about
to stop and answers nothing.
-/
def answers (inspection : SharedInspection) (request : VerifyRequest) : Bool :=
  !inspection.jobs.isEmpty && inspection.question.sameQuestion request

end SharedInspection

/--
The state of a node that serves jobs: the running inspection of each snapshot, every inspection that
was started, the pending jobs with the inspection each is attached to, and the jobs that were
cancelled before they came.
-/
structure VerifyService where
  node : Text
  running : SortedMap Text InspectionId
  inspections : SortedMap InspectionId SharedInspection
  pending : SortedMap UInt64 (Option InspectionId)
  cancelledEarly : SortedSet UInt64
  started : Nat
deriving DecidableEq

inductive Admission where
  | refused (outcome : NodeOutcome)
  | owns (id : InspectionId)
  | joins (id : InspectionId)
  | waits
deriving DecidableEq

namespace VerifyService

def maximumEarly : Nat := 1024

def start (node : Text) : VerifyService :=
  ⟨node, .empty, .empty, .empty, .empty, 0⟩

def cancelledOutcome (service : VerifyService) (job : UInt64) (moment : Text) : NodeOutcome :=
  .failedWith service.node <| .single .cancelled <|
    .join ["Snapshot check job ", .decimal job.toNat, " was cancelled ", moment, " on node ",
      service.node]

def attach (service : VerifyService) (job : UInt64) (id : InspectionId) : VerifyService :=
  { service with
    pending := service.pending.insert job (some id)
    inspections := service.inspections.modify id fun inspection =>
      { inspection with jobs := inspection.jobs.add job } }

/--
A job that is pending goes on if it can: it starts an inspection when none of its snapshot runs,
joins the running one when that answers its question, and waits otherwise. A job that is no longer
pending was cancelled.
-/
def advance (service : VerifyService) (request : VerifyRequest) : VerifyService × Admission :=
  if service.pending.contains request.job then
    match service.running.get? request.snapshot with
    | none =>
      let id := service.started
      let opened :=
        { service with
          running := service.running.insert request.snapshot id
          inspections := service.inspections.insert id ⟨request, .empty, none⟩
          started := id + 1 }
      (opened.attach request.job id, .owns id)
    | some id =>
      if (service.inspections.get? id).any fun inspection => inspection.answers request then
        (service.attach request.job id, .joins id)
      else (service, .waits)
  else (service, .refused (service.cancelledOutcome request.job "while queued"))

/--
A job arrives. If its cancellation came first, that is used up and the job is refused.
-/
def arrive (service : VerifyService) (request : VerifyRequest) : VerifyService × Admission :=
  if service.cancelledEarly.contains request.job then
    ({ service with cancelledEarly := service.cancelledEarly.erase request.job },
      .refused (service.cancelledOutcome request.job "before it started"))
  else
    { service with pending := service.pending.insert request.job none }.advance request

def stopped (service : VerifyService) (id : InspectionId) : Bool :=
  (service.inspections.get? id).all fun inspection => inspection.jobs.isEmpty

def release (service : VerifyService) (id : InspectionId) : VerifyService :=
  match service.inspections.get? id with
  | none => service
  | some inspection =>
    { service with
      running :=
        if service.running.get? inspection.question.snapshot = some id then
          service.running.erase inspection.question.snapshot
        else service.running }

def publish (service : VerifyService) (id : InspectionId) (outcome : NodeOutcome)
    : VerifyService :=
  { service with
    inspections := service.inspections.modify id fun inspection =>
      { inspection with result := some outcome } }

def finish (service : VerifyService) (id : InspectionId) (outcome : NodeOutcome)
    : VerifyService :=
  (service.release id).publish id outcome

/--
A job leaves the inspection that it was attached to, with the outcome of the inspection unless the
job was cancelled meanwhile.
-/
def leave (service : VerifyService) (job : UInt64) (id : InspectionId) (outcome : NodeOutcome)
    : VerifyService × NodeOutcome :=
  let left :=
    { service with
      pending := service.pending.erase job
      inspections := service.inspections.modify id fun inspection =>
        { inspection with jobs := inspection.jobs.erase job } }
  (left,
    if service.pending.contains job then outcome
    else service.cancelledOutcome job "while running")

/--
Remember the cancellation of a job that has not come. When too many are remembered the one with the
smallest job is forgotten.
-/
def rememberCancel (service : VerifyService) (job : UInt64) : VerifyService :=
  let early := service.cancelledEarly
  let early :=
    if maximumEarly ≤ early.size then
      match early.least? with
      | none => early
      | some least => early.erase least
    else early
  { service with cancelledEarly := early.add job }

def cancel (service : VerifyService) (job : UInt64) : VerifyService × Bool :=
  match service.pending.get? job with
  | none => (service.rememberCancel job, false)
  | some attached =>
    ({ service with
        pending := service.pending.erase job
        inspections :=
          match attached with
          | none => service.inspections
          | some id => service.inspections.modify id fun inspection =>
              { inspection with jobs := inspection.jobs.erase job } },
      true)

end VerifyService

end SnapshotAudit
