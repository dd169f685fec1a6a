import SnapshotAudit.Dispatch

/-!
This module contains a job that is sent to a service of the same process. It may be delayed before
the service gets it, and it is bounded by a time. The one who sent it is told the first thing that
decides it, and the service goes on with the job whatever that was.
-/

namespace SnapshotAudit

inductive LocalPhase where
  | delayed
  | working
  | done
deriving DecidableEq

/--
A job for a node of the same process, and whether the one who sent it was told a result.
-/
structure LocalCall where
  node : Text
  request : VerifyRequest
  timeout : Nat
  phase : LocalPhase
  answered : Bool
deriving DecidableEq

/--
What happens to a job: its delay is over or was cut short, its time is over, or its service comes
back with an outcome or stops with an error.
-/
inductive LocalEvent where
  | due
  | expired
  | returned (outcome : NodeOutcome)
  | threw (error : Text)
deriving DecidableEq

inductive LocalEffect where
  | handOver (request : VerifyRequest)
  | answer (result : DispatchResult)
deriving DecidableEq

namespace LocalCall

def start (node : Text) (request : VerifyRequest) (timeout : Nat) : LocalCall :=
  ⟨node, request, timeout, .delayed, false⟩

def tell (call : LocalCall) (result : DispatchResult) : LocalCall × Option LocalEffect :=
  if call.answered then (call, none) else ({ call with answered := true }, some (.answer result))

/--
Something happens to a job. An event that its phase does not wait for changes nothing.
-/
def step (call : LocalCall) (event : LocalEvent) : LocalCall × Option LocalEffect :=
  match call.phase, event with
  | .delayed, .due => ({ call with phase := .working }, some (.handOver call.request))
  | .delayed, .expired | .working, .expired => call.tell (.noReply call.node call.timeout)
  | .working, .returned outcome => { call with phase := .done }.tell (.replied outcome)
  | .working, .threw error => { call with phase := .done }.tell (.failed error)
  | _, _ => (call, none)

@[simp]
theorem step_node (call : LocalCall) (event : LocalEvent)
    : (call.step event).1.node = call.node := by
  unfold step tell
  split <;> try split
  all_goals rfl

@[simp]
theorem step_request (call : LocalCall) (event : LocalEvent)
    : (call.step event).1.request = call.request := by
  unfold step tell
  split <;> try split
  all_goals rfl

@[simp]
theorem step_timeout (call : LocalCall) (event : LocalEvent)
    : (call.step event).1.timeout = call.timeout := by
  unfold step tell
  split <;> try split
  all_goals rfl

def isFor (call : LocalCall) (node : Text) (job : UInt64) : Bool :=
  call.node = node && call.request.job = job

end LocalCall

end SnapshotAudit
