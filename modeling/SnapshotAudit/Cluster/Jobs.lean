import SnapshotAudit.Cluster.Schedule

/-!
This module contains how jobs go through the services of a cluster and how their outcomes
get back to the checks that asked for them.
-/

namespace SnapshotAudit

namespace Cluster

def setService (id : Id) (service : ServiceObject) : ClusterM Unit :=
  modify fun w => { w with services := w.services.insert id service }

def setPhase (id : Id) (phase : ExecutionPhase) : ClusterM Unit :=
  modify fun w =>
    { w with executions := w.executions.modify id fun e => { e with phase } }

def executionsOf (cluster : Cluster) (service : Id) : List (Id × Execution) :=
  cluster.executions.entries.filter fun e => e.2.service = service

def wakeWaiting (service : Id) : ClusterM Unit := do
  for (id, execution) in executionsOf (← get) service do
    match execution.phase with
    | .waiting => post (.wake id)
    | _ => pure ()

def collectAttached (service : Id) (inspection : InspectionId) : ClusterM Unit := do
  for (id, execution) in executionsOf (← get) service do
    match execution.phase with
    | .attached i => if i = inspection then post (.collect id)
    | _ => pure ()

def cancelJob (service : Id) (job : UInt64) : ClusterM Bool := do
  match (← get).services.get? service with
  | none => return false
  | some object =>
    let (state, wasPending) := object.state.cancel job
    setService service { object with state }
    if wasPending then
      wakeWaiting service
      say (serviceEntry object.state.node job ["cancelled"])
    return wasPending

def verdictEntries (self : Text) (run : CheckRun) : List Text :=
  match run.result? with
  | some (.verdict verdict) =>
    aggregationLog run.desc run.assignment run.outcomes ++
      [checkEntry self run.job ["finished: ", if verdict.clean then "clean" else "not clean", " (",
        .decimal verdict.failures.size, " failed, ", .decimal verdict.conflicts.size,
        " conflicts, ", .decimal verdict.missingCount, " missing)"]]
  | _ => []

def sayVerdict (coordinator : Id) (run : CheckRun) : ClusterM Unit := do
  match (← get).coordinators.get? coordinator with
  | none => return
  | some c => sayAll (verdictEntries c.self run)

def setRun (id : Id) (object : RunObject) (run : CheckRun) : ClusterM Unit := do
  modify fun w => { w with runs := w.runs.insert id { object with run } }
  if run.finished && !object.run.finished then
    post (.releaseDeadline id)
    sayVerdict object.coordinator run

def recordOutcome (id : Id) (outcome : NodeOutcome) : ClusterM Unit := do
  match (← get).runs.get? id with
  | none => return
  | some object => setRun id object (CheckRun.settle (object.run.record outcome))

/--
Tell a handler the result of a job. A node that did not answer a check in time is told that the job
is no longer wanted.
-/
def deliver (handler : Handler) (result : DispatchResult) : ClusterM Unit := do
  match handler with
  | .keep slot => modify fun w => { w with results := w.results.insert slot result }
  | .check run node =>
    match (← get).runs.get? run with
    | none => return
    | some object =>
      let coordinator := object.coordinator
      match result, (← get).coordinators.get? coordinator with
      | .timedOut _, some c =>
        poolPost c.pool (.notify coordinator object.run.job [⟨node, .dispatcher⟩])
      | _, _ => pure ()
      recordOutcome run (result.contribution node)
      modify fun w =>
        { w with
          coordinators := w.coordinators.modify coordinator fun c =>
            { c with inFlight := c.inFlight - 1 } }

def newExecution (service : Id) (request : VerifyRequest) (continuation : Continuation)
    : ClusterM Id := do
  let id ← newId
  modify fun w =>
    { w with executions := w.executions.insert id ⟨service, request, .coming, continuation⟩ }
  return id

def setDispatcher (id : Id) (dispatcher : Dispatcher) : ClusterM Unit :=
  modify fun w => { w with dispatchers := w.dispatchers.insert id dispatcher }

def keepLocalCall (d : LocalDispatcher) (id : Id) (object : LocalCallObject) : LocalDispatcher :=
  { d with calls := d.calls.insert id object }

/--
Something happens to a job in the same process. The service gets it on a thread of the dispatcher,
and the time limit is dropped when the service is done.
-/
def localEvent (dispatcher id : Id) (event : LocalEvent) : ClusterM Unit := do
  match (← get).dispatchers.get? dispatcher with
  | some (.inProcess d) =>
    match d.calls.get? id with
    | none => return
    | some object =>
      let (call, effect) := object.call.step event
      if call.phase = .done then disarm? object.deadlineTimer
      setDispatcher dispatcher (.inProcess (keepLocalCall d id { object with call }))
      match effect with
      | none => return
      | some (.handOver request) =>
        let execution ← newExecution object.service request (.answerLocalCall dispatcher id d.pool)
        poolPost d.pool (.arrive execution)
      | some (.answer result) => deliver object.handler result
  | _ => return

/--
A job in the same process is no longer in hand. It still was while its handler was told.
-/
def forgetLocalCall (dispatcher id : Id) : ClusterM Unit := do
  match (← get).dispatchers.get? dispatcher with
  | some (.inProcess d) =>
    setDispatcher dispatcher (.inProcess { d with calls := d.calls.erase id })
  | _ => return

def finishExecution (id : Id) (execution : Execution) (outcome : NodeOutcome) : ClusterM Unit := do
  setPhase id (.finished outcome)
  match execution.continuation with
  | .keep => return
  | .recordLocal run pool =>
    match (← get).runs.get? run with
    | none => return
    | some object =>
      match (← get).coordinators.get? object.coordinator with
      | none => return
      | some c => recordOutcome run { outcome with node := c.self }
    poolDone pool
  | .answerLocalCall dispatcher call pool =>
    localEvent dispatcher call (.returned outcome)
    forgetLocalCall dispatcher call
    poolDone pool
  | .respond connection pool =>
    post (.respond connection (Demand.verifyReply outcome))
    poolDone pool

def collect (id : Id) : ClusterM Unit := do
  match (← get).executions.get? id with
  | none => return
  | some execution =>
    match execution.phase, (← get).services.get? execution.service with
    | .attached inspection, some object =>
      match (object.state.inspections.get? inspection).bind SharedInspection.result with
      | none => return
      | some result =>
        let (state, outcome) := object.state.leave execution.request.job inspection result
        setService execution.service { object with state }
        finishExecution id execution outcome
    | _, _ => return

def runInspection (id : Id) (execution : Execution) (inspection : InspectionId)
    : ClusterM Unit := do
  match (← get).services.get? execution.service with
  | none => return
  | some object =>
    let stop := object.state.stopped inspection
    let (inspected, log) :=
      object.inspector.inspect (← get).files execution.request fun _ => stop
    sayAll log
    setService execution.service
      { object with state := object.state.finish inspection inspected.outcome }
    setPhase id (.attached inspection)
    collectAttached execution.service inspection
    wakeWaiting execution.service

def admissionEntries (execution : Execution) (node : Text) (admission : Admission) : List Text :=
  let entry (what : Text) : Text :=
    serviceEntry node execution.request.job [what, "\"", execution.request.snapshot, "\""]
  match admission, execution.phase with
  | .owns _, _ => [entry "inspecting snapshot "]
  | .joins _, _ => [entry "joined running inspection of "]
  | .waits, .coming => [entry "waits for the running inspection of "]
  | _, _ => []

def settle (id : Id) (execution : Execution) (object : ServiceObject)
    (decided : VerifyService × Admission) : ClusterM Unit := do
  setService execution.service { object with state := decided.1 }
  sayAll (admissionEntries execution object.state.node decided.2)
  match decided.2 with
  | .refused outcome => finishExecution id execution outcome
  | .joins inspection => setPhase id (.attached inspection)
  | .waits => setPhase id .waiting
  | .owns inspection =>
    if object.gated then setPhase id (.held inspection)
    else runInspection id execution inspection

def arrive (id : Id) : ClusterM Unit := do
  match (← get).executions.get? id with
  | none => return
  | some execution =>
    match (← get).services.get? execution.service with
    | none => return
    | some object => settle id execution object (object.state.arrive execution.request)

def wake (id : Id) : ClusterM Unit := do
  match (← get).executions.get? id with
  | none => return
  | some execution =>
    match execution.phase, (← get).services.get? execution.service with
    | .waiting, some object =>
      settle id execution object (object.state.advance execution.request)
    | _, _ => return

end Cluster

end SnapshotAudit
