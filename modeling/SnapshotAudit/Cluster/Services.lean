import SnapshotAudit.Cluster.Naming

/-!
This module contains the steps that are taken with services and dispatchers of a cluster.
-/

namespace SnapshotAudit

namespace Cluster

def addService (node root : Text) : ClusterM Id := do
  let id ← newId
  setService id ⟨.start node, root, false⟩
  return id

def newService (name node root : Text) : Action Unit := do
  bindName .service name (← addService node root)

def service (name : Text) : Action (Id × ServiceObject) :=
  object .service Cluster.services name

def serviceState (name : Text) : Action (Nat × Nat) := do
  let (_, s) ← service name
  return (s.state.pending.size, s.state.started)

def outcome? (cluster : Cluster) (execution : Id) : Option NodeOutcome :=
  match (cluster.executions.get? execution).map Execution.phase with
  | some (.finished outcome) => some outcome
  | _ => none

def stuck : Fault :=
  .system "nothing is left to wait for"

def awaitOutcome (execution : Id) : Action NodeOutcome := do
  await fun w => (outcome? w execution).isSome
  present stuck (outcome? (← get) execution)

def giveJob (serviceName : Text) (request : VerifyRequest) : Action Id := do
  let (id, _) ← service serviceName
  let execution ← newExecution id request .keep
  post (.arrive execution)
  return execution

def executeJob (serviceName : Text) (request : VerifyRequest) : Action NodeOutcome := do
  awaitOutcome (← giveJob serviceName request)

inductive JobProgress where
  | inspecting
  | joined
  | waits
  | finished

def startJob (serviceName jobName : Text) (request : VerifyRequest) : Action JobProgress := do
  let execution ← giveJob serviceName request
  bindName .job jobName execution
  drain
  match ((← get).executions.get? execution).map Execution.phase with
  | some (.held _) => return .inspecting
  | some (.attached _) => return .joined
  | some .waiting => return .waits
  | _ => return .finished

def waitForJob (serviceName jobName : Text) : Action NodeOutcome := do
  discard <| named .service serviceName
  awaitOutcome (← named .job jobName)

def gateService (name : Text) : Action Unit := do
  let (id, s) ← service name
  setService id { s with gated := true }

def releaseInspection (name snapshot : Text) : Action Nat := do
  let (id, _) ← service name
  drain
  let jobs := executionsOf (← get) id
  let waiting := jobs.filter fun e =>
    match e.2.phase, e.2.continuation with
    | .waiting, .keep => e.2.request.snapshot = snapshot
    | _, _ => false
  let held := jobs.filterMap fun e =>
    match e.2.phase with
    | .held inspection =>
      if e.2.request.snapshot = snapshot then some (e.1, e.2, inspection) else none
    | _ => none
  match held with
  | [] => return 0
  | (execution, object, inspection) :: _ =>
    runInspection execution object inspection
    drain
    return waiting.length

def cancelServiceJob (name : Text) (job : UInt64) : Action Bool := do
  let (id, _) ← service name
  cancelJob id job

def cancelServiceJobs (name : Text) (job : UInt64) (count : Nat) : Action Nat := do
  let (id, _) ← service name
  let mut pending := 0
  for i in [0:count] do
    if ← cancelJob id (job + i.toUInt64) then pending := pending + 1
  return pending

def describeFrom (catalog : Catalog) (snapshot : Text) : Action (Option SnapshotDescriptor) := do
  let found : Except Fault (Option SnapshotDescriptor) ← searchCatalog catalog snapshot
  match found with
  | .ok desc => return desc
  | .error fault => throw fault

def describeSnapshot (name snapshot : Text) : Action (Option SnapshotDescriptor) := do
  let (_, s) ← service name
  describeFrom s.catalog snapshot

/-!
Dispatchers.
-/

def addDispatcher (dispatcher : Dispatcher) : ClusterM Id := do
  let id ← newId
  setDispatcher id dispatcher
  return id

/--
The nodes that are reached over the network; of several with the same id the last one counts.
-/
def networkDispatcher (nodes : List NodeAddress) : Dispatcher :=
  .network (.ofList (nodes.map fun n => (n.id, n)))

/--
A dispatcher comes to its end. Jobs of the same process that were delayed run at once and are
answered; calls over the network are given up.
-/
def retireDispatcher (id : Id) : ClusterM Unit := do
  match (← get).dispatchers.get? id with
  | some (.inProcess d) =>
    for (call, c) in d.calls.entries do
      disarm? c.deadlineTimer
      post (.hasten id [call])
  | some (.network _) => abandonCalls id
  | _ => return

def nameDispatcher (name : Text) (id : Id) : ClusterM Unit := do
  previous .dispatcher name retireDispatcher
  bindName .dispatcher name id

def newScriptedDispatcher (name : Text) : Action Unit := do
  nameDispatcher name (← addDispatcher (.scripted ⟨.empty, .empty, [], [], []⟩))

def newLocalDispatcher (name : Text) (workers : Nat) : Action Unit := do
  let pool ← newPool workers
  nameDispatcher name (← addDispatcher (.inProcess ⟨.empty, .empty, .empty, pool, []⟩))

def newNetworkDispatcher (name : Text) (nodes : List NodeAddress) : Action Unit := do
  nameDispatcher name (← addDispatcher (networkDispatcher nodes))

def wrongDispatcher (name : Text) : Fault :=
  noSuch .dispatcher name

def localDispatcher (name : Text) : Action (Id × LocalDispatcher) := do
  match ← object .dispatcher Cluster.dispatchers name with
  | (id, .inProcess d) => return (id, d)
  | _ => throw (wrongDispatcher name)

def scriptedDispatcher (name : Text) : Action (Id × ScriptedDispatcher) := do
  match ← object .dispatcher Cluster.dispatchers name with
  | (id, .scripted d) => return (id, d)
  | _ => throw (wrongDispatcher name)

def registerService (name serviceName : Text) : Action Unit := do
  let (id, d) ← localDispatcher name
  let (s, object) ← service serviceName
  setDispatcher id (.inProcess { d with nodes := d.nodes.insert object.state.node s })

def unregisterNode (name node : Text) : Action Unit := do
  let (id, d) ← localDispatcher name
  setDispatcher id (.inProcess { d with nodes := d.nodes.erase node })

def delayNode (name node : Text) (ms : Nat) : Action Unit := do
  let (id, d) ← localDispatcher name
  setDispatcher id (.inProcess { d with delays := d.delays.insert node ms })

def jobsInFlight (name : Text) : Action Nat := do
  return (← localDispatcher name).2.calls.size

def scriptReply (name node : Text) (reply : DispatchResult) : Action Unit := do
  let (id, d) ← scriptedDispatcher name
  setDispatcher id (.scripted { d with replies := d.replies.insert node reply })

def scriptDescription (name node : Text) (desc : SnapshotDescriptor) : Action Unit := do
  let (id, d) ← scriptedDispatcher name
  setDispatcher id (.scripted { d with descriptions := d.descriptions.insert node desc })

def answerHeld (id : Id) (node : Option Text) (reply : DispatchResult) : ClusterM Nat := do
  match (← get).dispatchers.get? id with
  | some (.scripted d) =>
    let (answered, kept) := d.held.partition fun h => node.all fun n => h.1 = n
    setDispatcher id (.scripted { d with held := kept })
    for (_, handler) in answered do
      deliver handler reply
    return answered.length
  | _ => return 0

def replyToHeld (name node : Text) (reply : DispatchResult) : Action Nat := do
  let (id, _) ← scriptedDispatcher name
  answerHeld id (some node) reply

def takeRequests (name : Text) : Action (List VerifyRequest) := do
  let (id, d) ← scriptedDispatcher name
  setDispatcher id (.scripted { d with requests := [] })
  return d.requests

def takeLog (name : Text) : Action (List Text) := do
  let sorted (log : List Text) := log.mergeSort fun a b => (compare a b).isLE
  match ← object .dispatcher Cluster.dispatchers name with
  | (id, .scripted d) =>
    setDispatcher id (.scripted { d with log := [] })
    return sorted d.log
  | (id, .inProcess d) =>
    setDispatcher id (.inProcess { d with log := [] })
    return sorted d.log
  | _ => throw (wrongDispatcher name)

def sendJob (name node : Text) (request : VerifyRequest) (timeout : Nat) : Action Id := do
  let id ← named .dispatcher name
  let slot ← newId
  dispatchJob id node request timeout (.keep slot)
  return slot

def startCallTo (name callName node : Text) (request : VerifyRequest) (timeout : Nat)
    : Action (Option DispatchResult) := do
  let slot ← sendJob name node request timeout
  bindName .call callName slot
  drain
  return (← get).results.get? slot

def pollCall (name callName : Text) : Action (Option DispatchResult) := do
  discard <| named .dispatcher name
  let slot ← named .call callName
  return (← get).results.get? slot

def executeOn (name node : Text) (request : VerifyRequest) (timeout : Nat)
    : Action DispatchResult := do
  let slot ← sendJob name node request timeout
  await fun w => (w.results.get? slot).isSome
  present stuck ((← get).results.get? slot)

def callResult? (cluster : Cluster) (call : Id) : Option CallResult :=
  (cluster.calls.get? call).bind CallObject.result

def awaitCall (call : Id) : Action CallResult := do
  await fun w => (callResult? w call).isSome
  present stuck (callResult? (← get) call)

def cancelOn (id : Id) (node : Text) (job : UInt64) : Action Unit := do
  match ← sendNotice id node job .keep with
  | none => return
  | some call => sayNoticeFailed node job (← awaitCall call)

def describeOn (id : Id) (node snapshot : Text) (timeout : Nat)
    : Action (Option SnapshotDescriptor) := do
  match (← get).dispatchers.get? id with
  | none => return none
  | some (.scripted d) =>
    setDispatcher id (.scripted { d with log := d.log ++ [.join ["describe ", node]] })
    return d.descriptions.get? node
  | some (.inProcess d) =>
    setDispatcher id (.inProcess { d with
      log := d.log ++ [.join [.decimal MessageType.describeRequest.code.toNat, " ", node]] })
    match (d.nodes.get? node).bind (← get).services.get? with
    | none => return none
    | some s => describeFrom s.catalog snapshot
  | some (.network nodes) =>
    match nodes.get? node with
    | none => return none
    | some address =>
      let call ← newCall address.host address.jobPort (.describe snapshot) timeout .keep
      let result ← awaitCall call
      match result with
      | .ok _ => pure ()
      | .error error => say (describeFailedEntry snapshot node error.fault)
      return Call.described result

def dropDispatcher (name : Text) : Action Unit := do
  retireDispatcher (← named .dispatcher name)
  drain
  dropName .dispatcher name

end Cluster

end SnapshotAudit
