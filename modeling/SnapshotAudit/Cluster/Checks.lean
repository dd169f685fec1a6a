import SnapshotAudit.Cluster.Services

/-!
This module contains how checks are run in a cluster: from the search for the descriptor to
the result.
-/

namespace SnapshotAudit

namespace Cluster

def addCoordinator (self root : Text) (view : MemberSource) (dispatcher service : Id)
    (timeout threads : Nat) : ClusterM Id := do
  let pool ← newPool threads
  let id ← newId
  let coordinator : Coordinator := {
    self, view, dispatcher, service, timeout, pool
    catalog := ⟨root, self⟩
    nextJob := id.toUInt64 <<< 32
    timers := .empty
    alive := true
    inFlight := 0 }
  modify fun w => { w with coordinators := w.coordinators.insert id coordinator }
  return id

def setMembers (name : Text) (members : List Member) : Action Unit := do
  let (id, c) ← object .coordinator Cluster.coordinators name
  modify fun w =>
    { w with coordinators := w.coordinators.insert id { c with view := .fixed members } }

def remoteParticipants (name : Text) (nodes : List Text) : Action (List Text) := do
  let (_, c) ← object .coordinator Cluster.coordinators name
  return CheckRun.remoteOf c.self nodes

def membersOf (cluster : Cluster) (view : MemberSource) : List Member :=
  match view with
  | .fixed members => members
  | .gossip id =>
    match cluster.gossips.get? id with
    | none => []
    | some g => g.gossip.membership.alive cluster.instant

def describeFromPeers (c : Coordinator) (snapshot : Text) (members : List Member)
    : Action (Option SnapshotDescriptor) := do
  let ask (node : Text) := describeOn c.dispatcher node snapshot c.timeout
  match ← CheckRun.firstToKnow ask (CheckRun.peersOf c.self members) with
  | none => return none
  | some (node, desc) =>
    say (coordinatorEntry c.self ["no readable metadata for snapshot \"", snapshot,
      "\" on this node, using the one held by ", node])
    return some desc

def findDescriptor (c : Coordinator) (snapshot : Text) : Action SnapshotDescriptor := do
  match ← describeFrom c.catalog snapshot with
  | some desc => return desc
  | none =>
    let found ← describeFromPeers c snapshot (membersOf (← get) c.view)
    present (CheckRun.unknownSnapshotFault snapshot c.self) found

/--
Send every participant of a check its job. The own one is left to the threads of the coordinator.
-/
def dispatchAll (id runId : Id) (c : Coordinator) (run : CheckRun) : ClusterM Unit := do
  if c.self ∈ run.participants then
    let execution ← newExecution c.service (run.requestFor c.self) (.recordLocal runId c.pool)
    poolPost c.pool (.arrive execution)
  for (node, request) in run.remoteJobs c.self do
    modify fun w =>
      { w with
        coordinators := w.coordinators.modify id fun c => { c with inFlight := c.inFlight + 1 } }
    dispatchJob c.dispatcher node request c.timeout (.check runId node)

def startEntries (self : Text) (run : CheckRun) : List Text :=
  (CheckRun.offline run.desc run.assignment run.participants).map (fun node =>
    coordinatorEntry self ["baseline node ", node,
      " is offline, its snapshot copy is not checked"]) ++
    [checkEntry self run.job ["checking snapshot \"", run.desc.name, "\" on ",
      .decimal run.participants.length, " node(s)"]]

def check (id : Id) (snapshot : Text) : Action Id := do
  let c ← present stuck ((← get).coordinators.get? id)
  let desc ← findDescriptor c snapshot
  let runId ← newId
  let run := CheckRun.start c.nextJob desc (membersOf (← get) c.view)
  modify fun w =>
    { w with
      coordinators := w.coordinators.modify id fun c => { c with nextJob := c.nextJob + 1 }
      runs := w.runs.insert runId ⟨id, run⟩ }
  sayAll (startEntries c.self run)
  if run.finished then sayAll (verdictEntries c.self run)
  else
    post (.armDeadline runId)
    dispatchAll id runId c run
  return runId

def checkNamed (id : Id) (snapshot handle : Text) : Action (Text × Bool) := do
  let runId ← check id snapshot
  bindName .handle handle runId
  drain
  let object ← present stuck ((← get).runs.get? runId)
  return (object.run.desc.name, object.run.result?.isSome)

def checkFrom (name snapshot handle : Text) : Action (Text × Bool) := do
  let (id, _) ← object .coordinator Cluster.coordinators name
  checkNamed id snapshot handle

def handleRun (name : Text) : Action (Id × RunObject) :=
  object .handle Cluster.runs name

def isDone (name : Text) : Action Bool := do
  return (← handleRun name).2.run.result?.isSome

def verdictOf (name : Text) : Action (Option Verdict) := do
  let (_, object) ← handleRun name
  match object.run.result? with
  | none => return none
  | some (.verdict verdict) => return some verdict
  | some .cancelled => throw object.run.cancelledFault

def notifyAll (c : Coordinator) (job : UInt64) (notices : List Notice) : Action Unit := do
  for notice in notices do
    match notice.way with
    | .service => discard <| cancelJob c.service job
    | .dispatcher => cancelOn c.dispatcher notice.node job

/--
Cancel a check. A check that is over, or whose coordinator is gone, stays as it is.
-/
def cancelCheck (name : Text) : Action Bool := do
  let (id, object) ← handleRun name
  match (← get).coordinators.get? object.coordinator with
  | none => return false
  | some c =>
    if !c.alive then return false
    match object.run.cancel with
    | (_, none) => return false
    | (run, some conclusion) =>
      say (checkEntry c.self run.job
        ["cancelled, notifying ", .decimal conclusion.silent.length, " node(s)"])
      setRun id object (run.deliver conclusion.result)
      notifyAll c object.run.job (conclusion.notices c.self)
      return true

def jobDistance (name other : Text) : Action UInt64 := do
  let cluster ← get
  let b ← present (absent "to" other) ((lookup? cluster .handle other).bind cluster.runs.get?)
  let (_, a) ← handleRun name
  return b.run.job - a.run.job

def isIdle (cluster : Cluster) (pool : Id) : Bool :=
  (cluster.pools.get? pool).all Pool.isIdle

/--
Drop a coordinator: wait until everything it has sent is answered and its threads are done, and drop
its deadlines.
-/
def dropCoordinator (id : Id) : ClusterM Unit := do
  match (← get).coordinators.get? id with
  | none => return
  | some c =>
    modify fun w =>
      { w with coordinators := w.coordinators.modify id fun c => { c with alive := false } }
    await fun w =>
      (w.coordinators.get? id).all (fun c => c.inFlight = 0) && isIdle w c.pool
    match (← get).coordinators.get? id with
    | none => return
    | some c =>
      for timer in c.timers.values do
        disarm timer

def newCoordinator (name self root serviceName dispatcherName : Text) (timeout threads : Nat)
    (members : List Member) : Action Unit := do
  let (serviceId, _) ← service serviceName
  let dispatcher ← named .dispatcher dispatcherName
  let id ← addCoordinator self root (.fixed members) dispatcher serviceId timeout threads
  previous .coordinator name dropCoordinator
  bindName .coordinator name id

def Timer.recurs (timer : Timer) : Bool :=
  match timer.task with
  | .tick _ => true
  | _ => false

/--
Drop a coordinator by its name. Before that the jobs that scripts hold back fail, and all timers go
off but those that never come to an end.
-/
def dropNamedCoordinator (name : Text) : Action Unit := do
  let (id, _) ← object .coordinator Cluster.coordinators name
  for dispatcher in allNamed (← get) .dispatcher do
    discard <| answerHeld dispatcher none (.failed "over")
  await fun w => w.timers.all Timer.recurs
  dropCoordinator id
  dropName .coordinator name

end Cluster

end SnapshotAudit
