import SnapshotAudit.Cluster.Network

/-!
This module contains how jobs, notices and questions are sent to nodes: by a script, to services of
the same process, or over the network.
-/

namespace SnapshotAudit

namespace Cluster

def noticeTimeout : Nat := 2000

def dispatchJob (id : Id) (node : Text) (request : VerifyRequest) (timeout : Nat)
    (handler : Handler) : ClusterM Unit := do
  match (← get).dispatchers.get? id with
  | none => return
  | some (.scripted d) =>
    let noted :=
      { d with requests := d.requests ++ [request], log := d.log ++ [.join ["verify ", node]] }
    match d.replies.get? node with
    | some reply =>
      setDispatcher id (.scripted noted)
      deliver handler reply
    | none => setDispatcher id (.scripted { noted with held := noted.held ++ [(node, handler)] })
  | some (.inProcess d) =>
    let noted :=
      { d with
        log := d.log ++ [.join [.decimal MessageType.verifyRequest.code.toNat, " ", node]] }
    match d.nodes.get? node with
    | none =>
      setDispatcher id (.inProcess noted)
      poolPost d.pool (.refuse d.pool node handler)
    | some service =>
      let call ← newId
      setDispatcher id (.inProcess { noted with
        calls := noted.calls.insert call
          ⟨.start node request timeout, service, handler, none, none⟩ })
      post (.armLocalCall id call (d.delays.getD node 0))
  | some (.network nodes) =>
    match Call.dispatch nodes node request timeout with
    | .error result => post (.deliver handler result)
    | .ok call => discard <| beginCall call (.dispatch id handler)

def localCall? (cluster : Cluster) (id call : Id) : Option LocalCallObject :=
  match cluster.dispatchers.get? id with
  | some (.inProcess d) => d.calls.get? call
  | _ => none

def armLocalCall (id call : Id) (delay : Nat) : ClusterM Unit := do
  match localCall? (← get) id call with
  | none => return
  | some object =>
    let deadline ← arm object.call.timeout (.localEvent id call .expired)
    let due ← arm delay (.localEvent id call .due)
    match (← get).dispatchers.get? id with
    | some (.inProcess d) =>
      setDispatcher id (.inProcess { d with
        calls := d.calls.insert call
          { object with deadlineTimer := some deadline, delayTimer := some due } })
    | _ => return

def hasten (id : Id) (calls : List Id) : ClusterM Unit := do
  for call in calls do
    match (localCall? (← get) id call).bind LocalCallObject.delayTimer with
    | none => pure ()
    | some timer =>
      disarm timer
      post (.localEvent id call .due)

/--
Tell a node that a job is no longer wanted. A call over the network that is started for this comes
back, with what is to be done when it is over as its purpose.
-/
def sendNotice (id : Id) (node : Text) (job : UInt64) (purpose : CallPurpose)
    : ClusterM (Option Id) := do
  match (← get).dispatchers.get? id with
  | none => return none
  | some (.scripted d) =>
    setDispatcher id (.scripted { d with log := d.log ++ [.join ["cancel ", node]] })
    return none
  | some (.inProcess d) =>
    setDispatcher id (.inProcess { d with
      log := d.log ++ [.join [.decimal MessageType.cancelRequest.code.toNat, " ", node]] })
    match d.nodes.get? node with
    | none => pure ()
    | some service => discard <| cancelJob service job
    post (.hasten id ((d.calls.entries.filter fun e => e.2.call.isFor node job).map Prod.fst))
    return none
  | some (.network nodes) =>
    match nodes.get? node with
    | none => return none
    | some address =>
      return some (← newCall address.host address.jobPort (.cancel job) noticeTimeout purpose)

def notify (coordinator : Id) (job : UInt64) (notices : List Notice) : ClusterM Unit := do
  match (← get).coordinators.get? coordinator with
  | none => return
  | some c =>
    match notices with
    | [] => poolDone c.pool
    | ⟨_, .service⟩ :: rest =>
      discard <| cancelJob c.service job
      post (.notify coordinator job rest)
    | ⟨node, .dispatcher⟩ :: rest =>
      let call ← sendNotice c.dispatcher node job (.notice coordinator job node rest)
      if call.isNone then post (.notify coordinator job rest)

def armDeadline (run : Id) : ClusterM Unit := do
  match (← get).runs.get? run with
  | none => return
  | some object =>
    match (← get).coordinators.get? object.coordinator with
    | none => return
    | some c =>
      let timer ← arm c.timeout (.deadline run)
      let (timers, earlier) := c.timers.set object.run.job timer
      modify fun w =>
        { w with
          coordinators := w.coordinators.insert object.coordinator { c with timers } }
      disarm? earlier

def releaseDeadline (run : Id) : ClusterM Unit := do
  match (← get).runs.get? run with
  | none => return
  | some object =>
    match (← get).coordinators.get? object.coordinator with
    | none => return
    | some c =>
      let (timers, timer) := c.timers.drop object.run.job
      modify fun w =>
        { w with
          coordinators := w.coordinators.insert object.coordinator { c with timers } }
      disarm? timer

/--
The deadline of a check passes. Telling the nodes that did not answer is left to the threads of the
coordinator.
-/
def deadline (run : Id) : ClusterM Unit := do
  match (← get).runs.get? run with
  | none => return
  | some object =>
    match (← get).coordinators.get? object.coordinator with
    | none => return
    | some c =>
      let (timers, timer) := c.timers.drop object.run.job
      modify fun w =>
        { w with
          coordinators := w.coordinators.insert object.coordinator { c with timers } }
      disarm? timer
      match object.run.expire c.timeout with
      | (_, none) => return
      | (expired, some conclusion) =>
        let expired := expired.deliver conclusion.result
        modify fun w => { w with runs := w.runs.insert run { object with run := expired } }
        say (checkEntry c.self object.run.job
          ["deadline passed, ", .decimal conclusion.silent.length, " node(s) did not reply"])
        poolPost c.pool (.notify object.coordinator object.run.job (conclusion.notices c.self))
        sayAll (verdictEntries c.self expired)

def runTask (task : Task) : ClusterM Unit :=
  match task with
  | .arrive execution => arrive execution
  | .wake execution => wake execution
  | .collect execution => collect execution
  | .armDeadline run => armDeadline run
  | .releaseDeadline run => releaseDeadline run
  | .deadline run => deadline run
  | .notify coordinator job notices => notify coordinator job notices
  | .deliver handler result => deliver handler result
  | .refuse pool node handler => do
    deliver handler (.notReachable node)
    poolDone pool
  | .armLocalCall dispatcher call delay => armLocalCall dispatcher call delay
  | .localEvent dispatcher call event => localEvent dispatcher call event
  | .hasten dispatcher calls => hasten dispatcher calls
  | .startCall call => startCall call
  | .failCall call error => resolveCall call (.error error)
  | .callEvent call event => callEvent call event
  | .hear call => hear call
  | .serve connection => serve connection
  | .respond connection frame => respond connection frame
  | .receive gossip => receive gossip
  | .tick gossip => tick gossip

/--
Take what runs next without the clock moving: the first task that is ready or else the first timer
that is due.
-/
def nextTask? : ClusterM (Option Task) :=
  modifyGet fun w =>
    match w.tasks, w.timers with
    | task :: rest, _ => (some task, { w with tasks := rest })
    | [], timer :: rest =>
      if timer.due ≤ w.now then (some timer.task, { w with timers := rest }) else (none, w)
    | [], [] => (none, w)

def jump? (limit : Option Nat) : ClusterM Bool :=
  modifyGet fun w =>
    match w.timers with
    | [] => (false, w)
    | timer :: _ =>
      if limit.all fun l => timer.due ≤ l then (true, { w with now := max w.now timer.due })
      else (false, w)

def stepLimit : Nat := 1 <<< 40

/--
Run until nothing is left to run and, as long as the goal is not reached then, move the clock on to
the next timer.
-/
def runFor (steps : Nat) (goal : Cluster → Bool) (limit : Option Nat) : ClusterM Unit :=
  match steps with
  | 0 => return
  | steps + 1 => do
    match ← nextTask? with
    | some task =>
      runTask task
      runFor steps goal limit
    | none =>
      if goal (← get) then return
      if ← jump? limit then runFor steps goal limit

def drain : ClusterM Unit :=
  runFor stepLimit (fun _ => true) none

def await (goal : Cluster → Bool) : ClusterM Unit :=
  runFor stepLimit goal none

def advance (ms : Nat) : ClusterM Unit := do
  drain
  let target := (← get).now + ms
  runFor stepLimit (fun _ => false) (some target)
  modify fun w => { w with now := max w.now target }

end Cluster

end SnapshotAudit
