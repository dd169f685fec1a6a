import SnapshotAudit.Cluster.Servers
import SnapshotAudit.Verdict.Report

/-!
This module contains members and whole nodes of a cluster, and what the command line does
with them.
-/

namespace SnapshotAudit

namespace Cluster

def addGossip (self : NodeAddress) (role : Role) (peers : List NodeAddress) (loop : LoopState)
    : Action Id := do
  if (← get).udp.contains self.port then
    throw (.system (.join ["bind: ", addressInUse]))
  let id ← newId
  let gossip := Gossip.create self.id role (← get).instant
  modify fun w =>
    { w with
      gossips := w.gossips.insert id ⟨gossip, peers, self.port, loop, [], none⟩
      udp := w.udp.insert self.port (.gossip id) }
  return id

/--
A member becomes active: it takes in what has come so far, and its first sign of life follows after
one interval. A member that was active once and was stopped has no port any more.
-/
def startGossip (id : Id) : ClusterM Unit := do
  match (← get).gossips.get? id with
  | none => return
  | some g =>
    unless g.gossip.active do
      let timer ← arm Membership.interval (.tick id)
      modify fun w =>
        { w with
          gossips := w.gossips.insert id { g with gossip := g.gossip.start, timer := some timer } }
      post (.receive id)

def releasePort (g : GossipObject) : ClusterM Unit := do
  if g.gossip.bound then
    modify fun w => { w with udp := w.udp.erase g.port }

/--
Datagrams that came to the port of a member and were not taken in are gone with it.
-/
def closeGossip (id : Id) : ClusterM Unit := do
  match (← get).gossips.get? id with
  | none => return
  | some g =>
    releasePort g
    modify fun w =>
      { w with gossips := w.gossips.insert id { g with gossip := g.gossip.close, inbox := [] } }

def stopGossip (id : Id) : ClusterM Unit := do
  match (← get).gossips.get? id with
  | none => return
  | some g =>
    if g.gossip.active then
      disarm? g.timer
      releasePort g
      modify fun w =>
        { w with
          gossips := w.gossips.insert id
            { g with gossip := g.gossip.stop, inbox := [], timer := none } }

def dropGossip (id : Id) : ClusterM Unit := do
  stopGossip id
  closeGossip id

def newGossip (name : Text) (self : NodeAddress) (role : Role) (peers : List NodeAddress)
    : Action Unit := do
  let id ← addGossip self role peers .running
  previous .gossip name dropGossip
  bindName .gossip name id

def startNamedGossip (name : Text) : Action Unit := do
  let (id, _) ← object .gossip Cluster.gossips name
  startGossip id

def stopNamedGossip (name : Text) : Action Unit := do
  let (id, _) ← object .gossip Cluster.gossips name
  stopGossip id

def listedBy (cluster : Cluster) (gossip : Id) : List Member :=
  (membersOf cluster (.gossip gossip)).mergeSort fun a b => (compare a.id b.id).isLE

def gossipMembers (name : Text) : Action (List Member) := do
  let (id, _) ← object .gossip Cluster.gossips name
  return listedBy (← get) id

def tapPort (port : UInt16) : Action Unit := do
  if (← get).udp.contains port then
    throw (.system (.join ["bind: ", addressInUse]))
  modify fun w => { w with udp := w.udp.insert port (.tap []) }

def takeDatagrams (port : UInt16) : Action (List Bytes) := do
  match (← get).udp.get? port with
  | some (.tap datagrams) =>
    modify fun w => { w with udp := w.udp.insert port (.tap []) }
    return datagrams
  | _ => throw (absent "port" (.decimal port.toNat))

/-!
Whole nodes.
-/

def snapshotRoot (config : NodeConfig) : Text :=
  Path.join config.dataRoot FileName.snapshots

def addNode (config : NodeConfig) : Action Id := do
  let root := snapshotRoot config
  changeFiles fun tree => tree.createDirectories root
  let gossip ← addGossip config.self config.role config.peers .idle
  let serviceId ← addService config.self.id root
  let server ←
    match config.role with
    | .server => some <$> addServer serviceId config.self.host config.self.jobPort workers
    | .client => pure none
  let dispatcher ← addDispatcher (networkDispatcher config.peers)
  let coordinator ← addCoordinator config.self.id root (.gossip gossip) dispatcher serviceId
    config.timeout workers
  let id ← newId
  modify fun w =>
    { w with
      nodes := w.nodes.insert id ⟨config, gossip, serviceId, server, coordinator, false⟩ }
  return id

def setLoop (gossip : Id) (f : LoopState → LoopState) : ClusterM Unit :=
  modify fun w =>
    { w with gossips := w.gossips.modify gossip fun g => { g with loop := f g.loop } }

def startedEntry (config : NodeConfig) : Text :=
  nodeEntry config.self.id ["started as ",
    if config.role = .server then "server" else "client", ", snapshots under ",
    .quoted (snapshotRoot config)]

def startNode (id : Id) : Action Unit := do
  let node ← present stuck ((← get).nodes.get? id)
  unless node.running do
    match node.server with
    | none => pure ()
    | some server =>
      unless ← startServer server do
        throw (.system (.join ["StrataNode ", node.config.self.id,
          ": job server failed to start"]))
    setLoop node.gossip fun state => if state = .idle then .running else state
    startGossip node.gossip
    modify fun w => { w with nodes := w.nodes.insert id { node with running := true } }
    say (startedEntry node.config)

def stopNode (id : Id) : ClusterM Unit := do
  match (← get).nodes.get? id with
  | none => return
  | some node =>
    if node.running then
      modify fun w => { w with nodes := w.nodes.insert id { node with running := false } }
      match node.server with
      | none => pure ()
      | some server => stopServer server
      stopGossip node.gossip
      setLoop node.gossip fun _ => .ended

def dropNode (id : Id) : ClusterM Unit := do
  match (← get).nodes.get? id with
  | none => return
  | some node =>
    stopNode id
    dropCoordinator node.coordinator
    match node.server with
    | none => pure ()
    | some server => dropServer server
    dropGossip node.gossip

/--
A new node under a name: whether it takes jobs from others, and where its snapshots are. The node
that had the name before still has its ports meanwhile.
-/
def newNode (name : Text) (config : NodeConfig) : Action (Bool × Text) := do
  let id ← addNode config
  previous .node name dropNode
  bindName .node name id
  return (config.role = .server, snapshotRoot config)

def node (name : Text) : Action (Id × NodeObject) :=
  object .node Cluster.nodes name

def startNamedNode (name : Text) : Action Unit := do
  startNode (← node name).1

def stopNamedNode (name : Text) : Action Unit := do
  stopNode (← node name).1

def nodeMembers (name : Text) : Action (List Member) := do
  return listedBy (← get) (← node name).2.gossip

def checkFromNode (name snapshot handle : Text) : Action (Text × Bool) := do
  checkNamed (← node name).2.coordinator snapshot handle

/-!
The command line.
-/

inductive Ending where
  | exit (code : Nat)
  | forever

def discovery : Nat := 3000

def checkAndWait (id : Id) (snapshot : Text) : Action Verdict := do
  let node ← present stuck ((← get).nodes.get? id)
  let runId ← check node.coordinator snapshot
  let result? (w : Cluster) := (w.runs.get? runId).bind fun object => object.run.result?
  await fun w => (result? w).isSome
  match result? (← get), (← get).runs.get? runId with
  | some (.verdict verdict), _ => return verdict
  | _, some object => throw object.run.cancelledFault
  | _, none => throw stuck

def serveOrCheck (id : Id) (command : Command) : Action Ending := do
  startNode id
  if command.snapshot.isEmpty then
    say (nodeEntry command.node.self.id ["running. Press Ctrl+C to terminate process."])
    return .forever
  advance discovery
  let verdict ← checkAndWait id command.snapshot
  sayAll (verdict.report command.verbose).lines
  return .exit (if verdict.clean then 0 else 2)

def endWith (config : NodeConfig) (fault : Fault) : ClusterM Ending := do
  if fault.kind = .snapshotNotFound then
    say fault.message
    return .exit 3
  else
    say (nodeEntry config.self.id ["fatal: ", fault.message])
    return .exit 1

def runCommand (command : Command) : ClusterM Ending := do
  match ← (addNode command.node).run with
  | .error fault => endWith command.node fault
  | .ok id =>
    let ended ← (serveOrCheck id command).run
    dropNode id
    match ended with
    | .ok ending => return ending
    | .error fault => endWith command.node fault

def runProgram (arguments : List Text) : ClusterM (Ending × List Text) :=
  recorded <|
    match CommandLine.parse arguments with
    | .error error => do
      sayAll (CommandLine.complaint error)
      return .exit 1
    | .ok command => runCommand command

/--
The lines of what was printed. Lines of the log are left out, except those of nodes about
themselves.
-/
def shownLines (printed : List Text) : List Text :=
  (Text.printedLines printed).filter fun line =>
    line.head? ≠ some 91 || ("[StrataNode " : Text).isPrefixOf line

end Cluster

end SnapshotAudit
