import SnapshotAudit.Cluster.Jobs

/-!
This module contains the network of a cluster: connections over which bytes arrive at once
and in order, calls and sessions at their ends, and datagrams.
-/

namespace SnapshotAudit

namespace Cluster

def setConnection (id : Id) (connection : Connection) : ClusterM Unit :=
  modify fun w => { w with connections := w.connections.insert id connection }

def connect? (port : UInt16) (client : Option Id) : ClusterM (Option Id) := do
  match (← get).listeners.get? port with
  | none => return none
  | some listener =>
    let id ← newId
    let connection := ⟨listener, client, .start, [], false, false⟩
    match listener with
    | .server _ => setConnection id connection
    | .peer reply close =>
      setConnection id { connection with toClient := reply, serverClosed := close }
    return some id

def tellClient (connection : Connection) : ClusterM Unit :=
  match connection.client with
  | none => return
  | some call => post (.hear call)

def sendToServer (id : Id) (bytes : Bytes) : ClusterM Unit := do
  match (← get).connections.get? id with
  | none => return
  | some c =>
    match c.listener with
    | .server _ =>
      unless c.serverClosed || c.clientClosed do
        setConnection id { c with session := c.session.receive bytes }
        post (.serve id)
    | .peer _ _ => setConnection id { c with session := c.session.receive bytes }

def sendToClient (id : Id) (bytes : Bytes) : ClusterM Unit := do
  match (← get).connections.get? id with
  | none => return
  | some c =>
    unless c.clientClosed do
      setConnection id { c with toClient := c.toClient ++ bytes }
      tellClient c

def closeServerEnd (id : Id) : ClusterM Unit := do
  match (← get).connections.get? id with
  | none => return
  | some c =>
    setConnection id { c with serverClosed := true }
    tellClient c

/--
The client goes. The serving side finds that out when it reads on or answers.
-/
def closeClientEnd (id : Id) : ClusterM Unit := do
  modify fun w =>
    { w with connections := w.connections.modify id fun c => { c with clientClosed := true } }
  post (.serve id)

def endSession (id : Id) : ClusterM Unit := do
  modify fun w =>
    { w with connections := w.connections.modify id fun c => { c with session := c.session.ended } }
  closeServerEnd id

def answer (id : Id) (frame : Bytes) : ClusterM Unit := do
  match (← get).connections.get? id with
  | none => return
  | some c =>
    if c.clientClosed then endSession id
    else
      sendToClient id frame
      modify fun w =>
        { w with
          connections := w.connections.modify id fun c => { c with session := c.session.answered } }
      post (.serve id)

def searchCatalog (catalog : Catalog) (snapshot : Text)
    : ClusterM (Except Fault (Option SnapshotDescriptor)) := do
  let (found, log) := catalog.search (← get).files snapshot
  sayAll log
  return found

def serverNode (cluster : Cluster) (server : JobServer) : Text :=
  ((cluster.services.get? server.service).map fun object => object.state.node).getD []

/--
The serving side of a connection reads on, as long as the loop of its server runs. A fault of the
machine ends the loop for good and takes the connection along on which it arose.
-/
def serve (id : Id) : ClusterM Unit := do
  match (← get).connections.get? id with
  | none => return
  | some c =>
    match c.listener with
    | .peer _ _ => return
    | .server serverId =>
      match (← get).servers.get? serverId with
      | none => return
      | some server =>
        if server.ended then return
        let (session, demand) := c.session.read
        setConnection id { c with session }
        match demand with
        | none => if c.clientClosed && session.reading then endSession id
        | some (.verify request) =>
          modify fun w =>
            { w with servers := w.servers.insert serverId { server with jobs := server.jobs + 1 } }
          let execution ← newExecution server.service request (.respond id server.pool)
          poolPost server.pool (.arrive execution)
        | some (.cancel job) =>
          let wasPending ← cancelJob server.service job
          answer id (Demand.cancelReply wasPending)
        | some (.describe snapshot) =>
          match (← get).services.get? server.service with
          | none => return
          | some object =>
            match ← searchCatalog object.catalog snapshot with
            | .ok desc => answer id (Demand.describeReply desc)
            | .error fault =>
              modify fun w =>
                { w with servers := w.servers.insert serverId { server with ended := true } }
              closeServerEnd id
              say (serverEntry object.state.node ["io_context exception: ", fault.message])
        | some (.reject reason) =>
          say (serverEntry (serverNode (← get) server) ["rejecting request: ", reason])
          sendToClient id (Demand.rejectReply reason)
          closeServerEnd id

def respond (id : Id) (frame : Bytes) : ClusterM Unit := do
  match (← get).connections.get? id with
  | none => return
  | some c =>
    match c.listener with
    | .peer _ _ => return
    | .server serverId =>
      match (← get).servers.get? serverId with
      | none => return
      | some server => unless server.ended do answer id frame

def sayNoticeFailed (node : Text) (job : UInt64) (result : CallResult) : ClusterM Unit :=
  match result with
  | .ok _ => return
  | .error error => say (noticeFailedEntry job node error.fault)

def resolveCall (id : Id) (result : CallResult) : ClusterM Unit := do
  match (← get).calls.get? id with
  | none => return
  | some object =>
    disarm? object.timer
    match object.connection with
    | none => pure ()
    | some connection => closeClientEnd connection
    modify fun w =>
      { w with calls := w.calls.insert id { object with result := some result, timer := none } }
    match object.purpose with
    | .keep => return
    | .dispatch _ handler => deliver handler (Call.dispatchResult result)
    | .notice coordinator job node rest =>
      sayNoticeFailed node job result
      post (.notify coordinator job rest)

def callEvent (id : Id) (event : CallEvent) : ClusterM Unit := do
  match (← get).calls.get? id with
  | none => return
  | some object =>
    let (call, result) := object.call.step event
    modify fun w => { w with calls := w.calls.insert id { object with call } }
    match result with
    | some result => resolveCall id result
    | none =>
      match call.phase, event, object.connection with
      | .sending, .connected, some connection =>
        sendToServer connection call.request.frame
        post (.callEvent id .sent)
      | .header, .sent, _ => post (.hear id)
      | .body _, .headerRead _, _ => post (.hear id)
      | _, _, _ => return

def hear (id : Id) : ClusterM Unit := do
  match (← get).calls.get? id with
  | none => return
  | some object =>
    match object.call.wanted?, object.connection with
    | some wanted, some connectionId =>
      match (← get).connections.get? connectionId with
      | none => return
      | some c =>
        if wanted ≤ c.toClient.length then
          setConnection connectionId { c with toClient := c.toClient.drop wanted }
          callEvent id (object.call.readEvent (c.toClient.take wanted))
        else if c.serverClosed then callEvent id (.failed "End of file")
    | _, _ => return

def beginCall (call : Call) (purpose : CallPurpose) : ClusterM Id := do
  let id ← newId
  modify fun w => { w with calls := w.calls.insert id ⟨call, purpose, none, none, none⟩ }
  post (.startCall id)
  return id

def newCall (host : Text) (port : UInt16) (request : JobRequest) (timeout : Nat)
    (purpose : CallPurpose) : ClusterM Id := do
  match Call.start host port request timeout with
  | .ok call => beginCall call purpose
  | .error error =>
    let id ← newId
    let call := ⟨host, port, request, timeout, .over⟩
    modify fun w => { w with calls := w.calls.insert id ⟨call, purpose, none, none, none⟩ }
    post (.failCall id error)
    return id

/--
A call sets its time limit and connects. Without any time it is over before it is connected.
-/
def startCall (id : Id) : ClusterM Unit := do
  match (← get).calls.get? id with
  | none => return
  | some object =>
    let timer ← arm object.call.timeout (.callEvent id .expired)
    let connection ← connect? object.call.port (some id)
    modify fun w =>
      { w with calls := w.calls.insert id { object with timer := some timer, connection } }
    post (.callEvent id (if connection.isSome then .connected else .failed "Connection refused"))

def abandonCalls (dispatcher : Id) : ClusterM Unit := do
  for (id, object) in (← get).calls.entries do
    match object.purpose, object.result with
    | .dispatch owner _, none =>
      if owner = dispatcher then
        disarm? object.timer
        match object.connection with
        | none => pure ()
        | some connection => closeClientEnd connection
        modify fun w =>
          { w with
            calls := w.calls.insert id
              { object with call := object.call.abandoned, timer := none } }
    | _, _ => pure ()

def sendDatagram (port : UInt16) (bytes : Bytes) : ClusterM Unit := do
  match (← get).udp.get? port with
  | none => return
  | some (.tap datagrams) =>
    modify fun w => { w with udp := w.udp.insert port (.tap (datagrams ++ [bytes])) }
  | some (.gossip id) =>
    modify fun w =>
      { w with gossips := w.gossips.modify id fun g => { g with inbox := g.inbox ++ [bytes] } }
    post (.receive id)

def receive (id : Id) : ClusterM Unit := do
  match (← get).gossips.get? id with
  | none => return
  | some g =>
    if g.gossip.active && g.gossip.bound && g.loop = .running then
      let now := (← get).instant
      sayAll (g.inbox.filterMap g.gossip.membership.complaint?)
      let gossip := g.inbox.foldl (fun gossip bytes => gossip.receive now bytes) g.gossip
      modify fun w => { w with gossips := w.gossips.insert id { g with gossip, inbox := [] } }

def tick (id : Id) : ClusterM Unit := do
  match (← get).gossips.get? id with
  | none => return
  | some g =>
    if g.gossip.active && g.loop = .running then
      let (gossip, datagram) := g.gossip.tick (← get).instant
      modify fun w => { w with gossips := w.gossips.insert id { g with gossip } }
      for peer in g.peers do
        if !HostAddress.isValid peer.host then
          say (entryOf "GossipCluster" gossip.membership.self
            ["bad peer address ", peer.host, ": ", HostAddress.invalidMessage])
        else
          match datagram with
          | none => pure ()
          | some datagram => sendDatagram peer.port datagram
      let timer ← arm Membership.interval (.tick id)
      modify fun w =>
        { w with gossips := w.gossips.modify id fun g => { g with timer := some timer } }

end Cluster

end SnapshotAudit
