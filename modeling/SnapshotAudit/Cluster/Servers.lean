import SnapshotAudit.Cluster.Checks

/-!
This module contains the steps that are taken with job servers, connections and calls of a
cluster.
-/

namespace SnapshotAudit

namespace Cluster

def addServer (serviceId : Id) (host : Text) (port : UInt16) (workers : Nat) : ClusterM Id := do
  let pool ← newPool workers
  let id ← newId
  modify fun w =>
    { w with servers := w.servers.insert id ⟨serviceId, host, port, pool, false, false, 0⟩ }
  return id

def addressInUse : Text := "Address already in use"

def startServer (id : Id) : ClusterM Bool := do
  match (← get).servers.get? id with
  | none => return false
  | some server =>
    if server.listening then return true
    let node := serverNode (← get) server
    if !HostAddress.isValid server.host then
      say (serverEntry node ["address error: ", HostAddress.invalidMessage])
      return false
    if (← get).listeners.contains server.port then
      say (serverEntry node ["bind error on port ", .decimal server.port.toNat, ": ",
        addressInUse])
      return false
    modify fun w =>
      { w with
        servers := w.servers.insert id { server with listening := true }
        listeners := w.listeners.insert server.port (.server id) }
    say (serverEntry node ["listening on ", server.host, ":", .decimal server.port.toNat])
    return true

def stopServer (id : Id) : ClusterM Unit := do
  match (← get).servers.get? id with
  | none => return
  | some server =>
    if server.listening then
      modify fun w =>
        { w with
          servers := w.servers.insert id { server with listening := false, ended := true }
          listeners := w.listeners.erase server.port }

def openConnections (cluster : Cluster) (server : Id) : List Id :=
  (cluster.connections.entries.filter fun e =>
    match e.2.listener with
    | .server id => id = server && !e.2.serverClosed
    | .peer _ _ => false).map Prod.fst

/--
Drop a server: its connections are closed along with it, also those that it did not close when it
stopped.
-/
def dropServer (id : Id) : ClusterM Unit := do
  stopServer id
  modify fun w =>
    { w with servers := w.servers.modify id fun server => { server with ended := true } }
  for connection in openConnections (← get) id do
    endSession connection

def workers : Nat := 4

/--
A new server that is started at once. The answer says whether it listens. The server that had the
name before is dropped first, so its port is free.
-/
def newServer (name serviceName host : Text) (port : UInt16) : Action Bool := do
  let (serviceId, _) ← service serviceName
  previous .server name dropServer
  let id ← addServer serviceId host port workers
  let started ← startServer id
  bindName .server name id
  return started

def restartServer (name : Text) : Action Bool := do
  let (id, _) ← object .server Cluster.servers name
  startServer id

def haltServer (name : Text) : Action Unit := do
  let (id, _) ← object .server Cluster.servers name
  stopServer id

def serverState (name : Text) : Action (Bool × Nat) := do
  let (_, server) ← object .server Cluster.servers name
  return (server.listening, server.jobs)

/-!
A client that sends whatever bytes it likes.
-/

def openConnection (name : Text) (port : UInt16) : Action Bool := do
  match ← connect? port none with
  | none => return false
  | some id =>
    previous .connection name closeClientEnd
    bindName .connection name id
    post (.serve id)
    return true

def takeReceived (name : Text) : Action (Bytes × Bool) := do
  drain
  let (id, c) ← object .connection Cluster.connections name
  setConnection id { c with toClient := [] }
  return (c.toClient, c.serverClosed)

def sendBytes (name : Text) (bytes : Bytes) : Action (Bytes × Bool) := do
  let (id, _) ← object .connection Cluster.connections name
  sendToServer id bytes
  takeReceived name

def closeConnection (name : Text) : Action (Bytes × Bool) := do
  let (id, _) ← object .connection Cluster.connections name
  drain
  closeClientEnd id
  takeReceived name

def callNode (host : Text) (port : UInt16) (request : JobRequest) (timeout : Nat)
    : Action (Except Fault JobReply) := do
  match ← awaitCall (← newCall host port request timeout .keep) with
  | .ok reply => return .ok reply
  | .error error => return .error error.fault

def callPeer (host : Text) (port : UInt16) (request : JobRequest) (timeout : Nat) (reply : Bytes)
    (close : Bool) : Action (Except Fault JobReply × Bytes) := do
  if (← get).listeners.contains port then
    throw (.system (.join ["bind: ", addressInUse]))
  modify fun w => { w with listeners := w.listeners.insert port (.peer reply close) }
  let call ← newCall host port request timeout .keep
  let result ← awaitCall call
  modify fun w => { w with listeners := w.listeners.erase port }
  let cluster ← get
  let connection :=
    ((cluster.calls.get? call).bind CallObject.connection).bind cluster.connections.get?
  let sent := (connection.map fun c => c.session.inbox).getD []
  match result with
  | .ok reply => return (.ok reply, sent)
  | .error error => return (.error error.fault, sent)

end Cluster

end SnapshotAudit
