import SnapshotAudit.Address
import SnapshotAudit.Catalog
import SnapshotAudit.Check.Deadlines
import SnapshotAudit.Check.Run
import SnapshotAudit.CommandLine
import SnapshotAudit.Inspection
import SnapshotAudit.Job.Call
import SnapshotAudit.Job.LocalCall
import SnapshotAudit.Job.Session
import SnapshotAudit.PartitionFile
import SnapshotAudit.Pool
import SnapshotAudit.Service

/-!
This module contains the state of a cluster: a clock, what is ready to run, timers, files,
ports and everything that lives in the nodes. There are no threads in it. Whatever would wait is a
record of what it waits for, and whatever would run later is a task.
-/

namespace SnapshotAudit

namespace Cluster

abbrev Id := Nat

abbrev Table (α : Type) := SortedMap Id α

inductive Handler where
  | keep (slot : Id)
  | check (run : Id) (node : Text)

inductive Task where
  | arrive (execution : Id)
  | wake (execution : Id)
  | collect (execution : Id)
  | armDeadline (run : Id)
  | releaseDeadline (run : Id)
  | deadline (run : Id)
  | notify (coordinator : Id) (job : UInt64) (notices : List Notice)
  | deliver (handler : Handler) (result : DispatchResult)
  | refuse (pool : Id) (node : Text) (handler : Handler)
  | armLocalCall (dispatcher call : Id) (delay : Nat)
  | localEvent (dispatcher call : Id) (event : LocalEvent)
  | hasten (dispatcher : Id) (calls : List Id)
  | startCall (call : Id)
  | failCall (call : Id) (error : CallError)
  | callEvent (call : Id) (event : CallEvent)
  | hear (call : Id)
  | serve (connection : Id)
  | respond (connection : Id) (frame : Bytes)
  | receive (gossip : Id)
  | tick (gossip : Id)

structure Timer where
  due : Nat
  id : Id
  task : Task

/--
A node that serves jobs. When it is gated, inspections wait until they are let go.
-/
structure ServiceObject where
  state : VerifyService
  root : Text
  gated : Bool

namespace ServiceObject

def inspector (service : ServiceObject) : Inspector :=
  ⟨service.state.node, service.root⟩

def catalog (service : ServiceObject) : Catalog :=
  ⟨service.root, service.state.node⟩

end ServiceObject

inductive Continuation where
  | keep
  | recordLocal (run pool : Id)
  | answerLocalCall (dispatcher call pool : Id)
  | respond (connection pool : Id)

inductive ExecutionPhase where
  | coming
  | waiting
  | held (inspection : InspectionId)
  | attached (inspection : InspectionId)
  | finished (outcome : NodeOutcome)

structure Execution where
  service : Id
  request : VerifyRequest
  phase : ExecutionPhase
  continuation : Continuation

structure LocalCallObject where
  call : LocalCall
  service : Id
  handler : Handler
  delayTimer : Option Id
  deadlineTimer : Option Id

structure ScriptedDispatcher where
  replies : SortedMap Text DispatchResult
  descriptions : SortedMap Text SnapshotDescriptor
  held : List (Text × Handler)
  requests : List VerifyRequest
  log : List Text

structure LocalDispatcher where
  nodes : SortedMap Text Id
  delays : SortedMap Text Nat
  calls : Table LocalCallObject
  pool : Id
  log : List Text

inductive Dispatcher where
  | scripted (dispatcher : ScriptedDispatcher)
  | inProcess (dispatcher : LocalDispatcher)
  | network (nodes : SortedMap Text NodeAddress)

inductive CallPurpose where
  | keep
  | dispatch (dispatcher : Id) (handler : Handler)
  | notice (coordinator : Id) (job : UInt64) (node : Text) (rest : List Notice)

structure CallObject where
  call : Call
  purpose : CallPurpose
  timer : Option Id
  connection : Option Id
  result : Option CallResult

inductive MemberSource where
  | fixed (members : List Member)
  | gossip (id : Id)

structure Coordinator where
  self : Text
  catalog : Catalog
  view : MemberSource
  dispatcher : Id
  service : Id
  timeout : Nat
  pool : Id
  nextJob : UInt64
  timers : Deadlines
  alive : Bool
  inFlight : Nat

structure RunObject where
  coordinator : Id
  run : CheckRun

/--
What serves jobs over the network. It serves as long as its loop runs; a loop that has ended does
not start again.
-/
structure JobServer where
  service : Id
  host : Text
  port : UInt16
  pool : Id
  listening : Bool
  ended : Bool
  jobs : Nat

inductive Listener where
  | server (id : Id)
  | peer (reply : Bytes) (close : Bool)

structure Connection where
  listener : Listener
  client : Option Id
  session : Session
  toClient : Bytes
  clientClosed : Bool
  serverClosed : Bool

inductive LoopState where
  | idle
  | running
  | ended
deriving DecidableEq

structure GossipObject where
  gossip : Gossip
  peers : List NodeAddress
  port : UInt16
  loop : LoopState
  inbox : List Bytes
  timer : Option Id

inductive UdpEnd where
  | gossip (id : Id)
  | tap (datagrams : List Bytes)

structure NodeObject where
  config : NodeConfig
  gossip : Id
  service : Id
  server : Option Id
  coordinator : Id
  running : Bool

structure OpenReader where
  partitionFile : PartitionFile
  file : FileId

end Cluster

open Cluster in
/--
A cluster: the nodes, what they have in hand, their files and the network between them, on one
clock.
-/
structure Cluster where
  /-- The time in milliseconds. -/
  now : Nat
  /-- The first identity that nothing has. -/
  fresh : Id
  /-- What is ready to run, in the order in which it became ready. -/
  tasks : List Task
  /-- What becomes ready later, in the order in which it goes off. -/
  timers : List Timer
  files : FileTree
  pools : Table (Pool Task)
  services : Table ServiceObject
  executions : Table Execution
  dispatchers : Table Dispatcher
  results : Table DispatchResult
  calls : Table CallObject
  coordinators : Table Coordinator
  runs : Table RunObject
  servers : Table JobServer
  listeners : SortedMap UInt16 Listener
  connections : Table Connection
  gossips : Table GossipObject
  udp : SortedMap UInt16 UdpEnd
  nodes : Table NodeObject
  readers : SortedMap Text OpenReader
  names : SortedMap Text (SortedMap Text Id)
  /-- What was said in the log, the latest entry first. -/
  journal : List Text

namespace Cluster

def instant (cluster : Cluster) : Instant :=
  .ofMilliseconds cluster.now

def start (files : FileTree) : Cluster where
  now := 0
  fresh := 0
  tasks := []
  timers := []
  files := files
  pools := .empty
  services := .empty
  executions := .empty
  dispatchers := .empty
  results := .empty
  calls := .empty
  coordinators := .empty
  runs := .empty
  servers := .empty
  listeners := .empty
  connections := .empty
  gossips := .empty
  udp := .empty
  nodes := .empty
  readers := .empty
  names := .empty
  journal := []

instance : Inhabited Cluster where
  default := start .empty

abbrev ClusterM := StateM Cluster

/--
A change of the cluster that may stop with a fault. What was changed before the fault stays.
-/
abbrev Action := ExceptT Fault ClusterM

end Cluster

end SnapshotAudit
