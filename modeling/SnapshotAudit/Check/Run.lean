import SnapshotAudit.Dispatch
import SnapshotAudit.Membership
import SnapshotAudit.Verdict.Aggregation

/-!
This module contains the course of one check. Its nodes are fixed when it starts; then outcomes are
recorded until every participant has one, the time is over or the check is cancelled, whichever
comes first. Every function here is one step that happens as a whole. A step that ends the check
only decides its result, and the one who took the step delivers it afterwards.
-/

namespace SnapshotAudit

inductive CheckResult where
  | verdict (verdict : Verdict)
  | cancelled
deriving DecidableEq

/--
What is left to be done when a step has ended a check: its result is to be delivered, and the nodes
that have not answered are to be told.
-/
structure Conclusion where
  result : CheckResult
  silent : List Text
deriving DecidableEq

inductive NoticeWay where
  | service
  | dispatcher
deriving DecidableEq

structure Notice where
  node : Text
  way : NoticeWay
deriving DecidableEq

namespace Conclusion

def notices (conclusion : Conclusion) (self : Text) : List Notice :=
  conclusion.silent.map fun node => ⟨node, if node = self then .service else .dispatcher⟩

end Conclusion

/--
The state of a check. The results that were delivered are kept with the latest in front.
-/
structure CheckRun where
  job : UInt64
  desc : SnapshotDescriptor
  assignment : Assignment
  participants : List Text
  expected : Nat
  finished : Bool
  outcomes : SortedMap Text NodeOutcome
  delivered : List CheckResult
deriving DecidableEq

namespace CheckRun

def participantsOf (assignment : Assignment) (members : List Member) : List Text :=
  let servers := members.filter fun m => m.role = .server && assignment.isEligible m.id
  (SortedSet.ofElements (servers.map Member.id)).elements

def peersOf (self : Text) (members : List Member) : List Text :=
  (members.filter fun m => m.role = .server && m.id ≠ self).map Member.id

def firstToKnow {m : Type → Type} [Monad m] (ask : Text → m (Option SnapshotDescriptor))
    (nodes : List Text) : m (Option (Text × SnapshotDescriptor)) := do
  match nodes with
  | [] => return none
  | node :: rest =>
    match ← ask node with
    | some desc => return some (node, desc)
    | none => firstToKnow ask rest

def offline (desc : SnapshotDescriptor) (assignment : Assignment) (participants : List Text)
    : List Text :=
  desc.baseline.filter fun id => assignment.isEligible id && id ∉ participants

def offlineOutcome (node : Text) : NodeOutcome :=
  .failedWith node (.single .nodeUnreachable
    (.join ["Baseline node ", node, " is not an online server node"]))

def verdict (run : CheckRun) : Verdict :=
  aggregate run.desc run.assignment run.outcomes

def deliver (run : CheckRun) (result : CheckResult) : CheckRun :=
  { run with delivered := result :: run.delivered }

def settle (step : CheckRun × Option Conclusion) : CheckRun :=
  match step with
  | (run, none) => run
  | (run, some conclusion) => run.deliver conclusion.result

/--
Start a check under an assignment. Nodes that are not there have an outcome from the start, and a
check without participants is over at once.
-/
def startOn (assignment : Assignment) (job : UInt64) (desc : SnapshotDescriptor)
    (members : List Member) : CheckRun :=
  let participants := participantsOf assignment members
  let absent := offline desc assignment participants
  let run : CheckRun := {
    job, desc, assignment, participants
    expected := participants.length + absent.length
    finished := participants.isEmpty
    outcomes := absent.foldl (fun outcomes id => outcomes.insertIfNew id (offlineOutcome id)) .empty
    delivered := [] }
  if run.finished then run.deliver (.verdict run.verdict) else run

def start (job : UInt64) (desc : SnapshotDescriptor) (members : List Member) : CheckRun :=
  startOn (Rendezvous.assign desc) job desc members

def requestFor (run : CheckRun) (node : Text) : VerifyRequest where
  job := run.job
  snapshot := run.desc.name
  pageSize := run.desc.pageSize
  groups := run.assignment.expectedFor run.desc node

def remoteOf (self : Text) (nodes : List Text) : List Text :=
  nodes.filter fun id => id ≠ self

def remoteJobs (run : CheckRun) (self : Text) : List (Text × VerifyRequest) :=
  (remoteOf self run.participants).map fun node => (node, run.requestFor node)

def silent (run : CheckRun) : List Text :=
  run.participants.filter fun id => !run.outcomes.contains id

/--
Record an outcome. The first one of a node counts, and the last one that is expected ends the check.
-/
def record (run : CheckRun) (outcome : NodeOutcome) : CheckRun × Option Conclusion :=
  if run.finished || run.outcomes.contains outcome.node then (run, none)
  else
    let run := { run with outcomes := run.outcomes.insert outcome.node outcome }
    if run.outcomes.size < run.expected then (run, none)
    else ({ run with finished := true }, some ⟨.verdict run.verdict, []⟩)

def overdueOutcome (node : Text) (timeout : Nat) : NodeOutcome :=
  .failedWith node (.single .nodeTimedOut
    (.join ["Node ", node, " did not reply within ", .decimal timeout, " ms"]))

/--
The time is over: whoever has not answered counts as failed, and the check ends.
-/
def expire (run : CheckRun) (timeout : Nat) : CheckRun × Option Conclusion :=
  if run.finished then (run, none)
  else
    let outcomes := run.silent.foldl
      (fun outcomes id => outcomes.insertIfNew id (overdueOutcome id timeout)) run.outcomes
    let expired := { run with outcomes, finished := true }
    (expired, some ⟨.verdict expired.verdict, run.silent⟩)

def cancel (run : CheckRun) : CheckRun × Option Conclusion :=
  if run.finished then (run, none)
  else ({ run with outcomes := .empty, finished := true }, some ⟨.cancelled, run.silent⟩)

def result? (run : CheckRun) : Option CheckResult :=
  run.delivered.getLast?

def cancelledFault (run : CheckRun) : Fault :=
  .audit .cancelled (.join ["Snapshot check of \"", run.desc.name, "\" was cancelled [job=",
    .decimal run.job.toNat, "]"])

def unknownSnapshotFault (snapshot node : Text) : Fault :=
  .audit .snapshotNotFound (.join ["Snapshot does not exist [snapshot=", snapshot, ", node=", node,
    "]"])

end CheckRun

end SnapshotAudit
