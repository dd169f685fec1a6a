import SnapshotAudit.Snapshot.Outcome

/-!
This module contains what comes back when a job is sent to a node.
-/

namespace SnapshotAudit

inductive DispatchResult where
  | replied (outcome : NodeOutcome)
  | failed (error : Text)
  | timedOut (error : Text)
deriving DecidableEq

namespace DispatchResult

def notReachable (node : Text) : DispatchResult :=
  .failed (.join ["node ", node, " is not reachable"])

def noReply (node : Text) (timeout : Nat) : DispatchResult :=
  .timedOut (.join ["node ", node, " did not reply within ", .decimal timeout, " ms"])

def noAddress (node : Text) : DispatchResult :=
  .failed ("no address known for node " ++ node)

/--
What the result says about a node in a check. An answer speaks for the node it was asked of,
whatever name it carries.
-/
def contribution (result : DispatchResult) (node : Text) : NodeOutcome :=
  match result with
  | replied outcome => { outcome with node := node }
  | failed error =>
    .failedWith node (.single .nodeUnreachable
      (.join ["Node ", node, " is unreachable: ", error]))
  | timedOut error =>
    .failedWith node (.single .nodeTimedOut
      (.join ["Node ", node, " did not reply: ", error]))

end DispatchResult

end SnapshotAudit
