import SnapshotAudit.Cluster.State

/-!
This module contains the log of a cluster: who says what while the nodes do their work. Its entries
are kept in the order in which they are said, and an entry may hold line feeds of its own.
-/

namespace SnapshotAudit

namespace Cluster

def say (entry : Text) : ClusterM Unit :=
  modify fun w => { w with journal := entry :: w.journal }

def sayAll (entries : List Text) : ClusterM Unit :=
  entries.forM say

def recorded {α : Type} (act : ClusterM α) : ClusterM (α × List Text) := do
  let before := (← get).journal.length
  let value ← act
  let journal := (← get).journal
  return (value, (journal.take (journal.length - before)).reverse)

def entryOf (part node : Text) (words : List Text) : Text :=
  .join ("[" :: part :: " " :: node :: "] " :: words)

def nodeEntry (node : Text) (words : List Text) : Text :=
  entryOf "StrataNode" node words

def serverEntry (node : Text) (words : List Text) : Text :=
  entryOf "JobServer" node words

def serviceEntry (node : Text) (job : UInt64) (words : List Text) : Text :=
  entryOf "VerifyService" node ("job " :: .decimal job.toNat :: " " :: words)

def coordinatorEntry (node : Text) (words : List Text) : Text :=
  entryOf "VerifyCoordinator" node words

def checkEntry (node : Text) (job : UInt64) (words : List Text) : Text :=
  coordinatorEntry node ("job " :: .decimal job.toNat :: " " :: words)

def callFailedEntry (what node : Text) (fault : Fault) : Text :=
  .join ["[TcpJobDispatcher] ", what, " on ", node, " failed: ", fault.message]

def noticeFailedEntry (job : UInt64) (node : Text) (fault : Fault) : Text :=
  callFailedEntry (.join ["cancel of job ", .decimal job.toNat]) node fault

def describeFailedEntry (snapshot node : Text) (fault : Fault) : Text :=
  callFailedEntry (.join ["describe of snapshot \"", snapshot, "\""]) node fault

end Cluster

end SnapshotAudit
