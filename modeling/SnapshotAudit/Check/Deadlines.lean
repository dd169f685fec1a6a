import SnapshotAudit.Ordered.Map

/-!
This module contains the deadlines of the checks of a coordinator. Every check that waits for nodes
has a timer, which is known by the job of the check.
-/

namespace SnapshotAudit

abbrev Deadlines := SortedMap UInt64 Nat

namespace Deadlines

/--
Give a job a timer. With the result stands the timer that the job had before, which is to be
stopped.
-/
def set (deadlines : Deadlines) (job : UInt64) (timer : Nat) : Deadlines × Option Nat :=
  (deadlines.insert job timer, deadlines.get? job)

def drop (deadlines : Deadlines) (job : UInt64) : Deadlines × Option Nat :=
  (deadlines.erase job, deadlines.get? job)

end Deadlines

end SnapshotAudit
