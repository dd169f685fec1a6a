import SnapshotAudit.Proofs.Job.NetworkErrand
import SnapshotAudit.Proofs.Job.Settling

/-!
This module contains that whoever sends a job is told one result and no more, within a process and
over the network, whatever happens to the job and in which order, and what decides the result.
-/

namespace SnapshotAudit

end SnapshotAudit
