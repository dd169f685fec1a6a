import SnapshotAudit.Cluster.Journal

/-!
This module contains when things run in a cluster: tasks in the order in which they became
ready, work on the threads of a pool, and timers on a clock that does not move by itself.
-/

namespace SnapshotAudit

namespace Cluster

def newId : ClusterM Id :=
  modifyGet fun w => (w.fresh, { w with fresh := w.fresh + 1 })

def post (task : Task) : ClusterM Unit :=
  modify fun w => { w with tasks := w.tasks ++ [task] }

def insertTimer (timer : Timer) (timers : List Timer) : List Timer :=
  timers.takeWhile (fun t => t.due ≤ timer.due) ++ timer ::
    timers.dropWhile fun t => t.due ≤ timer.due

def arm (delay : Nat) (task : Task) : ClusterM Id := do
  let id ← newId
  if delay = 0 then post task
  else modify fun w => { w with timers := insertTimer ⟨w.now + delay, id, task⟩ w.timers }
  return id

def disarm (id : Id) : ClusterM Unit :=
  modify fun w => { w with timers := w.timers.filter fun t => t.id ≠ id }

def disarm? (id : Option Id) : ClusterM Unit :=
  match id with
  | none => return
  | some id => disarm id

def newPool (threads : Nat) : ClusterM Id := do
  let id ← newId
  modify fun w => { w with pools := w.pools.insert id (.ofThreads threads) }
  return id

def staff (pool : Id) (p : Pool Task) : ClusterM Unit := do
  match p.takeUp? with
  | none => modify fun w => { w with pools := w.pools.insert pool p }
  | some (task, p) =>
    modify fun w => { w with pools := w.pools.insert pool p }
    post task

def poolPost (pool : Id) (task : Task) : ClusterM Unit := do
  match (← get).pools.get? pool with
  | none => return
  | some p => staff pool (p.post task)

def poolDone (pool : Id) : ClusterM Unit := do
  match (← get).pools.get? pool with
  | none => return
  | some p => staff pool p.release

end Cluster

end SnapshotAudit
