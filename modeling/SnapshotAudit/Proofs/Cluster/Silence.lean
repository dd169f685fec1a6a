import SnapshotAudit.Proofs.Cluster.Frames
import SnapshotAudit.Proofs.Ordered.Map

/-!
This module contains that a server whose loop has ended is silent: whatever happens in the cluster,
a client that is connected to it reads nothing.
-/

namespace SnapshotAudit

namespace Cluster

/--
A connection to a server whose loop has ended. Nothing has come to the client.
-/
structure Silent (server id : Id) (w : Cluster) : Prop where
  taken : id < w.fresh
  ended : ∃ s, w.servers.get? server = some s ∧ s.ended = true
  unanswered : ∃ c, w.connections.get? id = some c ∧ c.listener = .server server ∧ c.toClient = []

abbrev Silences (server id : Id) {α : Type} (act : ClusterM α) : Prop :=
  Within (fun v w => Silent server id v → Silent server id w) act

variable {α β : Type} {server id : Id} {w : Cluster}

theorem frame_silent (server id : Id) : Frame fun v w => Silent server id v → Silent server id w :=
  frame_of_invariant _

theorem Silences.bind {act : ClusterM α} {next : α → ClusterM β} (h : Silences server id act)
    (hnext : ∀ a, Silences server id (next a)) : Silences server id (act >>= next) :=
  (frame_silent server id).bind h hnext

theorem silences_pure (a : α) : Silences server id (pure a) :=
  (frame_silent server id).pure a

theorem Only.silences {parts : List Part} {act : ClusterM α} (h : Only parts act)
    (hservers : parts.contains .servers = false)
    (hconnections : parts.contains .connections = false) : Silences server id act := by
  rintro w ⟨htaken, hended, hunanswered⟩
  exact ⟨Nat.lt_of_lt_of_le htaken (h w).fresh, h.servers_eq hservers w ▸ hended,
    h.connections_eq hconnections w ▸ hunanswered⟩

/-!
Connections.
-/

theorem silent_setConnection {other : Id} {c next : Connection} (silent : Silent server id w)
    (hc : w.connections.get? other = some c) (hlistener : next.listener = c.listener)
    (hclient : c.toClient = [] → next.toClient = [])
    : Silent server id ((setConnection other next).run w).2 := by
  refine ⟨silent.taken, silent.ended, ?_⟩
  obtain ⟨old, hold, hserver, hnothing⟩ := silent.unanswered
  change ∃ c, (w.connections.insert other next).get? id = some c ∧ _
  rw [SortedMap.get?_insert_eq]
  split
  next heq =>
    subst heq
    obtain rfl := Option.some.inj (hc.symm.trans hold)
    exact ⟨next, rfl, hlistener.trans hserver, hclient hnothing⟩
  next => exact ⟨old, hold, hserver, hnothing⟩

theorem silences_setConnection {other : Id} (hother : id ≠ other) (next : Connection)
    : Silences server id (setConnection other next) := by
  intro w silent
  refine ⟨silent.taken, silent.ended, ?_⟩
  obtain ⟨old, hold, hserver, hnothing⟩ := silent.unanswered
  refine ⟨old, ?_, hserver, hnothing⟩
  change (w.connections.insert other next).get? id = some old
  rw [SortedMap.get?_insert_eq, if_neg hother, hold]

theorem silences_modifyConnection {other : Id} {f : Connection → Connection}
    (hlistener : ∀ c, (f c).listener = c.listener)
    (hclient : ∀ c, c.toClient = [] → (f c).toClient = [])
    : Silences server id
        (modify fun w => { w with connections := w.connections.modify other f }) := by
  intro w silent
  refine ⟨silent.taken, silent.ended, ?_⟩
  obtain ⟨old, hold, hserver, hnothing⟩ := silent.unanswered
  change ∃ c, (w.connections.modify other f).get? id = some c ∧ _
  rw [SortedMap.get?_modify, hold]
  split
  next => exact ⟨f old, rfl, (hlistener old).trans hserver, hclient old hnothing⟩
  next => exact ⟨old, rfl, hserver, hnothing⟩

theorem silences_setServer {other : Id} (hother : server ≠ other) (next : JobServer)
    : Silences server id (modify fun w => { w with servers := w.servers.insert other next }) := by
  intro w silent
  obtain ⟨s, hs, hended⟩ := silent.ended
  refine ⟨silent.taken, ⟨s, ?_, hended⟩, silent.unanswered⟩
  change (w.servers.insert other next).get? server = some s
  rw [SortedMap.get?_insert_eq, if_neg hother, hs]

theorem silences_connect? (port : UInt16) (client : Option Id)
    : Silences server id (connect? port client) := by
  intro w silent
  unfold connect?
  rw [run_get]
  split
  next => exact silent
  next listener _ =>
    have hother : id ≠ w.fresh := Nat.ne_of_lt silent.taken
    have hnew : Silent server id { w with fresh := w.fresh + 1 } :=
      ⟨Nat.lt_succ_of_lt silent.taken, silent.ended, silent.unanswered⟩
    have hset (next : Connection) : Silences server id (do
        setConnection w.fresh next
        return some w.fresh) :=
      (silences_setConnection hother next).bind fun _ => silences_pure _
    cases listener with
    | server other => exact hset _ _ hnew
    | peer reply close => exact hset _ _ hnew

theorem silences_sendToServer (other : Id) (bytes : Bytes)
    : Silences server id (sendToServer other bytes) := by
  intro w silent
  unfold sendToServer
  rw [run_get]
  split
  next => exact silent
  next c hc =>
    have hset : Silent server id
        ((setConnection other { c with session := c.session.receive bytes }).run w).2 :=
      silent_setConnection silent hc rfl fun h => h
    split
    next =>
      split
      next => exact silent
      next => exact (only_post _).silences rfl rfl _ hset
    next => exact hset

theorem silences_closeServerEnd (other : Id) : Silences server id (closeServerEnd other) := by
  intro w silent
  unfold closeServerEnd
  rw [run_get]
  split
  next => exact silent
  next c hc =>
    have hset : Silent server id ((setConnection other { c with serverClosed := true }).run w).2 :=
      silent_setConnection silent hc rfl fun h => h
    exact (only_tellClient c).silences rfl rfl _ hset

theorem silences_closeClientEnd (other : Id) : Silences server id (closeClientEnd other) :=
  Silences.bind (silences_modifyConnection (fun _ => rfl) fun _ h => h) fun _ =>
    (only_post _).silences rfl rfl

theorem silences_endSession (other : Id) : Silences server id (endSession other) :=
  Silences.bind (silences_modifyConnection (fun _ => rfl) fun _ h => h) fun _ =>
    silences_closeServerEnd other

theorem silences_sendToClient {other : Id} (hother : id ≠ other) (bytes : Bytes)
    : Silences server id (sendToClient other bytes) := by
  refine Frame.get_bind fun w => ?_
  split
  next => exact silences_pure ()
  next c _ =>
    split
    next => exact silences_pure ()
    next =>
      exact (silences_setConnection hother _).bind fun _ => (only_tellClient c).silences rfl rfl

theorem silences_answer {other : Id} (hother : id ≠ other) (frame : Bytes)
    : Silences server id (answer other frame) := by
  refine Frame.get_bind fun w => ?_
  split
  next => exact silences_pure ()
  next c _ =>
    split
    next => exact silences_endSession other
    next =>
      exact (silences_sendToClient hother frame).bind fun _ =>
        Silences.bind (silences_modifyConnection (fun _ => rfl) fun _ h => h) fun _ =>
          (only_post _).silences rfl rfl

/-!
The serving side.
-/

theorem Silent.ne_of_running {other otherServer : Id} {c : Connection} {s : JobServer}
    (silent : Silent server id w) (hc : w.connections.get? other = some c)
    (hlistener : c.listener = .server otherServer) (hs : w.servers.get? otherServer = some s)
    (hrunning : ¬s.ended = true) : server ≠ otherServer ∧ id ≠ other := by
  obtain ⟨_, hserver, hended⟩ := silent.ended
  have hne : server ≠ otherServer := by
    rintro rfl
    obtain rfl := Option.some.inj (hs.symm.trans hserver)
    exact hrunning hended
  refine ⟨hne, ?_⟩
  rintro rfl
  obtain ⟨_, hold, hours, -⟩ := silent.unanswered
  obtain rfl := Option.some.inj (hc.symm.trans hold)
  exact hne (Listener.server.inj (hours.symm.trans hlistener))

theorem silences_respond (other : Id) (frame : Bytes)
    : Silences server id (respond other frame) := by
  intro w silent
  unfold respond
  rw [run_get]
  split
  next => exact silent
  next c hc =>
    split
    next => exact silent
    next otherServer hlistener =>
      rw [run_get]
      split
      next => exact silent
      next s hs =>
        split
        next => exact silent
        next hrunning =>
          exact silences_answer (silent.ne_of_running hc hlistener hs hrunning).2 frame w silent

theorem silences_serve (other : Id) : Silences server id (serve other) := by
  intro w silent
  unfold serve
  rw [run_get]
  split
  next => exact silent
  next c hc =>
    split
    next => exact silent
    next otherServer hlistener =>
      rw [run_get]
      split
      next => exact silent
      next s hs =>
        split
        next => exact silent
        next hrunning =>
          obtain ⟨hserver, hother⟩ := silent.ne_of_running hc hlistener hs hrunning
          generalize c.session.read = read
          obtain ⟨session, demand⟩ := read
          refine (silences_setConnection hother _).bind (fun _ => ?_) w silent
          have hset (next : JobServer)
              : Silences server id
                  (modify fun w => { w with servers := w.servers.insert otherServer next }) :=
            silences_setServer hserver next
          split
          next =>
            split
            next => exact silences_endSession other
            next => exact silences_pure ()
          next request =>
            exact (hset _).bind fun _ =>
              ((only_newExecution _ _ _).silences rfl rfl).bind fun _ =>
                (only_poolPost _ _).silences rfl rfl
          next job =>
            exact ((only_cancelJob _ _).silences rfl rfl).bind fun _ =>
              silences_answer hother _
          next snapshot =>
            refine Frame.get_bind fun w => ?_
            split
            next => exact silences_pure ()
            next object _ =>
              refine ((only_searchCatalog _ _).silences rfl rfl).bind fun found => ?_
              split
              next => exact silences_answer hother _
              next =>
                exact (hset _).bind fun _ => (silences_closeServerEnd other).bind fun _ =>
                  (only_say _).silences rfl rfl
          next reason =>
            refine Frame.get_bind fun w => ?_
            exact ((only_say _).silences rfl rfl).bind fun _ =>
              (silences_sendToClient hother _).bind fun _ =>
                silences_closeServerEnd other

/-!
The asking side.
-/

theorem silences_setCall (call : Id) (object : CallObject)
    : Silences server id (modify fun w => { w with calls := w.calls.insert call object }) := by
  have honly : Only [.calls]
      (modify fun w => { w with calls := w.calls.insert call object } : ClusterM Unit) :=
    only_modify fun _ => ⟨Nat.le_refl _, rfl⟩
  exact honly.silences rfl rfl

theorem only_sayNoticeFailed (node : Text) (job : UInt64) (result : CallResult)
    : Only [.journal] (sayNoticeFailed node job result) := by
  unfold sayNoticeFailed
  split
  next => exact only_pure ()
  next => exact only_say _

theorem silences_resolveCall (call : Id) (result : CallResult)
    : Silences server id (resolveCall call result) := by
  refine Frame.get_bind fun w => ?_
  split
  next => exact silences_pure ()
  next object _ =>
    refine ((only_disarm? _).silences rfl rfl).bind fun _ => ?_
    dsimp only
    split
    case' h_2 connection _ => refine (silences_closeClientEnd connection).bind fun _ => ?_
    -- whether or not there was a connection to close, the same steps follow
    all_goals
      refine (silences_setCall _ _).bind fun _ => ?_
      split
      next => exact silences_pure ()
      next => exact (only_deliver _ _).silences rfl rfl
      next =>
        exact ((only_sayNoticeFailed _ _ _).silences rfl rfl).bind fun _ =>
          (only_post _).silences rfl rfl

theorem silences_callEvent (call : Id) (event : CallEvent)
    : Silences server id (callEvent call event) := by
  have hpost (task : Task) : Silences server id (post task) :=
    (only_post task).silences rfl rfl
  refine Frame.get_bind fun w => ?_
  split
  next => exact silences_pure ()
  next object _ =>
    generalize object.call.step event = stepped
    obtain ⟨next, result⟩ := stepped
    refine (silences_setCall _ _).bind fun _ => ?_
    split
    next => exact silences_resolveCall call _
    next =>
      split
      next => exact (silences_sendToServer _ _).bind fun _ => hpost _
      next => exact hpost _
      next => exact hpost _
      next => exact silences_pure ()

theorem silences_hear (call : Id) : Silences server id (hear call) := by
  intro w silent
  unfold hear
  rw [run_get]
  split
  next => exact silent
  next object _ =>
    split
    next wanted connection _ _ =>
      rw [run_get]
      split
      next => exact silent
      next c hc =>
        split
        next =>
          refine silences_callEvent call _ _ (silent_setConnection silent hc rfl ?_)
          intro hnothing
          rw [hnothing, List.drop_nil]
        next =>
          split
          next => exact silences_callEvent call _ w silent
          next => exact silent
    next => exact silent

theorem silences_startCall (call : Id) : Silences server id (startCall call) := by
  refine Frame.get_bind fun w => ?_
  split
  next => exact silences_pure ()
  next object _ =>
    exact ((only_arm _ _).silences rfl rfl).bind fun _ =>
      (silences_connect? _ _).bind fun _ => (silences_setCall _ _).bind fun _ =>
        (only_post _).silences rfl rfl

/-!
The whole cluster.
-/

theorem silences_runTask (task : Task) : Silences server id (runTask task) := by
  cases task with
  | arrive execution => exact (only_arrive execution).silences rfl rfl
  | wake execution => exact (only_wake execution).silences rfl rfl
  | collect execution => exact (only_collect execution).silences rfl rfl
  | armDeadline run => exact (only_armDeadline run).silences rfl rfl
  | releaseDeadline run => exact (only_releaseDeadline run).silences rfl rfl
  | deadline run => exact (only_deadline run).silences rfl rfl
  | notify coordinator job notices =>
    exact (only_notify coordinator job notices).silences rfl rfl
  | deliver handler result => exact (only_deliver handler result).silences rfl rfl
  | refuse pool node handler =>
    exact ((only_deliver handler _).silences rfl rfl).bind fun _ =>
      (only_poolDone pool).silences rfl rfl
  | armLocalCall dispatcher call delay =>
    exact (only_armLocalCall dispatcher call delay).silences rfl rfl
  | localEvent dispatcher call event =>
    exact (only_localEvent dispatcher call event).silences rfl rfl
  | hasten dispatcher calls => exact (only_hasten dispatcher calls).silences rfl rfl
  | startCall call => exact silences_startCall call
  | failCall call error => exact silences_resolveCall call _
  | callEvent call event => exact silences_callEvent call event
  | hear call => exact silences_hear call
  | serve connection => exact silences_serve connection
  | respond connection frame => exact silences_respond connection frame
  | receive gossip => exact (only_receive gossip).silences rfl rfl
  | tick gossip => exact (only_tick gossip).silences rfl rfl

theorem Silent.runFor (silent : Silent server id w) (steps : Nat) (goal : Cluster → Bool)
    (limit : Option Nat) : Silent server id ((Cluster.runFor steps goal limit).run w).2 :=
  (frame_silent server id).runFor silences_runTask (only_nextTask?.silences rfl rfl)
    (fun limit => (only_jump? limit).silences rfl rfl) steps goal limit w silent

end Cluster

end SnapshotAudit
