import SnapshotAudit.Cluster.Servers
import SnapshotAudit.Proofs.Cluster.Frames
import SnapshotAudit.Proofs.Job.Dispatch
import SnapshotAudit.Proofs.Ordered.Map
import SnapshotAudit.Proofs.Service.Sharing
import SnapshotAudit.Proofs.Service.Steps

/-!
This module contains that a server whose loop runs answers whatever it is asked, once its node has
nothing else in hand.
-/

namespace SnapshotAudit

def Cluster.ServiceObject.host (object : ServiceObject) (files : FileTree) : Host where
  execute request :=
    if object.state.cancelledEarly.contains request.job then
      object.state.cancelledOutcome request.job "before it started"
    else (object.inspector.inspect files request fun _ => false).1.outcome
  cancel job := (object.state.cancel job).2
  describe snapshot := object.catalog.find files snapshot

theorem Session.read_frame {request : JobRequest}
    (h : request.body.length ≤ FrameHeader.maximumLength.toNat)
    : (Session.start.receive request.frame).read = (⟨[], .answering⟩, some request.demand) := by
  obtain ⟨header, announces, hframe⟩ := FrameHeader.exists_announces request.type h
  have hstart : Session.start.receive request.frame = ⟨header.encode ++ request.body, .header⟩ := by
    rw [← hframe]
    rfl
  rw [hstart, Session.read_of_header announces.accepted, Session.readBody_of_whole announces,
    Session.raise_of_announces announces h]

namespace VerifyService

def granted (service : VerifyService) (request : VerifyRequest) : VerifyService :=
  ((service.recorded request.job).opened request).attach request.job service.started

theorem arrive_of_free {service : VerifyService} {request : VerifyRequest}
    (unknown : service.cancelledEarly.contains request.job = false)
    (free : service.running.get? request.snapshot = none)
    : service.arrive request = (service.granted request, .owns service.started) := by
  have hrecorded :=
    (service.contains_pending_recorded request.job request.job).mpr (.inl rfl)
  rw [arrive_of_unknown unknown, advance_of_free hrecorded free]
  rfl

variable (service : VerifyService) (request : VerifyRequest)

theorem known_granted : ((service.granted request).known service.started).isSome = true := by
  simp [granted, known_attach, known_opened, recorded]

theorem stopped_granted : (service.granted request).stopped service.started = false := by
  apply Bool.eq_false_iff.mpr
  intro hstopped
  have hopened : (((service.recorded request.job).opened request).inspections.get?
      service.started).isSome = true := by
    change (((SortedMap.insert _ service.started _).get? service.started).isSome) = true
    rw [SortedMap.get?_insert_self]
    rfl
  exact stopped_iff.mp hstopped request.job
    ((isAttached_attach hopened request.job _ _).mpr (.inl ⟨rfl, rfl⟩))

theorem pending_granted : (service.granted request).pending.contains request.job = true := by
  rw [granted, SortedMap.contains, get?_pending_attach, if_pos rfl]
  rfl

end VerifyService

namespace Cluster

variable {w : Cluster} {server id : Id} {s : JobServer} {c : Connection} {frame : Bytes}
  {reply : Bytes} {request : JobRequest}

/-!
The schedule.
-/

def after (steps : Nat) (w : Cluster) : Cluster :=
  ((runFor steps (fun _ => false) none).run w).2

def Receives (id : Id) (reply : Bytes) (w : Cluster) : Prop :=
  ∃ steps c, (after steps w).connections.get? id = some c ∧ c.toClient = reply

theorem receives_of_task {task : Task} {rest : List Task} (htasks : w.tasks = task :: rest)
    (h : Receives id reply ((runTask task).run { w with tasks := rest }).2)
    : Receives id reply w := by
  obtain ⟨steps, c, hc, hreply⟩ := h
  refine ⟨steps + 1, c, ?_, hreply⟩
  have hnext : nextTask?.run w = (some task, { w with tasks := rest }) := by
    simp only [nextTask?, StateT.run, modifyGet, MonadStateOf.modifyGet, StateT.modifyGet, htasks]
    rfl
  rw [← hc, after, runFor, run_bind hnext]
  rfl

/-!
Answers.
-/

structure Awaits (server id : Id) (w : Cluster) : Prop where
  running : ∃ s, w.servers.get? server = some s ∧ s.ended = false
  connected : ∃ c, w.connections.get? id = some c ∧ c.listener = .server server ∧
    c.clientClosed = false ∧ c.toClient = []

theorem Only.awaits {α : Type} {parts : List Part} {act : ClusterM α} (h : Only parts act)
    (hservers : parts.contains .servers = false)
    (hconnections : parts.contains .connections = false) (awaits : Awaits server id w)
    : Awaits server id (act.run w).2 :=
  ⟨h.servers_eq hservers w ▸ awaits.running, h.connections_eq hconnections w ▸ awaits.connected⟩

theorem connections_sendToClient (hc : w.connections.get? id = some c)
    (hopen : c.clientClosed = false) (bytes : Bytes)
    : ((sendToClient id bytes).run w).2.connections =
        w.connections.insert id { c with toClient := c.toClient ++ bytes } := by
  rw [sendToClient, run_get, hc]
  dsimp only
  rw [if_neg (by simp [hopen])]
  exact (only_tellClient c).connections_eq rfl _

theorem receives_of_answer (awaits : Awaits server id w) (frame : Bytes)
    : Receives id frame ((answer id frame).run w).2 := by
  obtain ⟨c, hc, -, hopen, hnothing⟩ := awaits.connected
  have hsent := connections_sendToClient hc hopen frame
  rw [answer, run_get, hc]
  dsimp only
  rw [if_neg (by simp [hopen])]
  refine ⟨0, { c with session := c.session.answered, toClient := c.toClient ++ frame }, ?_, ?_⟩
  . change (((sendToClient id frame).run w).2.connections.modify id _).get? id = _
    rw [hsent, SortedMap.get?_modify, SortedMap.get?_insert_self, if_pos rfl]
    rfl
  . simp [hnothing]

/-!
Jobs.
-/

theorem run_sayAll (entries : List Text) (w : Cluster)
    : (sayAll entries).run w = ((), { w with journal := entries.reverse ++ w.journal }) := by
  induction entries generalizing w with
  | nil => rfl
  | cons entry rest ih =>
    have hfirst : (sayAll (entry :: rest)).run w = (sayAll rest).run ((say entry).run w).2 := rfl
    rw [hfirst, ih, List.reverse_cons, List.append_assoc]
    rfl

theorem run_setService (service : Id) (object : ServiceObject) (w : Cluster)
    : (setService service object).run w =
        ((), { w with services := w.services.insert service object }) :=
  rfl

section Loop

variable {α : Type} {list : List α} {body : α → Unit → ClusterM (ForInStep Unit)}

theorem run_forIn_of_idle (h : ∀ a ∈ list, ∀ w, (body a ()).run w = (.yield (), w)) (w : Cluster)
    : (forIn list () body).run w = ((), w) := by
  induction list with
  | nil => rfl
  | cons first rest ih =>
    rw [List.forIn_cons, run_bind (h first List.mem_cons_self w)]
    exact ih fun a ha => h a (List.mem_cons_of_mem first ha)

theorem run_forIn_of_single {a : α} {f : Cluster → Cluster} (ha : a ∈ list) (nodup : list.Nodup)
    (hf : ∀ w, (body a ()).run w = (.yield (), f w))
    (hidle : ∀ b ∈ list, b ≠ a → ∀ w, (body b ()).run w = (.yield (), w)) (w : Cluster)
    : (forIn list () body).run w = ((), f w) := by
  induction list with
  | nil => cases ha
  | cons first rest ih =>
    obtain ⟨hnew, hrest⟩ := List.nodup_cons.mp nodup
    rw [List.forIn_cons]
    cases List.mem_cons.mp ha with
    | inl heq =>
      subst heq
      rw [run_bind (hf w)]
      refine run_forIn_of_idle (fun b hb => ?_) (f w)
      exact hidle b (List.mem_cons_of_mem a hb) fun heq => hnew (heq ▸ hb)
    | inr hmem =>
      have hfirst : first ≠ a := fun heq => hnew (heq ▸ hmem)
      rw [run_bind (hidle first List.mem_cons_self hfirst w)]
      exact ih hmem hrest fun b hb => hidle b (List.mem_cons_of_mem first hb)

end Loop

theorem mem_executionsOf {service e : Id} {execution : Execution}
    : (e, execution) ∈ executionsOf w service ↔
        w.executions.get? e = some execution ∧ execution.service = service := by
  rw [executionsOf, List.mem_filter, SortedMap.mem_entries]
  simp

def Alone (e service : Id) (w : Cluster) : Prop :=
  ∀ other execution, w.executions.get? other = some execution → execution.service = service →
    other ≠ e → ∃ outcome, execution.phase = .finished outcome

theorem run_collectAttached {e : Id} {execution : Execution} {inspection : InspectionId}
    (alone : Alone e execution.service w) (he : w.executions.get? e = some execution)
    (hphase : execution.phase = .attached inspection)
    : (collectAttached execution.service inspection).run w =
        ((), { w with tasks := w.tasks ++ [.collect e] }) := by
  have hnodup : (executionsOf w execution.service).Nodup :=
    w.executions.entries_nodup.filter _
  rw [collectAttached, run_get, run_bind (run_forIn_of_single
    (f := fun w => { w with tasks := w.tasks ++ [.collect e] })
    (mem_executionsOf.mpr ⟨he, rfl⟩) hnodup ?_ ?_ w)]
  . rfl
  . intro w
    simp only [hphase]
    rfl
  . rintro ⟨other, finished⟩ hother hne w
    obtain ⟨hget, hservice⟩ := mem_executionsOf.mp hother
    have hid : other ≠ e := by
      rintro rfl
      exact hne (Prod.ext rfl (Option.some.inj (hget.symm.trans he)))
    obtain ⟨outcome, hfinished⟩ := alone other finished hget hservice hid
    simp only [hfinished]
    rfl

theorem run_wakeWaiting {e : Id} {execution : Execution} {inspection : InspectionId}
    (alone : Alone e execution.service w) (he : w.executions.get? e = some execution)
    (hphase : execution.phase = .attached inspection)
    : (wakeWaiting execution.service).run w = ((), w) := by
  rw [wakeWaiting, run_get, run_bind (run_forIn_of_idle ?_ w)]
  . rfl
  . rintro ⟨other, job⟩ hother w
    obtain ⟨hget, hservice⟩ := mem_executionsOf.mp hother
    by_cases hid : other = e
    . subst hid
      obtain rfl := Option.some.inj (hget.symm.trans he)
      simp only [hphase]
      rfl
    . obtain ⟨outcome, hfinished⟩ := alone other job hget hservice hid
      simp only [hfinished]
      rfl

theorem receives_of_respond {rest : List Task} (awaits : Awaits server id w)
    (htasks : w.tasks = .respond id frame :: rest) : Receives id frame w := by
  apply receives_of_task htasks
  obtain ⟨c, hc, hlistener, -⟩ := awaits.connected
  obtain ⟨s, hs, hrunning⟩ := awaits.running
  change Receives id _ ((respond id frame).run { w with tasks := rest }).2
  rw [respond, run_get, hc]
  simp only [hlistener]
  rw [run_get, hs]
  dsimp only
  rw [if_neg (by simp [hrunning])]
  exact receives_of_answer (w := { w with tasks := rest })
    ⟨⟨s, hs, hrunning⟩, awaits.connected⟩ frame

theorem tasks_poolDone (pool : Id) (w : Cluster)
    : ∃ more, ((poolDone pool).run w).2.tasks = w.tasks ++ more := by
  rw [poolDone, run_get]
  split
  next => exact ⟨[], (List.append_nil _).symm⟩
  next p _ =>
    rw [staff]
    split
    next => exact ⟨[], (List.append_nil _).symm⟩
    next task _ _ => exact ⟨[task], rfl⟩

theorem receives_of_finish {e pool : Id} {execution : Execution} (awaits : Awaits server id w)
    (htasks : w.tasks = []) (hcontinuation : execution.continuation = .respond id pool)
    (outcome : NodeOutcome)
    : Receives id (Demand.verifyReply outcome) ((finishExecution e execution outcome).run w).2 := by
  have hkept := (only_finishExecution e execution outcome).awaits rfl rfl awaits
  rw [finishExecution, StateT.run_bind] at hkept ⊢
  simp only [hcontinuation] at hkept ⊢
  obtain ⟨more, hmore⟩ := tasks_poolDone pool
    ((post (.respond id (Demand.verifyReply outcome))).run
      ((setPhase e (.finished outcome)).run w).2).2
  have hfirst : ((setPhase e (.finished outcome)).run w).2.tasks = [] := htasks
  exact receives_of_respond hkept
    (hmore.trans (congrArg (fun tasks => tasks ++ [_] ++ more) hfirst))

/--
A job that came over a connection. All others of its service are over, and nothing is ready to run.
-/
structure Underway (server id e : Id) (execution : Execution) (object : ServiceObject)
    (w : Cluster) : Prop extends Awaits server id w where
  tasks : w.tasks = []
  job : w.executions.get? e = some execution
  continuation : ∃ pool, execution.continuation = .respond id pool
  service : w.services.get? execution.service = some object
  alone : Alone e execution.service w

section Underway

variable {e : Id} {execution : Execution} {object : ServiceObject} {inspection : InspectionId}
  {result : NodeOutcome}

theorem receives_of_collect (underway : Underway server id e execution object w)
    (hphase : execution.phase = .attached inspection)
    (hresult :
      (object.state.inspections.get? inspection).bind SharedInspection.result = some result)
    (hpending : object.state.pending.contains execution.request.job = true)
    : Receives id (Demand.verifyReply result) ((collect e).run w).2 := by
  obtain ⟨pool, hcontinuation⟩ := underway.continuation
  rw [collect, run_get, underway.job]
  dsimp only
  rw [run_get, hphase, underway.service]
  dsimp only
  rw [hresult]
  simp only [VerifyService.leave, hpending, if_true]
  exact receives_of_finish ((only_setService _ _).awaits rfl rfl underway.toAwaits) underway.tasks
    hcontinuation result

theorem receives_of_publish (underway : Underway server id e execution object w)
    (hphase : execution.phase = .attached inspection)
    (hresult :
      (object.state.inspections.get? inspection).bind SharedInspection.result = some result)
    (hpending : object.state.pending.contains execution.request.job = true)
    : Receives id (Demand.verifyReply result)
        ((do
          collectAttached execution.service inspection
          wakeWaiting execution.service : ClusterM Unit).run w).2 := by
  rw [run_bind (run_collectAttached underway.alone underway.job hphase), underway.tasks,
    List.nil_append]
  rw [run_wakeWaiting (w := { w with tasks := [.collect e] }) underway.alone underway.job hphase]
  refine receives_of_task rfl ?_
  exact receives_of_collect (w := { w with tasks := [] }) { underway with tasks := rfl } hphase
    hresult hpending

theorem receives_of_runInspection (underway : Underway server id e execution object w)
    (hknown : (object.state.known inspection).isSome = true)
    (hgoes : object.state.stopped inspection = false)
    (hpending : object.state.pending.contains execution.request.job = true)
    (houtcome :
      (object.inspector.inspect w.files execution.request fun _ => false).1.outcome = result)
    : Receives id (Demand.verifyReply result)
        ((runInspection e execution inspection).run w).2 := by
  subst houtcome
  rw [runInspection, run_get, underway.service]
  dsimp only
  rw [run_get, hgoes]
  generalize object.inspector.inspect w.files execution.request _ = inspected
  obtain ⟨inspected, log⟩ := inspected
  dsimp only
  rw [run_bind (run_sayAll log w)]
  have published : Underway server id e { execution with phase := .attached inspection }
      { object with state := object.state.finish inspection inspected.outcome }
      { w with
        journal := log.reverse ++ w.journal
        services := w.services.insert execution.service
          { object with state := object.state.finish inspection inspected.outcome }
        executions := w.executions.modify e fun execution =>
          { execution with phase := .attached inspection } } := by
    refine { underway with service := SortedMap.get?_insert_self .., job := ?_, alone := ?_ }
    . change (w.executions.modify e _).get? e = _
      rw [SortedMap.get?_modify, if_pos rfl, underway.job]
      rfl
    . intro other finished hother hservice hne
      change (w.executions.modify e _).get? other = _ at hother
      rw [SortedMap.get?_modify, if_neg hne] at hother
      exact underway.alone other finished hother hservice hne
  have hkept : (object.state.finish inspection inspected.outcome).pending.contains
      execution.request.job = true := by
    rwa [VerifyService.finish, VerifyService.publish, VerifyService.pending_release]
  have hreceives :=
    receives_of_publish published rfl (VerifyService.result_finish hknown inspected.outcome) hkept
  exact hreceives

theorem receives_of_arrive (underway : Underway server id e execution object w)
    (ungated : object.gated = false)
    (free : object.state.running.get? execution.request.snapshot = none)
    (houtcome : (object.host w.files).execute execution.request = result)
    : Receives id (Demand.verifyReply result) ((arrive e).run w).2 := by
  subst houtcome
  rw [arrive, run_get, underway.job]
  dsimp only
  rw [run_get, underway.service]
  dsimp only [ServiceObject.host]
  split
  next hearly =>
    obtain ⟨pool, hcontinuation⟩ := underway.continuation
    rw [VerifyService.arrive_of_early hearly, settle, run_bind (run_setService ..),
      run_bind (run_sayAll ..)]
    refine receives_of_finish (?_ : Awaits server id _) ?_ hcontinuation _
    . exact ⟨underway.running, underway.connected⟩
    . exact underway.tasks
  next hearly =>
    rw [VerifyService.arrive_of_free (Bool.eq_false_iff.mpr hearly) free, settle,
      run_bind (run_setService ..), run_bind (run_sayAll ..)]
    dsimp only
    rw [if_neg (by simp [ungated])]
    have settled (journal : List Text) : Underway server id e execution
        { object with state := object.state.granted execution.request }
        { w with
          journal
          services := w.services.insert execution.service
            { object with state := object.state.granted execution.request } } :=
      { underway with service := SortedMap.get?_insert_self .. }
    exact receives_of_runInspection (settled _) (object.state.known_granted execution.request)
      (object.state.stopped_granted execution.request)
      (object.state.pending_granted execution.request) rfl

end Underway

/-!
Requests.
-/

/--
A node has nothing else in hand than what it is asked over a connection of a server.
-/
structure AtRest (s : JobServer) (object : ServiceObject) (w : Cluster) : Prop where
  tasks : w.tasks = []
  service : w.services.get? s.service = some object
  ungated : object.gated = false
  idle : ∀ snapshot, object.state.running.get? snapshot = none
  staffed : ∃ p, w.pools.get? s.pool = some p ∧ 0 < p.free ∧ p.waiting = []
  jobs : ∀ e execution, w.executions.get? e = some execution → execution.service = s.service →
    ∃ outcome, execution.phase = .finished outcome

theorem run_poolPost {pool : Id} {p : Pool Task} (hp : w.pools.get? pool = some p)
    (hfree : 0 < p.free) (hwaiting : p.waiting = []) (task : Task)
    : (poolPost pool task).run w =
        ((), { w with
          pools := w.pools.insert pool { p with free := p.free - 1 }
          tasks := w.tasks ++ [task] }) := by
  have htake : (p.post task).takeUp? = some (task, { p with free := p.free - 1 }) := by
    simp [Pool.post, Pool.takeUp?, hwaiting, Nat.ne_of_gt hfree]
  rw [poolPost, run_get, hp]
  dsimp only
  rw [staff, htake]
  rfl

theorem run_newExecution (service : Id) (request : VerifyRequest) (continuation : Continuation)
    (w : Cluster)
    : (newExecution service request continuation).run w =
        (w.fresh, { w with
          fresh := w.fresh + 1
          executions := w.executions.insert w.fresh
            ⟨service, request, .coming, continuation⟩ }) :=
  rfl

theorem receives_of_verify {object : ServiceObject} (awaits : Awaits server id w)
    (rest : AtRest s object w) (request : VerifyRequest)
    : Receives id (Demand.verifyReply ((object.host w.files).execute request))
        ((do
          let execution ← newExecution s.service request (.respond id s.pool)
          poolPost s.pool (.arrive execution) : ClusterM Unit).run w).2 := by
  obtain ⟨p, hp, hfree, hwaiting⟩ := rest.staffed
  rw [run_bind (run_newExecution ..), run_poolPost ?_ hfree hwaiting]
  . refine receives_of_task (congrArg (· ++ [_]) rest.tasks) ?_
    have underway (pools : Table (Pool Task)) : Underway server id w.fresh
        ⟨s.service, request, .coming, .respond id s.pool⟩ object
        { w with
          fresh := w.fresh + 1
          tasks := []
          pools
          executions := w.executions.insert w.fresh
            ⟨s.service, request, .coming, .respond id s.pool⟩ } := by
      refine ⟨⟨awaits.running, awaits.connected⟩, rfl, SortedMap.get?_insert_self .., ⟨_, rfl⟩,
        rest.service, ?_⟩
      intro other execution hother hservice hne
      change (w.executions.insert w.fresh _).get? other = _ at hother
      rw [SortedMap.get?_insert_eq, if_neg hne] at hother
      exact rest.jobs other execution hother hservice
    exact receives_of_arrive (underway _) rest.ungated (rest.idle _) rfl
  . exact hp

theorem run_setConnection (id : Id) (c : Connection) (w : Cluster)
    : (setConnection id c).run w = ((), { w with connections := w.connections.insert id c }) :=
  rfl

theorem run_searchCatalog (catalog : Catalog) (snapshot : Text) (w : Cluster)
    : (searchCatalog catalog snapshot).run w =
        (catalog.find w.files snapshot, ((searchCatalog catalog snapshot).run w).2) :=
  rfl

theorem run_cancelJob {service : Id} {object : ServiceObject}
    (hservice : w.services.get? service = some object) (job : UInt64)
    : (cancelJob service job).run w =
        ((object.state.cancel job).2, ((cancelJob service job).run w).2) := by
  refine Prod.ext ?_ rfl
  rw [cancelJob, run_get, hservice]
  dsimp only
  rw [run_bind (run_setService ..)]
  split <;> rfl

theorem receives_of_serve {object : ServiceObject} {client : Option Id} {session : Session}
    {closed : Bool} (hs : w.servers.get? server = some s) (hrunning : s.ended = false)
    (hc : w.connections.get? id = some ⟨.server server, client, session, [], false, closed⟩)
    (hread : session.read = (⟨[], .answering⟩, some request.demand)) (rest : AtRest s object w)
    (hreply : (object.host w.files).reply? request.demand = some reply)
    : Receives id reply ((serve id).run w).2 := by
  let reading : Connection := ⟨.server server, client, ⟨[], .answering⟩, [], false, closed⟩
  have awaits : Awaits server id { w with connections := w.connections.insert id reading } :=
    ⟨⟨s, hs, hrunning⟩, _, SortedMap.get?_insert_self .., rfl, rfl, rfl⟩
  rw [serve, run_get, hc]
  dsimp only
  rw [run_get, hs]
  simp only [hrunning, hread, Bool.false_eq_true, if_false]
  rw [run_bind (run_setConnection id reading w)]
  cases request with
  | execute request =>
    obtain rfl := Option.some.inj hreply
    refine receives_of_verify (?_ : Awaits server id _) (?_ : AtRest s object _) request
    . exact ⟨⟨_, SortedMap.get?_insert_self .., rfl⟩, awaits.connected⟩
    . exact ⟨rest.tasks, rest.service, rest.ungated, rest.idle, rest.staffed, rest.jobs⟩
  | cancel job =>
    obtain rfl := Option.some.inj hreply
    have hcancelled := (only_cancelJob s.service job).awaits rfl rfl awaits
    dsimp only [JobRequest.demand]
    rw [run_bind (run_cancelJob (w := { w with connections := w.connections.insert id reading })
      rest.service job)]
    exact receives_of_answer hcancelled _
  | describe snapshot =>
    have hsearched := (only_searchCatalog object.catalog snapshot).awaits rfl rfl awaits
    dsimp only [JobRequest.demand]
    rw [run_get, rest.service]
    dsimp only
    rw [run_bind (run_searchCatalog ..)]
    cases hfound : object.catalog.find w.files snapshot with
    | error fault => simp [JobRequest.demand, Host.reply?, ServiceObject.host, hfound] at hreply
    | ok desc =>
      obtain rfl : Demand.describeReply desc = reply := by
        simpa [JobRequest.demand, Host.reply?, ServiceObject.host, hfound] using hreply
      exact receives_of_answer hsearched _

/-!
Clients.
-/

def ask (port : UInt16) (request : JobRequest) : ClusterM (Option Id) := do
  match ← connect? port none with
  | none => return none
  | some connection =>
    sendToServer connection request.frame
    return some connection

theorem run_ask {port : UInt16} (hport : w.listeners.get? port = some (.server server))
    (request : JobRequest)
    : (ask port request).run w =
        (some w.fresh, { w with
          fresh := w.fresh + 1
          connections := (w.connections.insert w.fresh
            ⟨.server server, none, .start, [], false, false⟩).insert w.fresh
              ⟨.server server, none, Session.start.receive request.frame, [], false, false⟩
          tasks := w.tasks ++ [.serve w.fresh] }) := by
  have hconnect : (connect? port none).run w =
      (some w.fresh, { w with
        fresh := w.fresh + 1
        connections := w.connections.insert w.fresh
          ⟨.server server, none, .start, [], false, false⟩ }) := by
    rw [connect?, run_get, hport]
    rfl
  rw [ask, run_bind hconnect]
  dsimp only
  rw [sendToServer, bind_assoc, run_get]
  dsimp only
  rw [SortedMap.get?_insert_self]
  rfl

def Replies (server : Id) (port : UInt16) (request : JobRequest) (reply : Bytes) (w : Cluster)
    : Prop :=
  w.listeners.get? port = some (.server server) ∧
    ∃ connection, ((ask port request).run w).1 = some connection ∧
      Receives connection reply ((ask port request).run w).2

/--
As long as its loop runs, a server that has a port replies to whoever asks for something, once its
node has nothing else in hand. A search that stops with a fault ends the loop instead.
-/
theorem replies_of_running {port : UInt16} {object : ServiceObject}
    (hport : w.listeners.get? port = some (.server server))
    (hs : w.servers.get? server = some s) (hrunning : s.ended = false) (rest : AtRest s object w)
    (h : request.body.length ≤ FrameHeader.maximumLength.toNat)
    (hreply : (object.host w.files).reply? request.demand = some reply)
    : Replies server port request reply w := by
  refine ⟨hport, w.fresh, ?_, ?_⟩
  . rw [run_ask hport]
  . rw [run_ask hport]
    refine receives_of_task (congrArg (· ++ [_]) rest.tasks) ?_
    refine receives_of_serve hs hrunning (SortedMap.get?_insert_self ..) (Session.read_frame h) ?_
      hreply
    exact ⟨rfl, rest.service, rest.ungated, rest.idle, rest.staffed, rest.jobs⟩

end Cluster

end SnapshotAudit
