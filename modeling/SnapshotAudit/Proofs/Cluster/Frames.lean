import SnapshotAudit.Cluster.Dispatching

/-!
This module contains what the steps of a cluster leave alone. A step is known by the parts of the
cluster that it may change, so that whatever is said about the other parts goes on to hold.
-/

namespace SnapshotAudit

namespace Cluster

variable {α β : Type}

/-!
Relations between a cluster before and after a step.
-/

/--
A relation that holds over a number of steps when it holds over each of them.
-/
structure Frame (R : Cluster → Cluster → Prop) : Prop where
  refl : ∀ w, R w w
  trans : ∀ u v w, R u v → R v w → R u w

def Within (R : Cluster → Cluster → Prop) (act : ClusterM α) : Prop :=
  ∀ w, R w (act.run w).2

theorem run_get (next : Cluster → ClusterM β) (w : Cluster)
    : ((get : ClusterM Cluster) >>= next).run w = (next w).run w :=
  rfl

theorem run_bind {act : ClusterM α} {next : α → ClusterM β} {a : α} {v w : Cluster}
    (h : act.run v = (a, w)) : (act >>= next).run v = (next a).run w := by
  rw [StateT.run_bind, h]
  rfl

theorem frame_of_invariant (P : Cluster → Prop) : Frame fun v w => P v → P w where
  refl _ h := h
  trans _ _ _ first second h := second (first h)

namespace Frame

variable {R : Cluster → Cluster → Prop} (frame : Frame R)

include frame

theorem pure (a : α) : Within R (Pure.pure a : ClusterM α) :=
  frame.refl

omit frame in
theorem get_bind {next : Cluster → ClusterM β} (h : ∀ w, Within R (next w))
    : Within R ((get : ClusterM Cluster) >>= next) :=
  fun w => h w w

theorem bind {act : ClusterM α} {next : α → ClusterM β} (h : Within R act)
    (hnext : ∀ a, Within R (next a)) : Within R (act >>= next) :=
  fun w => frame.trans _ _ _ (h w) (hnext _ _)

omit frame in
theorem discard {act : ClusterM α} (h : Within R act) : Within R (Functor.discard act) :=
  h

omit frame in
theorem ite {p : Prop} [Decidable p] {act rest : ClusterM α} (hrest : Within R rest)
    (hact : Within R rest → Within R act) : Within R (if p then act else rest) := by
  split
  next => exact hact hrest
  next => exact hrest

theorem forIn (list : List α) (init : β) {body : α → β → ClusterM (ForInStep β)}
    (h : ∀ a b, Within R (body a b)) : Within R (ForIn.forIn list init body) := by
  induction list generalizing init with
  | nil => exact frame.pure init
  | cons first rest ih =>
    rw [List.forIn_cons]
    apply frame.bind (h first init)
    intro step
    cases step with
    | done b => exact frame.pure b
    | yield b => exact ih b

theorem forM (list : List α) {body : α → ClusterM Unit} (h : ∀ a, Within R (body a))
    : Within R (list.forM body) := by
  induction list with
  | nil => exact frame.pure ()
  | cons first rest ih => exact frame.bind (h first) fun _ => ih

end Frame

/-!
The parts of a cluster.
-/

inductive Part where
  | clock
  | tasks
  | timers
  | files
  | pools
  | services
  | executions
  | dispatchers
  | results
  | calls
  | coordinators
  | runs
  | servers
  | listeners
  | connections
  | gossips
  | udp
  | nodes
  | readers
  | names
  | journal
deriving DecidableEq

def clear (parts : List Part) (w : Cluster) : Cluster where
  fresh := 0
  now := if parts.contains .clock then 0 else w.now
  tasks := if parts.contains .tasks then [] else w.tasks
  timers := if parts.contains .timers then [] else w.timers
  files := if parts.contains .files then .empty else w.files
  pools := if parts.contains .pools then .empty else w.pools
  services := if parts.contains .services then .empty else w.services
  executions := if parts.contains .executions then .empty else w.executions
  dispatchers := if parts.contains .dispatchers then .empty else w.dispatchers
  results := if parts.contains .results then .empty else w.results
  calls := if parts.contains .calls then .empty else w.calls
  coordinators := if parts.contains .coordinators then .empty else w.coordinators
  runs := if parts.contains .runs then .empty else w.runs
  servers := if parts.contains .servers then .empty else w.servers
  listeners := if parts.contains .listeners then .empty else w.listeners
  connections := if parts.contains .connections then .empty else w.connections
  gossips := if parts.contains .gossips then .empty else w.gossips
  udp := if parts.contains .udp then .empty else w.udp
  nodes := if parts.contains .nodes then .empty else w.nodes
  readers := if parts.contains .readers then .empty else w.readers
  names := if parts.contains .names then .empty else w.names
  journal := if parts.contains .journal then [] else w.journal

/--
Nothing but the given parts has changed. Identities may have been taken, and none was given back.
-/
structure Leaves (parts : List Part) (v w : Cluster) : Prop where
  fresh : v.fresh ≤ w.fresh
  same : clear parts w = clear parts v

abbrev Only (parts : List Part) (act : ClusterM α) : Prop :=
  Within (Leaves parts) act

theorem frame_leaves (parts : List Part) : Frame (Leaves parts) where
  refl _ := ⟨Nat.le_refl _, rfl⟩
  trans _ _ _ h h' := ⟨Nat.le_trans h.fresh h'.fresh, h'.same.trans h.same⟩

variable {parts fewer : List Part} {act : ClusterM α}

theorem clear_clear (h : fewer.all parts.contains = true) (w : Cluster)
    : clear parts (clear fewer w) = clear parts w := by
  have hkeep (β : Type) (part : Part) (nothing content : β)
      : (if parts.contains part then nothing
          else if fewer.contains part then nothing else content) =
        if parts.contains part then nothing else content := by
    split
    next => rfl
    next hpart =>
      refine if_neg fun hfewer => hpart ?_
      exact List.all_eq_true.mp h part (List.contains_iff_mem.mp hfewer)
  simp only [clear, hkeep]

theorem Only.mono (h : Only fewer act) (hfewer : fewer.all parts.contains = true)
    : Only parts act := by
  intro w
  refine ⟨(h w).fresh, ?_⟩
  rw [← clear_clear hfewer, (h w).same, clear_clear hfewer]

theorem Only.bind {next : α → ClusterM β} (h : Only fewer act)
    (hfewer : fewer.all parts.contains = true) (hnext : ∀ a, Only parts (next a))
    : Only parts (act >>= next) :=
  (frame_leaves parts).bind (h.mono hfewer) hnext

theorem Only.servers_eq (h : Only parts act) (hparts : parts.contains .servers = false)
    (w : Cluster) : (act.run w).2.servers = w.servers := by
  simpa only [clear, hparts, Bool.false_eq_true, if_false] using
    congrArg Cluster.servers (h w).same

theorem Only.connections_eq (h : Only parts act) (hparts : parts.contains .connections = false)
    (w : Cluster) : (act.run w).2.connections = w.connections := by
  simpa only [clear, hparts, Bool.false_eq_true, if_false] using
    congrArg Cluster.connections (h w).same

theorem only_modify {f : Cluster → Cluster} (h : ∀ w, Leaves parts w (f w))
    : Only parts (modify f : ClusterM Unit) :=
  h

theorem only_modify_bind {f : Cluster → Cluster} {next : Unit → ClusterM β}
    (h : ∀ w, Leaves parts w (f w)) (hnext : ∀ u, Only parts (next u))
    : Only parts (modify f >>= next) :=
  (frame_leaves parts).bind h hnext

theorem only_pure (a : α) : Only parts (pure a : ClusterM α) :=
  (frame_leaves parts).pure a

theorem only_get {next : Cluster → ClusterM β} (h : ∀ w, Only parts (next w))
    : Only parts (get >>= next) :=
  Frame.get_bind h

theorem only_forIn (list : List α) (init : β) {body : α → β → ClusterM (ForInStep β)}
    (h : ∀ a b, Only parts (body a b)) : Only parts (forIn list init body) :=
  (frame_leaves parts).forIn list init h

/-!
The log and the schedule.
-/

theorem only_say (entry : Text) : Only [.journal] (say entry) :=
  only_modify fun _ => ⟨Nat.le_refl _, rfl⟩

theorem only_sayAll (entries : List Text) : Only [.journal] (sayAll entries) :=
  (frame_leaves _).forM entries only_say

theorem only_newId : Only [] newId := by
  intro w
  exact ⟨Nat.le_succ _, rfl⟩

theorem only_post (task : Task) : Only [.tasks] (post task) :=
  only_modify fun _ => ⟨Nat.le_refl _, rfl⟩

theorem only_arm (delay : Nat) (task : Task) : Only [.tasks, .timers] (arm delay task) := by
  refine only_newId.bind rfl fun id => ?_
  dsimp only
  split
  . exact (only_post task).bind rfl fun _ => only_pure id
  . exact only_modify_bind (fun _ => ⟨Nat.le_refl _, rfl⟩) fun _ => only_pure id

theorem only_disarm (id : Id) : Only [.timers] (disarm id) :=
  only_modify fun _ => ⟨Nat.le_refl _, rfl⟩

theorem only_disarm? (id : Option Id) : Only [.timers] (disarm? id) := by
  cases id with
  | none => exact only_pure ()
  | some id => exact only_disarm id

theorem only_staff (pool : Id) (p : Pool Task) : Only [.pools, .tasks] (staff pool p) := by
  unfold staff
  split
  next => exact only_modify fun _ => ⟨Nat.le_refl _, rfl⟩
  next task p _ =>
    exact only_modify_bind (fun _ => ⟨Nat.le_refl _, rfl⟩) fun _ => (only_post task).mono rfl

theorem only_poolPost (pool : Id) (task : Task) : Only [.pools, .tasks] (poolPost pool task) := by
  refine only_get fun w => ?_
  split
  next => exact only_pure ()
  next p _ => exact only_staff pool _

theorem only_poolDone (pool : Id) : Only [.pools, .tasks] (poolDone pool) := by
  refine only_get fun w => ?_
  split
  next => exact only_pure ()
  next p _ => exact only_staff pool _

/-!
Jobs.
-/

theorem only_setService (id : Id) (service : ServiceObject)
    : Only [.services] (setService id service) :=
  only_modify fun _ => ⟨Nat.le_refl _, rfl⟩

theorem only_setPhase (id : Id) (phase : ExecutionPhase) : Only [.executions] (setPhase id phase) :=
  only_modify fun _ => ⟨Nat.le_refl _, rfl⟩

theorem only_wakeWaiting (service : Id) : Only [.tasks] (wakeWaiting service) := by
  refine only_get fun w => (frame_leaves _).bind (only_forIn _ _ fun execution _ => ?_) only_pure
  dsimp only
  split
  next => exact (only_post _).bind rfl fun _ => only_pure _
  next => exact only_pure _

theorem only_collectAttached (service : Id) (inspection : InspectionId)
    : Only [.tasks] (collectAttached service inspection) := by
  refine only_get fun w => (frame_leaves _).bind (only_forIn _ _ fun execution _ => ?_) only_pure
  dsimp only
  split
  next =>
    split
    next => exact (only_post _).bind rfl fun _ => only_pure _
    next => exact only_pure _
  next => exact only_pure _

theorem only_cancelJob (service : Id) (job : UInt64)
    : Only [.services, .tasks, .journal] (cancelJob service job) := by
  refine only_get fun w => ?_
  split
  next => exact only_pure _
  next object _ =>
    generalize object.state.cancel job = cancelled
    obtain ⟨state, wasPending⟩ := cancelled
    refine (only_setService service _).bind rfl fun _ => ?_
    dsimp only
    split
    next =>
      exact (only_wakeWaiting service).bind rfl fun _ => (only_say _).bind rfl fun _ => only_pure _
    next => exact only_pure _

theorem only_sayVerdict (coordinator : Id) (run : CheckRun)
    : Only [.journal] (sayVerdict coordinator run) := by
  refine only_get fun w => ?_
  split
  next => exact only_pure ()
  next => exact only_sayAll _

theorem only_setRun (id : Id) (object : RunObject) (run : CheckRun)
    : Only [.runs, .tasks, .journal] (setRun id object run) := by
  refine only_modify_bind (fun _ => ⟨Nat.le_refl _, rfl⟩) fun _ => ?_
  split
  next => exact (only_post _).bind rfl fun _ => (only_sayVerdict _ run).mono rfl
  next => exact only_pure ()

theorem only_recordOutcome (id : Id) (outcome : NodeOutcome)
    : Only [.runs, .tasks, .journal] (recordOutcome id outcome) := by
  refine only_get fun w => ?_
  split
  next => exact only_pure ()
  next object _ => exact only_setRun id object _

theorem only_deliver (handler : Handler) (result : DispatchResult)
    : Only [.results, .runs, .coordinators, .pools, .tasks, .journal] (deliver handler result) := by
  unfold deliver
  split
  next => exact only_modify fun _ => ⟨Nat.le_refl _, rfl⟩
  next run node =>
    refine only_get fun w => ?_
    split
    next => exact only_pure ()
    next object _ =>
      have hrest : Only [.results, .runs, .coordinators, .pools, .tasks, .journal] (do
          recordOutcome run (result.contribution node)
          modify fun w =>
            { w with
              coordinators := w.coordinators.modify object.coordinator fun c =>
                { c with inFlight := c.inFlight - 1 } }) :=
        (only_recordOutcome run _).bind rfl fun _ => only_modify fun _ => ⟨Nat.le_refl _, rfl⟩
      refine only_get fun w => ?_
      dsimp only
      split
      next =>
        exact (only_poolPost _ _).bind rfl fun _ => hrest
      next => exact hrest

theorem only_newExecution (service : Id) (request : VerifyRequest) (continuation : Continuation)
    : Only [.executions] (newExecution service request continuation) :=
  only_newId.bind rfl fun id =>
    only_modify_bind (fun _ => ⟨Nat.le_refl _, rfl⟩) fun _ => only_pure id

theorem only_setDispatcher (id : Id) (dispatcher : Dispatcher)
    : Only [.dispatchers] (setDispatcher id dispatcher) :=
  only_modify fun _ => ⟨Nat.le_refl _, rfl⟩

def Part.ofJobs : List Part :=
  [.services, .executions, .dispatchers, .results, .runs, .coordinators, .pools, .tasks, .timers,
    .journal]

theorem only_localEvent (dispatcher id : Id) (event : LocalEvent)
    : Only Part.ofJobs (localEvent dispatcher id event) := by
  refine only_get fun w => ?_
  split
  next d _ =>
    split
    next => exact only_pure ()
    next object _ =>
      generalize object.call.step event = stepped
      obtain ⟨call, effect⟩ := stepped
      dsimp only
      refine Frame.ite ?_ fun hrest => (only_disarm? _).bind rfl fun _ => hrest
      refine (only_setDispatcher dispatcher _).bind rfl fun _ => ?_
      split
      next => exact only_pure ()
      next => exact (only_newExecution _ _ _).bind rfl fun _ => (only_poolPost _ _).mono rfl
      next => exact (only_deliver _ _).mono rfl
  next => exact only_pure ()

theorem only_forgetLocalCall (dispatcher id : Id)
    : Only Part.ofJobs (forgetLocalCall dispatcher id) := by
  refine only_get fun w => ?_
  split
  next => exact (only_setDispatcher dispatcher _).mono rfl
  next => exact only_pure ()

theorem only_finishExecution (id : Id) (execution : Execution) (outcome : NodeOutcome)
    : Only Part.ofJobs (finishExecution id execution outcome) := by
  have hdone (pool : Id) : Only Part.ofJobs (poolDone pool) := (only_poolDone pool).mono rfl
  refine (only_setPhase id _).bind rfl fun _ => ?_
  split
  next => exact only_pure ()
  next =>
    refine only_get fun w => ?_
    split
    next => exact only_pure ()
    next =>
      refine only_get fun w => ?_
      split
      next => exact only_pure ()
      next => exact (only_recordOutcome _ _).bind rfl fun _ => hdone _
  next =>
    refine (only_localEvent _ _ _).bind rfl fun _ => ?_
    exact (only_forgetLocalCall _ _).bind rfl fun _ => hdone _
  next => exact (only_post _).bind rfl fun _ => hdone _

theorem only_collect (id : Id) : Only Part.ofJobs (collect id) := by
  refine only_get fun w => ?_
  split
  next => exact only_pure ()
  next execution _ =>
    refine only_get fun w => ?_
    split
    next inspection object _ _ =>
      split
      next => exact only_pure ()
      next result _ =>
        exact (only_setService _ _).bind rfl fun _ => only_finishExecution id execution _
    next => exact only_pure ()

theorem only_runInspection (id : Id) (execution : Execution) (inspection : InspectionId)
    : Only Part.ofJobs (runInspection id execution inspection) := by
  refine only_get fun w => ?_
  split
  next => exact only_pure ()
  next object _ =>
    refine only_get fun w => ?_
    generalize object.inspector.inspect w.files execution.request _ = inspected
    obtain ⟨inspected, log⟩ := inspected
    exact (only_sayAll log).bind rfl fun _ => (only_setService _ _).bind rfl fun _ =>
      (only_setPhase id _).bind rfl fun _ => (only_collectAttached _ inspection).bind rfl fun _ =>
        (only_wakeWaiting _).mono rfl

theorem only_settle (id : Id) (execution : Execution) (object : ServiceObject)
    (decided : VerifyService × Admission)
    : Only Part.ofJobs (settle id execution object decided) := by
  have hphase (phase : ExecutionPhase) : Only Part.ofJobs (setPhase id phase) :=
    (only_setPhase id phase).mono rfl
  refine (only_setService _ _).bind rfl fun _ => (only_sayAll _).bind rfl fun _ => ?_
  split
  next => exact only_finishExecution id execution _
  next => exact hphase _
  next => exact hphase _
  next inspection _ =>
    split
    next => exact hphase _
    next => exact only_runInspection id execution inspection

theorem only_arrive (id : Id) : Only Part.ofJobs (arrive id) := by
  refine only_get fun w => ?_
  split
  next => exact only_pure ()
  next execution _ =>
    refine only_get fun w => ?_
    split
    next => exact only_pure ()
    next object _ => exact only_settle id execution object _

theorem only_wake (id : Id) : Only Part.ofJobs (wake id) := by
  refine only_get fun w => ?_
  split
  next => exact only_pure ()
  next execution _ =>
    refine only_get fun w => ?_
    split
    next object _ _ => exact only_settle id execution object _
    next => exact only_pure ()

/-!
Connections, calls and datagrams.
-/

theorem only_tellClient (connection : Connection) : Only [.tasks] (tellClient connection) := by
  unfold tellClient
  split
  next => exact only_pure ()
  next call _ => exact only_post _

theorem only_beginCall (call : Call) (purpose : CallPurpose)
    : Only [.calls, .tasks] (beginCall call purpose) :=
  only_newId.bind rfl fun id => only_modify_bind (fun _ => ⟨Nat.le_refl _, rfl⟩) fun _ =>
    (only_post _).bind rfl fun _ => only_pure id

theorem only_newCall (host : Text) (port : UInt16) (request : JobRequest) (timeout : Nat)
    (purpose : CallPurpose)
    : Only [.calls, .tasks] (newCall host port request timeout purpose) := by
  unfold newCall
  split
  next call _ => exact only_beginCall call purpose
  next =>
    exact only_newId.bind rfl fun id => only_modify_bind (fun _ => ⟨Nat.le_refl _, rfl⟩) fun _ =>
      (only_post _).bind rfl fun _ => only_pure id

theorem only_searchCatalog (catalog : Catalog) (snapshot : Text)
    : Only [.journal] (searchCatalog catalog snapshot) := by
  refine only_get fun w => ?_
  exact (only_sayAll _).bind rfl fun _ => only_pure _

theorem only_sendDatagram (port : UInt16) (bytes : Bytes)
    : Only [.udp, .gossips, .tasks] (sendDatagram port bytes) := by
  refine only_get fun w => ?_
  split
  next => exact only_pure ()
  next => exact only_modify fun _ => ⟨Nat.le_refl _, rfl⟩
  next => exact only_modify_bind (fun _ => ⟨Nat.le_refl _, rfl⟩) fun _ => (only_post _).mono rfl

theorem only_receive (id : Id) : Only [.gossips, .journal] (receive id) := by
  refine only_get fun w => ?_
  split
  next => exact only_pure ()
  next g _ =>
    dsimp only
    split
    next =>
      exact only_get fun w => (only_sayAll _).bind rfl fun _ =>
        only_modify fun _ => ⟨Nat.le_refl _, rfl⟩
    next => exact only_pure ()

theorem only_tick (id : Id) : Only [.gossips, .udp, .tasks, .timers, .journal] (tick id) := by
  refine only_get fun w => ?_
  split
  next => exact only_pure ()
  next g _ =>
    dsimp only
    split
    next =>
      refine only_get fun w => only_modify_bind (fun _ => ⟨Nat.le_refl _, rfl⟩) fun _ => ?_
      refine (frame_leaves _).bind (only_forIn _ _ fun peer _ => ?_) fun _ =>
        (only_arm _ _).bind rfl fun _ => only_modify fun _ => ⟨Nat.le_refl _, rfl⟩
      split
      next => exact (only_say _).bind rfl fun _ => only_pure _
      next =>
        split
        next => exact only_pure _
        next => exact (only_sendDatagram _ _).bind rfl fun _ => only_pure _
    next => exact only_pure ()

/-!
What is sent to nodes.
-/

theorem only_armLocalCall (id call : Id) (delay : Nat)
    : Only [.dispatchers, .tasks, .timers] (armLocalCall id call delay) := by
  refine only_get fun w => ?_
  split
  next => exact only_pure ()
  next object _ =>
    refine (only_arm _ _).bind rfl fun deadline => (only_arm _ _).bind rfl fun due => ?_
    refine only_get fun w => ?_
    split
    next => exact (only_setDispatcher id _).mono rfl
    next => exact only_pure ()

theorem only_hasten (id : Id) (calls : List Id) : Only [.tasks, .timers] (hasten id calls) := by
  refine (frame_leaves _).bind (only_forIn _ _ fun call _ => only_get fun w => ?_) only_pure
  split
  next => exact only_pure _
  next =>
    exact (only_disarm _).bind rfl fun _ => (only_post _).bind rfl fun _ => only_pure _

theorem only_sendNotice (id : Id) (node : Text) (job : UInt64) (purpose : CallPurpose)
    : Only (.calls :: Part.ofJobs) (sendNotice id node job purpose) := by
  refine only_get fun w => ?_
  split
  next => exact only_pure _
  next d _ => exact (only_setDispatcher id _).bind rfl fun _ => only_pure _
  next d _ =>
    refine (only_setDispatcher id _).bind rfl fun _ => ?_
    dsimp only
    split
    next => exact (only_post _).bind rfl fun _ => only_pure _
    next service _ =>
      exact (only_cancelJob service job).bind rfl fun _ =>
        (only_post _).bind rfl fun _ => only_pure _
  next nodes _ =>
    split
    next => exact only_pure _
    next address _ => exact (only_newCall _ _ _ _ _).bind rfl fun _ => only_pure _

theorem only_notify (coordinator : Id) (job : UInt64) (notices : List Notice)
    : Only (.calls :: Part.ofJobs) (notify coordinator job notices) := by
  refine only_get fun w => ?_
  split
  next => exact only_pure _
  next c _ =>
    split
    next => exact (only_poolDone _).mono rfl
    next =>
      exact (only_cancelJob _ job).bind rfl fun _ => (only_post _).mono rfl
    next =>
      refine (only_sendNotice _ _ job _).bind rfl fun call => ?_
      split
      next => exact (only_post _).mono rfl
      next => exact only_pure _

theorem only_armDeadline (run : Id) : Only [.coordinators, .tasks, .timers] (armDeadline run) := by
  refine only_get fun w => ?_
  split
  next => exact only_pure ()
  next object _ =>
    refine only_get fun w => ?_
    split
    next => exact only_pure ()
    next c _ =>
      exact (only_arm _ _).bind rfl fun timer =>
        only_modify_bind (fun _ => ⟨Nat.le_refl _, rfl⟩) fun _ => (only_disarm? _).mono rfl

theorem only_releaseDeadline (run : Id)
    : Only [.coordinators, .timers] (releaseDeadline run) := by
  refine only_get fun w => ?_
  split
  next => exact only_pure ()
  next object _ =>
    refine only_get fun w => ?_
    split
    next => exact only_pure ()
    next c _ =>
      exact only_modify_bind (fun _ => ⟨Nat.le_refl _, rfl⟩) fun _ => (only_disarm? _).mono rfl

theorem only_deadline (run : Id)
    : Only [.coordinators, .timers, .runs, .pools, .tasks, .journal] (deadline run) := by
  refine only_get fun w => ?_
  split
  next => exact only_pure ()
  next object _ =>
    refine only_get fun w => ?_
    split
    next => exact only_pure ()
    next c _ =>
      refine only_modify_bind (fun _ => ⟨Nat.le_refl _, rfl⟩) fun _ => ?_
      refine (only_disarm? _).bind rfl fun _ => ?_
      split
      next => exact only_pure ()
      next expired conclusion _ =>
        exact only_modify_bind (fun _ => ⟨Nat.le_refl _, rfl⟩) fun _ =>
          (only_say _).bind rfl fun _ =>
          (only_poolPost _ _).bind rfl fun _ => (only_sayAll _).mono rfl

/-!
The schedule goes on.
-/

theorem only_modifyGet {f : Cluster → α × Cluster} (h : ∀ w, Leaves parts w (f w).2)
    : Only parts (modifyGet f : ClusterM α) :=
  h

theorem only_nextTask? : Only [.tasks, .timers] nextTask? := by
  refine only_modifyGet fun w => ?_
  split
  next => exact ⟨Nat.le_refl _, rfl⟩
  next =>
    split
    next => exact ⟨Nat.le_refl _, rfl⟩
    next => exact (frame_leaves _).refl w
  next => exact (frame_leaves _).refl w

theorem only_jump? (limit : Option Nat) : Only [.clock] (jump? limit) := by
  refine only_modifyGet fun w => ?_
  split
  next => exact (frame_leaves _).refl w
  next =>
    split
    next => exact ⟨Nat.le_refl _, rfl⟩
    next => exact (frame_leaves _).refl w

theorem Frame.runFor {R : Cluster → Cluster → Prop} (frame : Frame R)
    (htask : ∀ task, Within R (runTask task)) (hnext : Within R nextTask?)
    (hjump : ∀ limit, Within R (jump? limit)) (steps : Nat) (goal : Cluster → Bool)
    (limit : Option Nat) : Within R (Cluster.runFor steps goal limit) := by
  induction steps with
  | zero => exact frame.pure ()
  | succ steps ih =>
    refine frame.bind hnext fun next => ?_
    split
    next task => exact frame.bind (htask task) fun _ => ih
    next =>
      refine Frame.get_bind fun w => ?_
      split
      next => exact frame.pure ()
      next =>
        refine frame.bind (hjump limit) fun jumped => ?_
        split
        next => exact ih
        next => exact frame.pure ()

end Cluster

end SnapshotAudit
