import SnapshotAudit.Cluster.Checks
import SnapshotAudit.Layout.Snapshot
import SnapshotAudit.Proofs.Catalog
import SnapshotAudit.Proofs.Check.Steps
import SnapshotAudit.Proofs.Cluster.Frames
import SnapshotAudit.Proofs.FileTree.Upkeep
import SnapshotAudit.Proofs.Ordered.Map

/-!
This module contains where a check takes the descriptor of its snapshot from: the own catalog, or
else the first server that knows the snapshot, in the order of the members.
-/

namespace SnapshotAudit

namespace Cluster

/-!
Runs keep their descriptor while jobs are sent.
-/

def KeepsRuns (v w : Cluster) : Prop :=
  ∀ id object, v.runs.get? id = some object → ∃ now, w.runs.get? id = some now ∧
    now.coordinator = object.coordinator ∧ now.run.desc = object.run.desc

theorem frame_keepsRuns : Frame KeepsRuns where
  refl _ _ object h := ⟨object, h, rfl, rfl⟩
  trans _ _ _ first second id object h := by
    obtain ⟨later, hlater, hcoordinator, hdesc⟩ := first id object h
    obtain ⟨last, hlast, hcoordinator', hdesc'⟩ := second id later hlater
    exact ⟨last, hlast, hcoordinator'.trans hcoordinator, hdesc'.trans hdesc⟩

theorem keepsRuns_of_runs_eq {v w : Cluster} (h : w.runs = v.runs) : KeepsRuns v w :=
  fun _ object hobject => ⟨object, h ▸ hobject, rfl, rfl⟩

theorem keepsRuns_modify {f : Cluster → Cluster} (h : ∀ w, (f w).runs = w.runs)
    : Within KeepsRuns (modify f : ClusterM Unit) :=
  fun w => keepsRuns_of_runs_eq (h w)

theorem keepsRuns_of_only {α : Type} {parts : List Part} {act : ClusterM α} (h : Only parts act)
    (hruns : parts.contains .runs = false) : Within KeepsRuns act := by
  intro w
  have hsame := congrArg Cluster.runs (h w).same
  simp only [clear, hruns, Bool.false_eq_true, if_false] at hsame
  exact keepsRuns_of_runs_eq hsame

theorem desc_settle_record (run : CheckRun) (outcome : NodeOutcome)
    : (CheckRun.settle (run.record outcome)).desc = run.desc := by
  unfold CheckRun.record
  split
  next => rfl
  next =>
    dsimp only
    split <;> rfl

theorem keepsRuns_setRun {w : Cluster} {id : Id} {object : RunObject} {run : CheckRun}
    (h : w.runs.get? id = some object) (hdesc : run.desc = object.run.desc)
    : KeepsRuns w ((setRun id object run).run w).2 := by
  have hrest : Within KeepsRuns (do
      if run.finished && !object.run.finished then
        post (.releaseDeadline id)
        sayVerdict object.coordinator run) := by
    split
    next =>
      exact frame_keepsRuns.bind (keepsRuns_of_only (only_post _) rfl) fun _ =>
        keepsRuns_of_only (only_sayVerdict _ _) rfl
    next => exact frame_keepsRuns.pure ()
  refine frame_keepsRuns.trans _ { w with runs := w.runs.insert id { object with run } } _ ?_
    (hrest _)
  intro other found hfound
  change ∃ now, (w.runs.insert id { object with run }).get? other = some now ∧ _
  rw [SortedMap.get?_insert_eq]
  split
  next heq =>
    subst heq
    obtain rfl := Option.some.inj (h.symm.trans hfound)
    exact ⟨_, rfl, rfl, hdesc⟩
  next => exact ⟨found, hfound, rfl, rfl⟩

theorem keepsRuns_recordOutcome (id : Id) (outcome : NodeOutcome)
    : Within KeepsRuns (recordOutcome id outcome) := by
  intro w
  unfold recordOutcome
  rw [run_get]
  split
  next => exact frame_keepsRuns.refl w
  next object hobject => exact keepsRuns_setRun hobject (desc_settle_record _ _)

theorem keepsRuns_deliver (handler : Handler) (result : DispatchResult)
    : Within KeepsRuns (deliver handler result) := by
  unfold deliver
  split
  next => exact keepsRuns_modify fun _ => rfl
  next run node =>
    refine Frame.get_bind fun w => ?_
    split
    next => exact frame_keepsRuns.pure ()
    next object _ =>
      have hrest : Within KeepsRuns (do
          recordOutcome run (result.contribution node)
          modify fun w =>
            { w with
              coordinators := w.coordinators.modify object.coordinator fun c =>
                { c with inFlight := c.inFlight - 1 } }) :=
        frame_keepsRuns.bind (keepsRuns_recordOutcome _ _) fun _ => keepsRuns_modify fun _ => rfl
      refine Frame.get_bind fun w => ?_
      dsimp only
      split
      next => exact frame_keepsRuns.bind (keepsRuns_of_only (only_poolPost _ _) rfl) fun _ => hrest
      next => exact hrest

theorem keepsRuns_dispatchJob (id : Id) (node : Text) (request : VerifyRequest) (timeout : Nat)
    (handler : Handler) : Within KeepsRuns (dispatchJob id node request timeout handler) := by
  have hset (dispatcher : Dispatcher) : Within KeepsRuns (setDispatcher id dispatcher) :=
    keepsRuns_of_only (only_setDispatcher id dispatcher) rfl
  refine Frame.get_bind fun w => ?_
  split
  next => exact frame_keepsRuns.pure ()
  next d _ =>
    dsimp only
    split
    next => exact frame_keepsRuns.bind (hset _) fun _ => keepsRuns_deliver _ _
    next => exact hset _
  next d _ =>
    dsimp only
    split
    next => exact frame_keepsRuns.bind (hset _) fun _ => keepsRuns_of_only (only_poolPost _ _) rfl
    next =>
      exact frame_keepsRuns.bind (keepsRuns_of_only only_newId rfl) fun _ =>
        frame_keepsRuns.bind (hset _) fun _ => keepsRuns_of_only (only_post _) rfl
  next nodes _ =>
    split
    next => exact keepsRuns_of_only (only_post _) rfl
    next => exact Frame.discard (keepsRuns_of_only (only_beginCall _ _) rfl)

theorem keepsRuns_dispatchAll (id runId : Id) (c : Coordinator) (run : CheckRun)
    : Within KeepsRuns (dispatchAll id runId c run) := by
  unfold dispatchAll
  refine Frame.ite ?_ fun hremote => ?_
  . refine frame_keepsRuns.bind (frame_keepsRuns.forIn _ _ fun job _ => ?_) frame_keepsRuns.pure
    exact frame_keepsRuns.bind (keepsRuns_modify fun _ => rfl) fun _ =>
      frame_keepsRuns.bind (keepsRuns_dispatchJob _ _ _ _ _) frame_keepsRuns.pure
  . exact frame_keepsRuns.bind (keepsRuns_of_only (only_newExecution _ _ _) rfl) fun _ =>
      frame_keepsRuns.bind (keepsRuns_of_only (only_poolPost _ _) rfl) fun _ => hremote

/-!
Searching the own catalog and asking the other servers.
-/

section Search

variable {α β : Type} {w later : Cluster}

theorem run_bind_of_ok {act : Action α} {next : α → Action β} {a : α}
    (h : act.run.run w = (.ok a, later)) : (act >>= next).run.run w = (next a).run.run later := by
  simp only [ExceptT.run_bind, StateT.run_bind, h]
  rfl

theorem run_bind_of_error {act : Action α} {next : α → Action β} {fault : Fault}
    (h : act.run.run w = (.error fault, later))
    : (act >>= next).run.run w = (.error fault, later) := by
  simp only [ExceptT.run_bind, StateT.run_bind, h]
  rfl

theorem run_get_bind (next : Cluster → Action β) (w : Cluster)
    : ((get : Action Cluster) >>= next).run.run w = (next w).run.run w :=
  rfl

theorem run_describeFrom (catalog : Catalog) (snapshot : Text) (w : Cluster)
    : (describeFrom catalog snapshot).run.run w =
      (catalog.find w.files snapshot, ((searchCatalog catalog snapshot).run w).2) := by
  have hsearch : (liftM (searchCatalog catalog snapshot) :
      Action (Except Fault (Option SnapshotDescriptor))).run.run w =
        (.ok (catalog.find w.files snapshot), ((searchCatalog catalog snapshot).run w).2) := rfl
  unfold describeFrom
  refine (run_bind_of_ok hsearch).trans ?_
  cases catalog.find w.files snapshot <;> rfl

def answers (ask : Text → Action (Option SnapshotDescriptor)) (nodes : List Text) (w : Cluster)
    : List (Text × Except Fault (Option SnapshotDescriptor)) :=
  match nodes with
  | [] => []
  | node :: rest =>
    let asked := (ask node).run.run w
    (node, asked.1) :: answers ask rest asked.2

theorem run_firstToKnow (ask : Text → Action (Option SnapshotDescriptor)) (nodes : List Text)
    (w : Cluster)
    : ((CheckRun.firstToKnow ask nodes).run.run w).1.map (Option.map Prod.snd) =
      firstFound Prod.snd (answers ask nodes w) := by
  induction nodes generalizing w with
  | nil => rfl
  | cons node rest ih =>
    rw [answers]
    unfold CheckRun.firstToKnow
    rcases hask : (ask node).run.run w with ⟨answer, later⟩
    dsimp only
    cases answer with
    | error fault =>
      rw [run_bind_of_error hask, firstFound_cons_of_ne (by simp)]
      rfl
    | ok desc =>
      rw [run_bind_of_ok hask]
      cases desc with
      | none =>
        rw [firstFound_cons_of_none (show Prod.snd (node, _) = _ from rfl)]
        exact ih later
      | some desc =>
        rw [firstFound_cons_of_ne (by simp)]
        rfl

def peerAnswers (w : Cluster) (c : Coordinator) (snapshot : Text)
    : List (Text × Except Fault (Option SnapshotDescriptor)) :=
  answers (fun node => describeOn c.dispatcher node snapshot c.timeout)
    (CheckRun.peersOf c.self (membersOf w c.view)) ((searchCatalog c.catalog snapshot).run w).2

def chosen (w : Cluster) (c : Coordinator) (snapshot : Text)
    : Except Fault (Option SnapshotDescriptor) :=
  match c.catalog.find w.files snapshot with
  | .ok none => firstFound Prod.snd (peerAnswers w c snapshot)
  | found => found

theorem membersOf_searchCatalog (catalog : Catalog) (snapshot : Text) (view : MemberSource)
    (w : Cluster)
    : membersOf ((searchCatalog catalog snapshot).run w).2 view = membersOf w view := by
  have hsame := (only_searchCatalog catalog snapshot w).same
  have hnow : ((searchCatalog catalog snapshot).run w).2.instant = w.instant :=
    (congrArg Cluster.instant hsame :)
  have hgossips : ((searchCatalog catalog snapshot).run w).2.gossips = w.gossips :=
    (congrArg Cluster.gossips hsame :)
  unfold membersOf
  rw [hnow, hgossips]

theorem run_describeFromPeers (c : Coordinator) (snapshot : Text) (members : List Member)
    (w : Cluster)
    : ((describeFromPeers c snapshot members).run.run w).1 =
      firstFound Prod.snd (answers (fun node => describeOn c.dispatcher node snapshot c.timeout)
        (CheckRun.peersOf c.self members) w) := by
  rw [← run_firstToKnow]
  unfold describeFromPeers
  generalize (fun node => describeOn c.dispatcher node snapshot c.timeout) = ask
  rcases hasked : (CheckRun.firstToKnow ask (CheckRun.peersOf c.self members)).run.run w with
    ⟨found, later⟩
  cases found with
  | error fault =>
    rw [run_bind_of_error hasked]
    rfl
  | ok found =>
    rw [run_bind_of_ok hasked]
    cases found <;> rfl

theorem run_findDescriptor (c : Coordinator) (snapshot : Text) (w : Cluster)
    : ((findDescriptor c snapshot).run.run w).1 =
      (chosen w c snapshot).bind fun
        | some desc => .ok desc
        | none => .error (CheckRun.unknownSnapshotFault snapshot c.self) := by
  have hown := run_describeFrom c.catalog snapshot w
  unfold findDescriptor chosen
  cases hfind : c.catalog.find w.files snapshot with
  | error fault =>
    rw [hfind] at hown
    rw [run_bind_of_error hown]
    rfl
  | ok found =>
    rw [hfind] at hown
    rw [run_bind_of_ok hown]
    cases found with
    | some desc => rfl
    | none =>
      unfold peerAnswers
      rw [← membersOf_searchCatalog c.catalog snapshot, ← run_describeFromPeers]
      generalize ((searchCatalog c.catalog snapshot).run w).2 = searched
      rcases hpeers :
        (describeFromPeers c snapshot (membersOf searched c.view)).run.run searched with
        ⟨found, later⟩
      dsimp only
      rw [run_get_bind]
      cases found with
      | error fault =>
        rw [run_bind_of_error hpeers]
        rfl
      | ok found =>
        rw [run_bind_of_ok hpeers]
        cases found <;> rfl

end Search

/-!
The run.
-/

def Starts (w : Cluster) (id : Id) (snapshot : Text) (desc : SnapshotDescriptor) : Prop :=
  ∃ runId later object, (check id snapshot).run.run w = (.ok runId, later) ∧
    later.runs.get? runId = some object ∧ object.coordinator = id ∧ object.run.desc = desc

theorem run_present {α : Type} (fault : Fault) (a : α) (w : Cluster)
    : (present fault (some a)).run.run w = (.ok a, w) :=
  rfl

theorem starts_of_findDescriptor {w searched : Cluster} {id : Id} {c : Coordinator}
    {snapshot : Text} {desc : SnapshotDescriptor} (hc : w.coordinators.get? id = some c)
    (h : (findDescriptor c snapshot).run.run w = (.ok desc, searched))
    : Starts w id snapshot desc := by
  let run := CheckRun.start c.nextJob desc
    (membersOf { searched with fresh := searched.fresh + 1 } c.view)
  let started : Cluster :=
    { searched with
      fresh := searched.fresh + 1
      coordinators := searched.coordinators.modify id fun c => { c with nextJob := c.nextJob + 1 }
      runs := searched.runs.insert searched.fresh ⟨id, run⟩ }
  let tail : ClusterM Unit := do
    sayAll (startEntries c.self run)
    if run.finished then sayAll (verdictEntries c.self run)
    else
      post (.armDeadline searched.fresh)
      dispatchAll id searched.fresh c run
  have hrun : (check id snapshot).run.run w = (.ok searched.fresh, (tail.run started).2) := by
    unfold check
    rw [run_get_bind, hc, run_bind_of_ok (run_present stuck c w), run_bind_of_ok h]
    have hbranch (finished : Bool) (v : Cluster)
        : (do
            if finished then sayAll (verdictEntries c.self run)
            else
              post (.armDeadline searched.fresh)
              dispatchAll id searched.fresh c run
            return searched.fresh : Action Id).run.run v =
          (.ok searched.fresh, (StateT.run (do
            if finished then sayAll (verdictEntries c.self run)
            else
              post (.armDeadline searched.fresh)
              dispatchAll id searched.fresh c run) v).2) := by
      cases finished <;> rfl
    exact hbranch run.finished _
  have hkeeps : Within KeepsRuns tail := by
    refine frame_keepsRuns.bind (keepsRuns_of_only (only_sayAll _) rfl) fun _ => ?_
    split
    next => exact keepsRuns_of_only (only_sayAll _) rfl
    next =>
      exact frame_keepsRuns.bind (keepsRuns_of_only (only_post _) rfl) fun _ =>
        keepsRuns_dispatchAll _ _ _ _
  have hstarted : started.runs.get? searched.fresh = some ⟨id, run⟩ := SortedMap.get?_insert_self ..
  obtain ⟨object, hobject, hcoordinator, hdesc⟩ := hkeeps started _ _ hstarted
  exact ⟨searched.fresh, _, object, hrun, hobject, hcoordinator,
    hdesc.trans (CheckRun.start_desc ..)⟩

/-!
What may go wrong when a server is asked.
-/

section Faults

variable {α β : Type}

/--
An action stops with no fault but one of the machine.
-/
def OnlyMachineFaults (act : Action α) : Prop :=
  ∀ w fault, (act.run.run w).1 = .error fault → ∃ text, fault = .system text

theorem OnlyMachineFaults.bind {act : Action α} {next : α → Action β} (h : OnlyMachineFaults act)
    (hnext : ∀ a, OnlyMachineFaults (next a)) : OnlyMachineFaults (act >>= next) := by
  intro w fault hfault
  rcases hact : act.run.run w with ⟨result, later⟩
  cases result with
  | error other =>
    rw [run_bind_of_error hact] at hfault
    cases hfault
    exact h w fault (congrArg Prod.fst hact)
  | ok a =>
    rw [run_bind_of_ok hact] at hfault
    exact hnext a later fault hfault

theorem OnlyMachineFaults.get_bind {next : Cluster → Action β} (h : ∀ w, OnlyMachineFaults (next w))
    : OnlyMachineFaults ((get : Action Cluster) >>= next) :=
  fun w => h w w

theorem onlyMachineFaults_pure (a : α) : OnlyMachineFaults (pure a) := by
  intro w fault hfault
  cases hfault

theorem onlyMachineFaults_lift (act : ClusterM α) : OnlyMachineFaults (liftM act) := by
  intro w fault hfault
  cases hfault

theorem onlyMachineFaults_describeFrom (catalog : Catalog) (snapshot : Text)
    : OnlyMachineFaults (describeFrom catalog snapshot) := by
  intro w fault hfault
  rw [run_describeFrom] at hfault
  exact ⟨_, (Catalog.find_eq_error_iff.mp hfault).2.1⟩

theorem onlyMachineFaults_awaitCall (call : Id) : OnlyMachineFaults (awaitCall call) := by
  refine (onlyMachineFaults_lift _).bind fun _ => .get_bind fun w => ?_
  cases callResult? w call with
  | some result => exact onlyMachineFaults_pure result
  | none =>
    intro w fault hfault
    cases hfault
    exact ⟨_, rfl⟩

theorem onlyMachineFaults_describeOn (id : Id) (node snapshot : Text) (timeout : Nat)
    : OnlyMachineFaults (describeOn id node snapshot timeout) := by
  refine .get_bind fun w => ?_
  split
  next => exact onlyMachineFaults_pure none
  next d _ => exact (onlyMachineFaults_lift _).bind fun _ => onlyMachineFaults_pure _
  next d _ =>
    refine (onlyMachineFaults_lift _).bind fun _ => .get_bind fun w => ?_
    split
    next => exact onlyMachineFaults_pure none
    next => exact onlyMachineFaults_describeFrom _ _
  next nodes _ =>
    split
    next => exact onlyMachineFaults_pure none
    next address _ =>
      refine (onlyMachineFaults_lift _).bind fun call =>
        (onlyMachineFaults_awaitCall call).bind fun result => ?_
      split
      next => exact onlyMachineFaults_pure _
      next => exact (onlyMachineFaults_lift _).bind fun _ => onlyMachineFaults_pure _

theorem machine_of_mem_answers {ask : Text → Action (Option SnapshotDescriptor)} {nodes : List Text}
    {w : Cluster} {answer : Text × Except Fault (Option SnapshotDescriptor)} {fault : Fault}
    (hask : ∀ node, OnlyMachineFaults (ask node)) (h : answer ∈ answers ask nodes w)
    (hfault : answer.2 = .error fault) : ∃ text, fault = .system text := by
  induction nodes generalizing w with
  | nil => cases h
  | cons node rest ih =>
    rcases List.mem_cons.mp h with rfl | hrest
    . exact hask node w fault hfault
    . exact ih hrest

end Faults

/-!
What a check does.
-/

/--
A check of a snapshot takes the own descriptor, else that of the first server that has one, in the
order of the members; it ends with the fault of an unknown snapshot if there is none, and with any
other fault that arises in front of a descriptor.
-/
structure Settles (w : Cluster) (id : Id) (c : Coordinator) (snapshot : Text) : Prop where
  unknown : ((check id snapshot).run.run w).1 =
      .error (CheckRun.unknownSnapshotFault snapshot c.self) ↔
    c.catalog.find w.files snapshot = .ok none ∧
      ∀ answer ∈ peerAnswers w c snapshot, answer.2 = .ok none
  notFound : ∀ text, ((check id snapshot).run.run w).1 = .error (.audit .snapshotNotFound text) →
    .audit .snapshotNotFound text = CheckRun.unknownSnapshotFault snapshot c.self
  own : ∀ desc, c.catalog.find w.files snapshot = .ok (some desc) → Starts w id snapshot desc
  asked : c.catalog.find w.files snapshot = .ok none → ∀ front node desc back,
    peerAnswers w c snapshot = front ++ (node, .ok (some desc)) :: back →
      (∀ answer ∈ front, answer.2 = .ok none) → Starts w id snapshot desc
  faulted : ∀ fault, chosen w c snapshot = .error fault →
    ((check id snapshot).run.run w).1 = .error fault

theorem chosen_eq_none_iff {w : Cluster} {c : Coordinator} {snapshot : Text}
    : chosen w c snapshot = .ok none ↔ c.catalog.find w.files snapshot = .ok none ∧
      ∀ answer ∈ peerAnswers w c snapshot, answer.2 = .ok none := by
  rw [← firstFound_eq_none_iff]
  unfold chosen
  split
  next hfind => exact ⟨fun h => ⟨hfind, h⟩, And.right⟩
  next hfind => exact ⟨fun h => absurd h hfind, fun h => absurd h.1 hfind⟩

theorem machine_of_chosen {w : Cluster} {c : Coordinator} {snapshot : Text} {fault : Fault}
    (h : chosen w c snapshot = .error fault) : ∃ text, fault = .system text := by
  unfold chosen at h
  split at h
  next =>
    rw [firstFound_eq_iff (by simp)] at h
    obtain ⟨front, answer, back, hsplit, -, hanswer⟩ := h
    have hmem : answer ∈ peerAnswers w c snapshot := by simp [hsplit]
    exact machine_of_mem_answers (fun node => onlyMachineFaults_describeOn _ node _ _) hmem hanswer
  next => exact ⟨_, (Catalog.find_eq_error_iff.mp h).2.1⟩

section Settled

variable {w : Cluster} {id : Id} {c : Coordinator} {snapshot : Text} {fault : Fault}
  (hc : w.coordinators.get? id = some c)

include hc

theorem check_of_findDescriptor_error
    (h : ((findDescriptor c snapshot).run.run w).1 = .error fault)
    : ((check id snapshot).run.run w).1 = .error fault := by
  rcases hrun : (findDescriptor c snapshot).run.run w with ⟨result, later⟩
  obtain rfl : result = .error fault := (congrArg Prod.fst hrun).symm.trans h
  unfold check
  rw [run_get_bind, hc, run_bind_of_ok (run_present stuck c w), run_bind_of_error hrun]

theorem check_of_chosen_error (h : chosen w c snapshot = .error fault)
    : ((check id snapshot).run.run w).1 = .error fault := by
  apply check_of_findDescriptor_error hc
  rw [run_findDescriptor, h]
  rfl

theorem check_of_chosen_none (h : chosen w c snapshot = .ok none)
    : ((check id snapshot).run.run w).1 =
      .error (CheckRun.unknownSnapshotFault snapshot c.self) := by
  apply check_of_findDescriptor_error hc
  rw [run_findDescriptor, h]
  rfl

theorem starts_of_chosen {desc : SnapshotDescriptor} (h : chosen w c snapshot = .ok (some desc))
    : Starts w id snapshot desc := by
  have hfind := run_findDescriptor c snapshot w
  rcases hrun : (findDescriptor c snapshot).run.run w with ⟨result, later⟩
  rw [h, hrun] at hfind
  obtain rfl : result = .ok desc := hfind
  exact starts_of_findDescriptor hc hrun

theorem chosen_of_notFound {text : Text}
    (h : ((check id snapshot).run.run w).1 = .error (.audit .snapshotNotFound text))
    : chosen w c snapshot = .ok none := by
  cases hchosen : chosen w c snapshot with
  | error fault =>
    obtain ⟨_, rfl⟩ := machine_of_chosen hchosen
    rw [check_of_chosen_error hc hchosen] at h
    cases h
  | ok found =>
    cases found with
    | none => rfl
    | some desc =>
      obtain ⟨_, _, _, hrun, _⟩ := starts_of_chosen hc hchosen
      rw [hrun] at h
      cases h

theorem settles : Settles w id c snapshot where
  unknown := by
    rw [← chosen_eq_none_iff]
    exact ⟨chosen_of_notFound hc, check_of_chosen_none hc⟩
  notFound text h := by
    rw [check_of_chosen_none hc (chosen_of_notFound hc h)] at h
    exact (Except.error.inj h).symm
  own desc hfind := by
    apply starts_of_chosen hc
    rw [chosen, hfind]
  asked hfind front node desc back hanswers hfront := by
    apply starts_of_chosen hc
    rw [chosen, hfind]
    exact (firstFound_eq_iff (by simp)).mpr ⟨front, _, back, hanswers, hfront, rfl⟩
  faulted fault := check_of_chosen_error hc

end Settled

/--
The descriptor of a snapshot is that of the own metafile, else that of the first file that has one
in the order of the paths, and for a check else that of the first server in the order of the
members. Files that do not describe the snapshot hide nothing; only a directory in the place of the
own metafile does.
-/
theorem finds_and_settles (catalog : Catalog) (tree : FileTree) {w : Cluster} {id : Id}
    {c : Coordinator} (snapshot : Text) (hc : w.coordinators.get? id = some c)
    : (catalog.Openable tree snapshot → catalog.Finds tree snapshot) ∧
      (tree.Proper → 0 ∉ catalog.directory snapshot →
        (catalog.Openable tree snapshot ↔
          tree.read (catalog.ownPath snapshot) ≠ .error .isDirectory) ∧
        ∀ fault, catalog.find tree snapshot = .error fault ↔
          tree.isDirectory (catalog.directory snapshot) ∧
            tree.read (catalog.ownPath snapshot) = .error .isDirectory ∧
            fault = Catalog.directoryFault) ∧
      Settles w id c snapshot := by
  refine ⟨Catalog.Openable.finds, fun proper clean => ?_, settles hc⟩
  exact ⟨Catalog.openable_iff proper clean, fun fault => Catalog.find_eq_error_iff_own proper clean⟩

set_option maxRecDepth 100000 in
theorem finds_and_settles_beside_cut
    : let desc : SnapshotDescriptor := ⟨"s", 1, 64, ["b"], []⟩
      let other : SnapshotDescriptor := ⟨"t", 1, 64, ["c"], []⟩
      let catalog : Catalog := ⟨Layout.snapshotRoot "a", "a"⟩
      let bytes := SnapshotMetadata.encode ⟨desc, "b"⟩
      let written : Except PathError FileTree := do
        let made := (FileTree.createDirectories .empty "data/a/snapshots/s").1
        let cut ← made.write "data/a/snapshots/s/a.smf" (bytes.take 20)
        cut.write "data/a/snapshots/s/b.smf" bytes
      let tree := written.toOption.getD .empty
      let server (id : Text) : Member := ⟨id, .server, 1, 0⟩
      let c : Coordinator := ⟨"a", catalog, .fixed [server "b", server "a", server "c"], 1, 2, 1000,
        3, 0, .empty, true, 0⟩
      let cluster (known : SortedMap Text SnapshotDescriptor) : Cluster :=
        { start tree with
          coordinators := .ofList [(0, c)]
          dispatchers := .ofList [(1, .scripted ⟨.empty, known, [], [], []⟩)] }
      (∃ found, catalog.find tree "s" = .ok (some found)) ∧
        Starts (cluster (.ofList [("c", other)])) 0 "t" other ∧
        ((check 0 "t").run.run (cluster .empty)).1 =
          .error (CheckRun.unknownSnapshotFault "t" "a") := by
  intro desc other catalog bytes written tree server c cluster
  have hc (known : SortedMap Text SnapshotDescriptor)
      : (cluster known).coordinators.get? 0 = some c := rfl
  obtain ⟨hfinds, hown, -⟩ := finds_and_settles catalog tree "s" (hc .empty)
  have hsettles (known : SortedMap Text SnapshotDescriptor) :=
    (finds_and_settles catalog tree "t" (hc known)).2.2
  have proper : tree.Proper := by
    change (written.toOption.getD .empty).Proper
    cases hwritten : written with
    | error error => exact FileTree.proper_empty
    | ok last =>
      obtain ⟨cut, hcut, hlast⟩ := of_bind_eq_ok hwritten
      exact ((FileTree.proper_empty.createDirectories _).update hcut).update hlast
  have openable : catalog.Openable tree "s" :=
    (hown proper (by decide +kernel)).1.mpr (by decide +kernel)
  have hfound : ∃ found, catalog.find tree "s" = .ok (some found) :=
    (hfinds openable).exists_iff.mpr
      ⟨by decide +kernel, "data/a/snapshots/s/b.smf", desc,
        .inr ⟨"b.smf", 1, by decide +kernel, by decide +kernel, by decide +kernel⟩, bytes,
        ⟨desc, "b"⟩, by decide +kernel, by decide +kernel, rfl, rfl⟩
  have hlocal : catalog.find tree "t" = .ok none := by decide +kernel
  have hknown : peerAnswers (cluster (.ofList [("c", other)])) c "t" =
      [(("b" : Text), Except.ok none)] ++ (("c" : Text), .ok (some other)) :: [] := by
    decide +kernel
  have hunknown : peerAnswers (cluster .empty) c "t" =
      [(("b" : Text), Except.ok none), (("c" : Text), .ok none)] := by decide +kernel
  refine ⟨hfound, ?_, ?_⟩
  . exact (hsettles _).asked hlocal _ _ _ _ hknown (by simp)
  . refine (hsettles _).unknown.mpr ⟨hlocal, ?_⟩
    rw [hunknown]
    simp

set_option maxRecDepth 100000 in
/--
A directory stands where a node keeps its own metafile, and that of another node, which describes
the snapshot, stands beside it. The search ends with a fault.
-/
theorem fault_of_directory
    : let desc : SnapshotDescriptor := ⟨"s", 1, 64, ["b"], []⟩
      let catalog : Catalog := ⟨Layout.snapshotRoot "a", "a"⟩
      let made := (FileTree.createDirectories .empty "data/a/snapshots/s/a.smf").1
      let written :=
        made.write "data/a/snapshots/s/b.smf" (SnapshotMetadata.encode ⟨desc, "b"⟩)
      let tree := written.toOption.getD .empty
      catalog.IsCandidate tree "s" "data/a/snapshots/s/b.smf" ∧
        Catalog.Describes tree "data/a/snapshots/s/b.smf" "s" desc ∧
        catalog.find tree "s" = .error Catalog.directoryFault := by
  intro desc catalog made written tree
  exact ⟨⟨"b.smf", 0, by decide +kernel, by decide +kernel, by decide +kernel⟩,
    ⟨SnapshotMetadata.encode ⟨desc, "b"⟩, ⟨desc, "b"⟩, by decide +kernel, by decide +kernel, rfl,
      rfl⟩,
    by decide +kernel⟩

end Cluster

end SnapshotAudit
