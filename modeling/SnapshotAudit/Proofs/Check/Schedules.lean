import Mathlib.Data.List.Induction
import SnapshotAudit.Proofs.Check.Course
import SnapshotAudit.Verdict.Report

/-!
This module contains that the verdict of a check does not depend on its schedule. When each
participant has one outcome to give, it does not matter in which order the outcomes come in, under
which names they come, how often they come, or what else is offered for a node that has one.
-/

namespace SnapshotAudit

namespace SharedCheck

/--
How far a check has come that is neither cancelled nor out of time. What is recorded for a node that
has no outcome yet is the one that it has to give; what is offered for any other node may be
anything.
-/
inductive Scheduled (home : Text) (given : Text → NodeOutcome) (first : SharedCheck)
    : SharedCheck → Prop where
  | start : Scheduled home given first first
  /-- The handler of a job that was sent to a node is told how it went. -/
  | answered {check : SharedCheck} (earlier : Scheduled home given first check) (node : Text)
    (result : DispatchResult)
    (remote : node ∈ CheckRun.remoteOf home check.run.participants)
    (gives : result.contribution node = { given node with node := node } ∨
      check.run.outcomes.contains node = true)
    : Scheduled home given first (check.step (.record (result.contribution node)))
  /-- The inspection on the node of the coordinator itself is done. -/
  | inspected {check : SharedCheck} (earlier : Scheduled home given first check)
    (outcome : NodeOutcome) (takesPart : home ∈ check.run.participants)
    (gives : { outcome with node := home } = { given home with node := home } ∨
      check.run.outcomes.contains home = true)
    : Scheduled home given first (check.step (.record { outcome with node := home }))
  | abandoned {check : SharedCheck} (earlier : Scheduled home given first check)
    : Scheduled home given first (check.step .abandon)
  | delivered {check : SharedCheck} (earlier : Scheduled home given first check) (index : Nat)
    : Scheduled home given first (check.step (.deliver index))

section Agreement

variable (assignment : Assignment) (desc : SnapshotDescriptor) (members : List Member)
variable (given : Text → NodeOutcome)

def nodes : List Text :=
  CheckRun.participantsOf assignment members ++
    CheckRun.offline desc assignment (CheckRun.participantsOf assignment members)

/--
What is recorded for each node when all have given their outcomes.
-/
def agreed (node : Text) : NodeOutcome :=
  if node ∈ CheckRun.offline desc assignment (CheckRun.participantsOf assignment members) then
    CheckRun.offlineOutcome node
  else { given node with node := node }

structure Agrees (job : UInt64) (check : SharedCheck) : Prop where
  standing : check.Standing
  topology : check.run.topology = (CheckRun.startOn assignment job desc members).topology
  recorded : ∀ node outcome, check.run.outcomes.get? node = some outcome →
    node ∈ nodes assignment desc members ∧ outcome = agreed assignment desc members given node
  absent : ∀ node ∈ CheckRun.offline desc assignment (CheckRun.participantsOf assignment members),
    check.run.outcomes.contains node = true
  complete : check.run.finished = true → ∀ node ∈ nodes assignment desc members,
    check.run.outcomes.contains node = true

variable {assignment desc members given} {job : UInt64} {check : SharedCheck}

theorem not_offline_of_participant {node : Text}
    (h : node ∈ CheckRun.participantsOf assignment members)
    : node ∉ CheckRun.offline desc assignment (CheckRun.participantsOf assignment members) := by
  simp [CheckRun.offline, h]

theorem agrees_startOn
    : Agrees assignment desc members given job (startOn assignment job desc members) := by
  have hget (node : Text) :=
    CheckRun.get?_outcomes_startOn job desc members assignment node
  refine ⟨standing_startOn assignment job desc members, rfl, ?_, ?_, ?_⟩
  . intro node outcome hrecorded
    simp only [startOn, hget] at hrecorded
    split at hrecorded
    next habsent =>
      refine ⟨List.mem_append_right _ habsent, ?_⟩
      rw [agreed, if_pos habsent, Option.some.inj hrecorded]
    next => cases hrecorded
  . intro node habsent
    simp [startOn, SortedMap.contains, hget, habsent]
  . intro closed node hnode
    -- without participants the missing nodes are all nodes
    have hnone : CheckRun.participantsOf assignment members = [] := by
      simpa [startOn] using closed
    rw [nodes, hnone, List.nil_append, ← hnone] at hnode
    simp [startOn, SortedMap.contains, hget, hnode]

theorem Agrees.participants (h : Agrees assignment desc members given job check)
    : check.run.participants = CheckRun.participantsOf assignment members := by
  have := congrArg (fun t => t.2.2.2.1) h.topology
  simpa [CheckRun.topology] using this

theorem Agrees.expected (h : Agrees assignment desc members given job check)
    : check.run.expected = (nodes assignment desc members).length := by
  have := congrArg (fun t => t.2.2.2.2) h.topology
  simpa [CheckRun.topology, nodes] using this

theorem Agrees.record (h : Agrees assignment desc members given job check)
    {outcome : NodeOutcome} (takesPart : outcome.node ∈ check.run.participants)
    (gives : outcome = { given outcome.node with node := outcome.node } ∨
      check.run.outcomes.contains outcome.node = true)
    : Agrees assignment desc members given job (check.step (.record outcome)) := by
  cases hfinished : check.run.finished with
  | true =>
    have hidle : check.step (.record outcome) = check := by
      simp only [step, (check.run.record_move outcome).eq_of_finished hfinished, take_idle]
    rwa [hidle]
  | false =>
    have hget := CheckRun.get?_outcomes_record hfinished outcome
    have hrecorded : ∀ node first, (check.run.record outcome).1.outcomes.get? node = some first →
        node ∈ nodes assignment desc members ∧
          first = agreed assignment desc members given node := by
      intro node first hfirst
      rw [hget] at hfirst
      cases hold : check.run.outcomes.get? node with
      | some old =>
        rw [hold, Option.some_or] at hfirst
        exact h.recorded node first (hold.trans hfirst)
      | none =>
        rw [hold, Option.none_or] at hfirst
        split at hfirst
        next heq =>
          subst heq
          cases hfirst
          rw [h.participants] at takesPart
          refine ⟨List.mem_append_left _ takesPart, ?_⟩
          rw [agreed, if_neg (not_offline_of_participant takesPart)]
          exact gives.resolve_right (by simp [SortedMap.contains, hold])
        next => cases hfirst
    refine ⟨standing_step h.standing _, ?_, hrecorded, ?_, ?_⟩
    . exact (check.run.record_move outcome).topology_eq.trans h.topology
    . intro node habsent
      have hold := h.absent node habsent
      simp only [SortedMap.contains] at hold ⊢
      simp only [step, take, hget, Option.isSome_or, hold, Bool.true_or]
    . intro closed node hnode
      have hsize := CheckRun.expected_le_of_finished_record hfinished closed
      rw [h.expected] at hsize
      apply SortedMap.contains_of_length_le _ hsize hnode
      intro key hkey
      obtain ⟨first, hfirst⟩ := SortedMap.contains_eq_true_iff.mp hkey
      exact (hrecorded key first hfirst).1

theorem Agrees.deliver (h : Agrees assignment desc members given job check) (index : Nat)
    : Agrees assignment desc members given job (check.step (.deliver index)) := by
  have hstanding := standing_step h.standing (.deliver index)
  unfold step at hstanding ⊢
  dsimp only at hstanding ⊢
  split
  next => exact h
  next result hresult =>
    rw [hresult] at hstanding
    exact ⟨hstanding, h.topology, h.recorded, h.absent, h.complete⟩

theorem agrees_of_scheduled {home : Text}
    (h : Scheduled home given (startOn assignment job desc members) check)
    : Agrees assignment desc members given job check := by
  induction h with
  | start => exact agrees_startOn
  | answered earlier node result remote gives ih =>
    apply ih.record
    . simpa using (List.mem_filter.mp remote).1
    . simpa using gives
  | inspected earlier outcome takesPart gives ih => exact ih.record takesPart gives
  | abandoned earlier ih =>
    exact ⟨standing_step ih.standing .abandon, ih.topology, ih.recorded, ih.absent, ih.complete⟩
  | delivered earlier index ih => exact ih.deliver index

theorem granted_of_scheduled {home : Text} {first : SharedCheck}
    (h : Scheduled home given first check) : check.granted = first.granted := by
  induction h with
  | start => rfl
  | answered _ _ _ _ _ ih => exact ih
  | inspected _ _ _ _ ih => exact ih
  | abandoned _ ih => exact ih
  | delivered _ index ih =>
    simp only [step]
    split
    next => exact ih
    next => exact ih

theorem Agrees.of_verdict (h : Agrees assignment desc members given job check)
    {verdict : Verdict} (hverdict : .verdict verdict ∈ check.promised)
    : verdict = aggregate desc assignment check.run.outcomes ∧
      ∀ node, check.run.outcomes.get? node =
        if node ∈ nodes assignment desc members then
          some (agreed assignment desc members given node)
        else none := by
  have hdesc : check.run.desc = desc := by
    have := congrArg (fun t => t.2.1) h.topology
    simpa [CheckRun.topology] using this
  have hassignment : check.run.assignment = assignment := by
    have := congrArg (fun t => t.2.2.1) h.topology
    simpa [CheckRun.topology] using this
  cases h.standing with
  | running _ nothing => simp [nothing] at hverdict
  | withdrawn _ cancelled => simp [cancelled] at hverdict
  | decided closed decided =>
    simp only [decided, List.mem_singleton, CheckResult.verdict.injEq] at hverdict
    refine ⟨by rw [hverdict, CheckRun.verdict, hdesc, hassignment], ?_⟩
    intro node
    split
    next hnode =>
      obtain ⟨outcome, hrecorded⟩ :=
        SortedMap.contains_eq_true_iff.mp (h.complete closed node hnode)
      rw [hrecorded, (h.recorded node outcome hrecorded).2]
    next hnode =>
      cases hrecorded : check.run.outcomes.get? node with
      | none => rfl
      | some outcome => exact absurd (h.recorded node outcome hrecorded).1 hnode

end Agreement

/--
Two checks of one snapshot under one assignment, with the same members and the same outcome of every
participant, come to the same verdict if they come to one, and print the same report: in whatever
order outcomes are recorded, whatever names they carry and however often they are offered.
-/
theorem verdict_eq_of_scheduled (assignment : Assignment) (desc : SnapshotDescriptor)
    (members : List Member) (given : Text → NodeOutcome)
    (home other : Text) (job number : UInt64) (check rival : SharedCheck)
    (hcheck : Scheduled home given (startOn assignment job desc members) check)
    (hrival : Scheduled other given (startOn assignment number desc members) rival)
    (verdict second : Verdict) (hverdict : .verdict verdict ∈ check.promised)
    (hsecond : .verdict second ∈ rival.promised)
    : verdict = second ∧ ∀ verbose, verdict.report verbose = second.report verbose := by
  obtain ⟨hfirst, hget⟩ := (agrees_of_scheduled hcheck).of_verdict hverdict
  obtain ⟨hlast, hget'⟩ := (agrees_of_scheduled hrival).of_verdict hsecond
  have houtcomes : check.run.outcomes = rival.run.outcomes :=
    SortedMap.ext_get? fun node => (hget node).trans (hget' node).symm
  have heq : verdict = second := by rw [hfirst, hlast, houtcomes]
  exact ⟨heq, fun verbose => by rw [heq]⟩

theorem verdict_eq_of_scheduled_pair
    : let desc : SnapshotDescriptor := ⟨"s", 1, 64, ["a", "b", "c"], [⟨1, "g", 2, 1, []⟩]⟩
      let members : List Member :=
        [⟨"a", .server, 0, 0⟩, ⟨"b", .server, 0, 0⟩, ⟨"c", .client, 0, 0⟩]
      let given (node : Text) : NodeOutcome :=
        { NodeOutcome.blank node with missingPartitions := [⟨1, 0⟩] }
      let asked (node carried : Text) := (DispatchResult.replied (given carried)).contribution node
      let inspected (node carried : Text) := { given carried with node }
      let first := startOn (Rendezvous.assign desc) 7 desc members
      let check := (((first.step (.record (inspected "a" "x"))).step (.record (asked "b" "y"))).step
        (.record ((DispatchResult.replied (.blank "z")).contribution "b"))).step (.deliver 0)
      let second := startOn (Rendezvous.assign desc) 8 desc members
      let rival := ((second.step (.record (asked "a" "b"))).step (.deliver 0)).step
        (.record (inspected "b" "b"))
      .verdict check.run.verdict ∈ check.promised ∧ .verdict rival.run.verdict ∈ rival.promised ∧
        check.run.verdict = rival.run.verdict := by
  intro desc members given asked inspected first check second rival
  have hcheck : Scheduled "a" given first check := by
    apply Scheduled.delivered
    apply Scheduled.answered _ "b" (.replied (.blank "z")) (by decide +kernel)
      (.inr (by decide +kernel))
    apply Scheduled.answered _ "b" (.replied (given "y")) (by decide +kernel) (.inl rfl)
    exact Scheduled.start.inspected (given "x") (by decide +kernel) (.inl rfl)
  have hrival : Scheduled "b" given second rival := by
    apply Scheduled.inspected _ (given "b") (by decide +kernel) (.inl rfl)
    apply Scheduled.delivered
    exact Scheduled.start.answered "a" (.replied (given "b")) (by decide +kernel) (.inl rfl)
  have hverdict : .verdict check.run.verdict ∈ check.promised := by decide +kernel
  have hsecond : .verdict rival.run.verdict ∈ rival.promised := by decide +kernel
  exact ⟨hverdict, hsecond, (verdict_eq_of_scheduled (Rendezvous.assign desc) desc members given
    "a" "b" 7 8 check rival hcheck hrival _ _ hverdict hsecond).1⟩

end SharedCheck

namespace Course

/--
What an event says about a participant is what it has to give, and nothing ends the check early.
-/
def Gives (home : Text) (participants : List Text) (given : Text → NodeOutcome)
    (event : CheckEvent) : Prop :=
  match event with
  | .answered node result => node ∈ CheckRun.remoteOf home participants →
    result.contribution node = { given node with node := node }
  | .inspected outcome => home ∈ participants →
    { outcome with node := home } = { given home with node := home }
  | .expired | .cancelled => False
  | .abandoned | .delivered _ => True

/--
What a coordinator does with a check that is neither cancelled nor out of time is a schedule of it.
-/
theorem scheduled_run {home : Text} {timeout : Nat} {job : UInt64} {desc : SnapshotDescriptor}
    {members : List Member} {given : Text → NodeOutcome} {events : List CheckEvent}
    (h : ∀ event ∈ events, Gives home (CheckRun.invited desc members) given event)
    : (SharedCheck.startOn (Rendezvous.assign desc) job desc members).Scheduled home given
      ((start home timeout job desc members).run events).check := by
  induction events using List.reverseRecOn with
  | nil => exact .start
  | append_singleton history event ih =>
    have earlier := ih fun e he => h e (List.mem_append_left _ he)
    have ledger : Ledger home timeout job desc members history _ := ledger_run history
    have gives : Gives home (CheckRun.invited desc members) given event := h event (by simp)
    have hrun : (start home timeout job desc members).run (history ++ [event]) =
        ((start home timeout job desc members).run history).step event := by
      simp [run]
    rw [hrun]
    cases event with
    | answered node result =>
      simp only [step]
      split
      next hwaiting =>
        have hremote := ((ledger.mem_waiting node).mp hwaiting).1
        apply earlier.answered node result _ (.inl (gives hremote))
        rw [ledger.told.participants]
        exact hremote
      next => exact earlier
    | inspected outcome =>
      simp only [step]
      split
      next hinspecting =>
        have htakes := (ledger.inspecting_iff.mp hinspecting).1
        rw [ledger.home_eq]
        apply earlier.inspected outcome _ (.inl (gives htakes))
        rw [ledger.told.participants]
        exact htakes
      next => exact earlier
    | expired => cases gives
    | cancelled => cases gives
    | abandoned => exact earlier.abandoned
    | delivered index => exact earlier.delivered index

end Course

end SnapshotAudit
