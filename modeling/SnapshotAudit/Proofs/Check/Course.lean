import SnapshotAudit.Proofs.Check.Threads
import SnapshotAudit.Proofs.Verdict.Aggregation

/-!
This module contains the course of a check in the hands of its coordinator: which jobs are sent, and
what counts for each node when answers, failures, the local inspection and the deadline come in any
order.
-/

namespace SnapshotAudit

inductive CheckEvent where
  /-- The handler of a job that was sent to a node is told how it went. -/
  | answered (node : Text) (result : DispatchResult)
  /-- The inspection on the node of the coordinator itself is done. -/
  | inspected (outcome : NodeOutcome)
  | expired
  | cancelled
  | abandoned
  | delivered (index : Nat)
deriving DecidableEq

/--
A check with what its coordinator waits for: the nodes whose handlers have not been told anything,
and the local inspection.
-/
structure Course where
  home : Text
  timeout : Nat
  check : SharedCheck
  sent : List (Text × VerifyRequest)
  waiting : List Text
  inspecting : Bool

namespace Course

def start (home : Text) (timeout : Nat) (job : UInt64) (desc : SnapshotDescriptor)
    (members : List Member) : Course where
  home := home
  timeout := timeout
  check := .start job desc members
  sent := (CheckRun.start job desc members).remoteJobs home
  waiting := CheckRun.remoteOf home (CheckRun.start job desc members).participants
  inspecting := home ∈ (CheckRun.start job desc members).participants

/--
Let something happen. A handler is told something only once, and the local inspection is done only
once.
-/
def step (course : Course) (event : CheckEvent) : Course :=
  match event with
  | .answered node result =>
    if node ∈ course.waiting then
      { course with
        check := course.check.step (.record (result.contribution node))
        waiting := course.waiting.erase node }
    else course
  | .inspected outcome =>
    if course.inspecting then
      { course with
        check := course.check.step (.record { outcome with node := course.home })
        inspecting := false }
    else course
  | .expired => { course with check := course.check.step (.expire course.timeout) }
  | .cancelled => { course with check := course.check.step .cancel }
  | .abandoned => { course with check := course.check.step .abandon }
  | .delivered index => { course with check := course.check.step (.deliver index) }

def run (course : Course) (events : List CheckEvent) : Course :=
  events.foldl step course

end Course

namespace CheckEvent

def tells (home : Text) (timeout : Nat) (participants : List Text) (event : CheckEvent)
    (node : Text) : Option NodeOutcome :=
  match event with
  | answered other result =>
    if node = other ∧ node ∈ CheckRun.remoteOf home participants then
      some (result.contribution node)
    else none
  | inspected outcome =>
    if node = home ∧ node ∈ participants then some { outcome with node := home } else none
  | expired =>
    if node ∈ participants then some (CheckRun.overdueOutcome node timeout) else none
  | cancelled | abandoned | delivered _ => none

theorem mem_participants_of_tells {home : Text} {timeout : Nat} {participants : List Text}
    {event : CheckEvent} {node : Text} {outcome : NodeOutcome}
    (h : event.tells home timeout participants node = some outcome) : node ∈ participants := by
  unfold tells at h
  split at h
  next =>
    split at h
    next hmem => exact (List.mem_filter.mp hmem.2).1
    next => cases h
  next =>
    split at h
    next hmem => exact hmem.2
    next => cases h
  next =>
    split at h
    next hmem => exact hmem
    next => cases h
  all_goals cases h

end CheckEvent

namespace Course

section History

variable (home : Text) (timeout : Nat) (desc : SnapshotDescriptor) (members : List Member)

def firstSaid (events : List CheckEvent) (node : Text) : Option NodeOutcome :=
  events.findSome? fun event => event.tells home timeout (CheckRun.invited desc members) node

/--
What counts for a node: that it is not there, or the first thing that the events say about it.
-/
def counted (events : List CheckEvent) (node : Text) : Option NodeOutcome :=
  if node ∈ CheckRun.absent desc members then some (CheckRun.offlineOutcome node)
  else firstSaid home timeout desc members events node

variable {home timeout desc members}

theorem counted_append (history : List CheckEvent) (event : CheckEvent) (node : Text)
    : counted home timeout desc members (history ++ [event]) node =
      (counted home timeout desc members history node).or
        (event.tells home timeout (CheckRun.invited desc members) node) := by
  unfold counted firstSaid
  split
  next => rfl
  next =>
    simp only [List.findSome?_append, List.findSome?_cons, List.findSome?_nil]
    cases event.tells home timeout (CheckRun.invited desc members) node <;> rfl

theorem mem_of_counted {history : List CheckEvent} {node : Text} {outcome : NodeOutcome}
    (h : counted home timeout desc members history node = some outcome)
    : node ∈ CheckRun.invited desc members ∨ node ∈ CheckRun.absent desc members := by
  unfold counted at h
  split at h
  next habsent => exact .inr habsent
  next =>
    obtain ⟨event, _, htells⟩ := List.exists_of_findSome?_eq_some h
    exact .inl (CheckEvent.mem_participants_of_tells htells)

theorem isSome_counted_of_tells {history : List CheckEvent} {event : CheckEvent} {node : Text}
    (hevent : event ∈ history)
    (h : (event.tells home timeout (CheckRun.invited desc members) node).isSome = true)
    : (counted home timeout desc members history node).isSome = true := by
  unfold counted
  split
  next => rfl
  next => exact List.findSome?_isSome_iff.mpr ⟨event, hevent, h⟩

end History

section Told

variable (job : UInt64) (home : Text) (timeout : Nat) (desc : SnapshotDescriptor)
variable (members : List Member)

/--
A check that was not cancelled has for each node what counts for it, and when it is over no
participant is left without anything.
-/
structure Told (history : List CheckEvent) (check : SharedCheck) : Prop where
  standing : check.Standing
  topology : check.run.topology = (CheckRun.start job desc members).topology
  outcomes : check.granted = 0 → ∀ node,
    check.run.outcomes.get? node = counted home timeout desc members history node
  complete : check.granted = 0 → check.run.finished = true →
    ∀ node ∈ CheckRun.invited desc members,
      (counted home timeout desc members history node).isSome = true

variable {job home timeout desc members}
variable {history : List CheckEvent} {check : SharedCheck}

theorem Told.participants (h : Told job home timeout desc members history check)
    : check.run.participants = CheckRun.invited desc members := by
  have := congrArg (fun t => t.2.2.2.1) h.topology
  simpa [CheckRun.topology] using this

theorem Told.expected (h : Told job home timeout desc members history check)
    : check.run.expected =
      (CheckRun.invited desc members).length + (CheckRun.absent desc members).length := by
  have := congrArg (fun t => t.2.2.2.2) h.topology
  simpa [CheckRun.topology] using this

theorem Told.granted_of_running (h : Told job home timeout desc members history check)
    (running : check.run.finished = false) : check.granted = 0 := by
  cases h.standing with
  | running _ _ refused => exact refused
  | decided closed => simp [running] at closed
  | withdrawn closed => simp [running] at closed

theorem told_start
    : Told job home timeout desc members [] (SharedCheck.start job desc members) := by
  refine ⟨SharedCheck.standing_start job desc members, rfl, ?_, ?_⟩
  . intro _ node
    exact CheckRun.get?_outcomes_start job desc members node
  . intro _ closed node hnode
    have hnone : CheckRun.invited desc members = [] := by
      simpa [SharedCheck.start] using closed
    simp [hnone] at hnode

theorem contains_of_size {outcomes : SortedMap Text NodeOutcome}
    (houtcomes : ∀ node, outcomes.get? node = counted home timeout desc members history node)
    (hsize : (CheckRun.invited desc members).length + (CheckRun.absent desc members).length ≤
      outcomes.size)
    {node : Text} (hnode : node ∈ CheckRun.invited desc members)
    : outcomes.contains node = true := by
  -- nobody else has an outcome, so that with so many of them no node is left
  have hsubset : ∀ key, outcomes.contains key = true →
      key ∈ CheckRun.invited desc members ++ CheckRun.absent desc members := by
    intro key hkey
    obtain ⟨outcome, hget⟩ := SortedMap.contains_eq_true_iff.mp hkey
    rw [houtcomes] at hget
    exact List.mem_append.mpr (mem_of_counted hget)
  rw [← List.length_append] at hsize
  exact SortedMap.contains_of_length_le hsubset hsize (List.mem_append_left _ hnode)

theorem Told.ignore (h : Told job home timeout desc members history check) (event : CheckEvent)
    (hknown : check.granted = 0 → ∀ node,
      (event.tells home timeout (CheckRun.invited desc members) node).isSome = true →
        (counted home timeout desc members history node).isSome = true)
    : Told job home timeout desc members (history ++ [event]) check := by
  have hsame (granted : check.granted = 0) (node : Text) :
      counted home timeout desc members (history ++ [event]) node =
        counted home timeout desc members history node := by
    rw [counted_append]
    have hknown := hknown granted node
    cases hfirst : counted home timeout desc members history node with
    | some first => rfl
    | none => simpa [hfirst] using hknown
  refine ⟨h.standing, h.topology, ?_, ?_⟩
  . intro granted node
    rw [hsame granted, h.outcomes granted]
  . intro granted closed node hnode
    rw [hsame granted]
    exact h.complete granted closed node hnode

theorem Told.ignore_of_finished (h : Told job home timeout desc members history check)
    (closed : check.run.finished = true) (event : CheckEvent)
    : Told job home timeout desc members (history ++ [event]) check := by
  apply h.ignore event
  intro granted node htells
  obtain ⟨outcome, htells⟩ := Option.isSome_iff_exists.mp htells
  exact h.complete granted closed node (CheckEvent.mem_participants_of_tells htells)

theorem Told.record (h : Told job home timeout desc members history check) {event : CheckEvent}
    {outcome : NodeOutcome}
    (htells : ∀ node, event.tells home timeout (CheckRun.invited desc members) node =
      if node = outcome.node then some outcome else none)
    : Told job home timeout desc members (history ++ [event]) (check.step (.record outcome)) := by
  cases hfinished : check.run.finished with
  | true =>
    have hidle : check.step (.record outcome) = check := by
      simp only [SharedCheck.step, (check.run.record_move outcome).eq_of_finished hfinished,
        SharedCheck.take_idle]
    rw [hidle]
    exact h.ignore_of_finished hfinished event
  | false =>
    have hget (node : Text) : (check.run.record outcome).1.outcomes.get? node =
        counted home timeout desc members (history ++ [event]) node := by
      rw [CheckRun.get?_outcomes_record hfinished, h.outcomes (h.granted_of_running hfinished),
        counted_append, htells]
    refine ⟨SharedCheck.standing_step h.standing _, ?_, fun _ => hget, ?_⟩
    . exact (check.run.record_move outcome).topology_eq.trans h.topology
    . intro _ closed node hnode
      have hsize := CheckRun.expected_le_of_finished_record hfinished closed
      rw [h.expected] at hsize
      rw [← hget]
      exact contains_of_size hget hsize hnode

theorem Told.expire (h : Told job home timeout desc members history check)
    : Told job home timeout desc members (history ++ [.expired])
      (check.step (.expire timeout)) := by
  cases hfinished : check.run.finished with
  | true =>
    have hidle : check.step (.expire timeout) = check := by
      simp only [SharedCheck.step, (check.run.expire_move timeout).eq_of_finished hfinished,
        SharedCheck.take_idle]
    rw [hidle]
    exact h.ignore_of_finished hfinished .expired
  | false =>
    refine ⟨SharedCheck.standing_step h.standing _, ?_, ?_, ?_⟩
    . exact (check.run.expire_move timeout).topology_eq.trans h.topology
    . intro _ node
      rw [counted_append, ← h.outcomes (h.granted_of_running hfinished)]
      simp only [SharedCheck.step, SharedCheck.take, CheckRun.get?_outcomes_expire hfinished,
        h.participants, CheckEvent.tells]
    . intro _ _ node hnode
      apply isSome_counted_of_tells (List.mem_append_right history (List.mem_singleton_self _))
      simp [CheckEvent.tells, hnode]

theorem Told.cancel (h : Told job home timeout desc members history check)
    : Told job home timeout desc members (history ++ [.cancelled]) (check.step .cancel) := by
  cases hfinished : check.run.finished with
  | true =>
    have hidle : check.step .cancel = check := by
      simp only [SharedCheck.step, CheckRun.cancel_of_finished hfinished, SharedCheck.take_idle]
      split <;> rfl
    rw [hidle]
    exact h.ignore_of_finished hfinished .cancelled
  | false =>
    cases habandoned : check.abandoned with
    | true =>
      have hidle : check.step .cancel = check := by simp [SharedCheck.step, habandoned]
      rw [hidle]
      exact h.ignore .cancelled (by simp [CheckEvent.tells])
    | false =>
      -- what was collected is gone, and nothing is claimed about it any more
      have hgranted : (check.step .cancel).granted ≠ 0 := by
        simp [SharedCheck.step, habandoned, CheckRun.cancel_of_running hfinished]
      refine ⟨SharedCheck.standing_step h.standing _, ?_, ?_, ?_⟩
      . simpa [SharedCheck.step, habandoned, SharedCheck.take] using
          (CheckRun.topology_cancel check.run).trans h.topology
      . intro granted
        exact absurd granted hgranted
      . intro granted
        exact absurd granted hgranted

theorem Told.abandon (h : Told job home timeout desc members history check)
    : Told job home timeout desc members (history ++ [.abandoned]) (check.step .abandon) := by
  have hsame := h.ignore .abandoned (by simp [CheckEvent.tells])
  exact ⟨SharedCheck.standing_step h.standing _, hsame.topology, hsame.outcomes, hsame.complete⟩

theorem Told.deliver (h : Told job home timeout desc members history check) (index : Nat)
    : Told job home timeout desc members (history ++ [.delivered index])
      (check.step (.deliver index)) := by
  have hsame := h.ignore (.delivered index) (by simp [CheckEvent.tells])
  have hstanding := SharedCheck.standing_step h.standing (.deliver index)
  unfold SharedCheck.step at hstanding ⊢
  dsimp only at hstanding ⊢
  split
  next => exact hsame
  next result hresult =>
    rw [hresult] at hstanding
    exact ⟨hstanding, hsame.topology, hsame.outcomes, hsame.complete⟩

end Told

section Ledger

variable (home : Text) (timeout : Nat) (job : UInt64) (desc : SnapshotDescriptor)
variable (members : List Member)

/--
What is known about a course after some events. A node is waited for as long as no event has
answered for it.
-/
structure Ledger (history : List CheckEvent) (course : Course) : Prop where
  home_eq : course.home = home
  timeout_eq : course.timeout = timeout
  sent_eq : course.sent = (CheckRun.start job desc members).remoteJobs home
  told : Told job home timeout desc members history course.check
  waiting_nodup : course.waiting.Nodup
  mem_waiting : ∀ node, node ∈ course.waiting ↔
    node ∈ CheckRun.remoteOf home (CheckRun.invited desc members) ∧
      ∀ result, .answered node result ∉ history
  inspecting_iff : course.inspecting = true ↔
    home ∈ CheckRun.invited desc members ∧ ∀ outcome, .inspected outcome ∉ history

variable {home timeout job desc members}
variable {history : List CheckEvent} {course : Course}

variable (home timeout job desc members) in
theorem ledger_start
    : Ledger home timeout job desc members [] (start home timeout job desc members) where
  home_eq := rfl
  timeout_eq := rfl
  sent_eq := rfl
  told := told_start
  waiting_nodup := by
    simp only [start, CheckRun.start_participants, CheckRun.remoteOf]
    exact List.filter_sublist.nodup (CheckRun.nodup_invited desc members)
  mem_waiting := by simp [start]
  inspecting_iff := by simp [start]

theorem Ledger.answered (h : Ledger home timeout job desc members history course) (node : Text)
    (result : DispatchResult)
    : Ledger home timeout job desc members (history ++ [.answered node result])
      (course.step (.answered node result)) := by
  simp only [step]
  split
  next hwaiting =>
    have hremote := ((h.mem_waiting node).mp hwaiting).1
    refine ⟨h.home_eq, h.timeout_eq, h.sent_eq, ?_, h.waiting_nodup.erase node, ?_, ?_⟩
    . apply h.told.record
      intro other
      by_cases heq : other = node
      . subst heq
        simp [CheckEvent.tells, hremote]
      . simp [CheckEvent.tells, heq]
    . intro other
      rw [h.waiting_nodup.mem_erase_iff, h.mem_waiting]
      simp only [List.mem_append, List.mem_singleton, CheckEvent.answered.injEq, not_or,
        not_and]
      constructor
      . rintro ⟨hne, hmem, hnone⟩
        exact ⟨hmem, fun other => ⟨hnone other, fun heq => absurd heq hne⟩⟩
      . rintro ⟨hmem, hnone⟩
        exact ⟨fun heq => (hnone result).2 heq rfl, hmem, fun other => (hnone other).1⟩
    . simpa using h.inspecting_iff
  next hwaiting =>
    -- either the node has answered before, or it is none of those that were sent a job
    have hdone (hremote : node ∈ CheckRun.remoteOf home (CheckRun.invited desc members)) :
        ∃ earlier, .answered node earlier ∈ history := by
      apply Classical.byContradiction
      intro hnone
      apply hwaiting
      rw [h.mem_waiting]
      exact ⟨hremote, fun earlier hmem => hnone ⟨earlier, hmem⟩⟩
    refine ⟨h.home_eq, h.timeout_eq, h.sent_eq, ?_, h.waiting_nodup, ?_, ?_⟩
    . apply h.told.ignore
      intro _ other htells
      simp only [CheckEvent.tells] at htells
      split at htells
      next hremote =>
        obtain ⟨rfl, hremote⟩ := hremote
        obtain ⟨earlier, hearlier⟩ := hdone hremote
        exact isSome_counted_of_tells hearlier (by simp [CheckEvent.tells, hremote])
      next => simp at htells
    . intro other
      rw [h.mem_waiting]
      simp only [List.mem_append, List.mem_singleton, CheckEvent.answered.injEq, not_or,
        not_and]
      constructor
      . rintro ⟨hmem, hnone⟩
        refine ⟨hmem, fun later => ⟨hnone later, ?_⟩⟩
        rintro rfl
        obtain ⟨earlier, hearlier⟩ := hdone hmem
        exact absurd hearlier (hnone earlier)
      . rintro ⟨hmem, hnone⟩
        exact ⟨hmem, fun other => (hnone other).1⟩
    . simpa using h.inspecting_iff

theorem Ledger.inspected (h : Ledger home timeout job desc members history course)
    (outcome : NodeOutcome)
    : Ledger home timeout job desc members (history ++ [.inspected outcome])
      (course.step (.inspected outcome)) := by
  simp only [step]
  split
  next hinspecting =>
    have hhome := (h.inspecting_iff.mp hinspecting).1
    refine ⟨h.home_eq, h.timeout_eq, h.sent_eq, ?_, h.waiting_nodup, ?_, ?_⟩
    . apply h.told.record
      intro other
      rw [h.home_eq]
      by_cases heq : other = home
      . subst heq
        simp [CheckEvent.tells, hhome]
      . simp [CheckEvent.tells, heq]
    . intro other
      rw [h.mem_waiting]
      simp
    . simp only [Bool.false_eq_true, List.mem_append, List.mem_singleton, not_or, false_iff,
        not_and]
      intro _ hnone
      exact (hnone outcome).2 rfl
  next hinspecting =>
    have hdone (hhome : home ∈ CheckRun.invited desc members) :
        ∃ earlier, .inspected earlier ∈ history := by
      apply Classical.byContradiction
      intro hnone
      apply hinspecting
      rw [h.inspecting_iff]
      exact ⟨hhome, fun earlier hmem => hnone ⟨earlier, hmem⟩⟩
    refine ⟨h.home_eq, h.timeout_eq, h.sent_eq, ?_, h.waiting_nodup, ?_, ?_⟩
    . apply h.told.ignore
      intro _ other htells
      simp only [CheckEvent.tells] at htells
      split at htells
      next hhome =>
        obtain ⟨rfl, hhome⟩ := hhome
        obtain ⟨earlier, hearlier⟩ := hdone hhome
        exact isSome_counted_of_tells hearlier (by simp [CheckEvent.tells, hhome])
      next => simp at htells
    . intro other
      rw [h.mem_waiting]
      simp
    . rw [h.inspecting_iff]
      simp only [List.mem_append, List.mem_singleton, not_or]
      constructor
      . rintro ⟨hhome, hnone⟩
        obtain ⟨earlier, hearlier⟩ := hdone hhome
        exact absurd hearlier (hnone earlier)
      . rintro ⟨hhome, hnone⟩
        exact ⟨hhome, fun other => (hnone other).1⟩

theorem Ledger.other (h : Ledger home timeout job desc members history course)
    {event : CheckEvent} {check : SharedCheck}
    (told : Told job home timeout desc members (history ++ [event]) check)
    (hanswered : ∀ node result, event ≠ .answered node result)
    (hinspected : ∀ outcome, event ≠ .inspected outcome)
    : Ledger home timeout job desc members (history ++ [event]) { course with check } := by
  refine ⟨h.home_eq, h.timeout_eq, h.sent_eq, told, h.waiting_nodup, ?_, ?_⟩
  . intro node
    rw [h.mem_waiting]
    simp [fun result => Ne.symm (hanswered node result)]
  . rw [h.inspecting_iff]
    simp [fun outcome => Ne.symm (hinspected outcome)]

theorem Ledger.step (h : Ledger home timeout job desc members history course)
    (event : CheckEvent)
    : Ledger home timeout job desc members (history ++ [event]) (course.step event) := by
  cases event with
  | answered node result => exact h.answered node result
  | inspected outcome => exact h.inspected outcome
  | expired =>
    apply h.other
    . rw [h.timeout_eq]
      exact h.told.expire
    . simp
    . simp
  | cancelled => exact h.other h.told.cancel (by simp) (by simp)
  | abandoned => exact h.other h.told.abandon (by simp) (by simp)
  | delivered index => exact h.other (h.told.deliver index) (by simp) (by simp)

theorem Ledger.run (h : Ledger home timeout job desc members history course)
    (events : List CheckEvent)
    : Ledger home timeout job desc members (history ++ events) (course.run events) := by
  induction events generalizing history course with
  | nil => simpa [Course.run] using h
  | cons event rest ih =>
    have := ih (h.step event)
    rwa [List.append_assoc, List.singleton_append] at this

theorem ledger_run (events : List CheckEvent)
    : Ledger home timeout job desc members events
      ((start home timeout job desc members).run events) := by
  have := (ledger_start home timeout job desc members).run events
  rwa [List.nil_append] at this

theorem Told.of_verdict {check : SharedCheck}
    (h : Told job home timeout desc members history check) {verdict : Verdict}
    (hverdict : .verdict verdict ∈ check.promised)
    : (∃ outcomes : SortedMap Text NodeOutcome,
        verdict = aggregate desc (Rendezvous.assign desc) outcomes ∧
        ∀ node, outcomes.get? node = counted home timeout desc members history node) ∧
      ∀ node ∈ CheckRun.invited desc members,
        (counted home timeout desc members history node).isSome = true := by
  have hdesc : check.run.desc = desc := by
    have := congrArg (fun t => t.2.1) h.topology
    simpa [CheckRun.topology] using this
  have hassignment : check.run.assignment = Rendezvous.assign desc := by
    have := congrArg (fun t => t.2.2.1) h.topology
    simpa [CheckRun.topology] using this
  cases h.standing with
  | running _ nothing => simp [nothing] at hverdict
  | decided closed decided refused =>
    simp only [decided, List.mem_singleton, CheckResult.verdict.injEq] at hverdict
    refine ⟨⟨check.run.outcomes, ?_, h.outcomes refused⟩, h.complete refused closed⟩
    rw [hverdict, CheckRun.verdict, hdesc, hassignment]
  | withdrawn _ cancelled => simp [cancelled] at hverdict

end Ledger

/-!
Which nodes a verdict is on, and what it takes from each of them.
-/

/--
The outcome of a node of which nothing is known but why there is no answer.
-/
def unanswered (node : Text) (kind : FailureKind) (message : Text) : NodeOutcome where
  node := node
  failure := some ⟨[⟨kind, message⟩]⟩
  partitions := []
  missingGroups := []
  missingPartitions := []
  missingMetadata := []

/--
What an event says about a node that takes part, to a coordinator on the node `home`. An answer
speaks for the node that was asked, whatever name it carries. A node that could not be asked is
unreachable, and one that let the time go by is timed out.
-/
inductive Says (home : Text) (timeout : Nat) (node : Text) : CheckEvent → NodeOutcome → Prop where
  | replied (remote : node ≠ home) (outcome : NodeOutcome)
    : Says home timeout node (.answered node (.replied outcome)) { outcome with node := node }
  | failed (remote : node ≠ home) (error : Text)
    : Says home timeout node (.answered node (.failed error))
      (unanswered node .nodeUnreachable (.join ["Node ", node, " is unreachable: ", error]))
  | timedOut (remote : node ≠ home) (error : Text)
    : Says home timeout node (.answered node (.timedOut error))
      (unanswered node .nodeTimedOut (.join ["Node ", node, " did not reply: ", error]))
  | inspected (own : node = home) (outcome : NodeOutcome)
    : Says home timeout node (.inspected outcome) { outcome with node := node }
  | expired
    : Says home timeout node .expired
      (unanswered node .nodeTimedOut
        (.join ["Node ", node, " did not reply within ", .decimal timeout, " ms"]))

theorem says_iff_tells {home : Text} {timeout : Nat} {participants : List Text} {node : Text}
    (hnode : node ∈ participants) (event : CheckEvent) (outcome : NodeOutcome)
    : Says home timeout node event outcome ↔
      event.tells home timeout participants node = some outcome := by
  have hremote : node ∈ CheckRun.remoteOf home participants ↔ node ≠ home := by
    simp [CheckRun.remoteOf, hnode]
  cases event with
  | answered other result =>
    simp only [CheckEvent.tells, hremote, Option.ite_none_right_eq_some, Option.some.injEq]
    constructor
    . rintro (⟨hne, outcome⟩ | ⟨hne, error⟩ | ⟨hne, error⟩)
      all_goals exact ⟨⟨rfl, hne⟩, rfl⟩
    . rintro ⟨⟨rfl, hne⟩, rfl⟩
      cases result with
      | replied outcome => exact .replied hne outcome
      | failed error => exact .failed hne error
      | timedOut error => exact .timedOut hne error
  | inspected found =>
    simp only [CheckEvent.tells, hnode, and_true, Option.ite_none_right_eq_some,
      Option.some.injEq]
    constructor
    . intro hsaid
      cases hsaid with
      | inspected own => exact ⟨own, by rw [own]⟩
    . rintro ⟨rfl, rfl⟩
      exact .inspected rfl found
  | expired =>
    simp only [CheckEvent.tells, hnode, if_true, Option.some.injEq]
    constructor
    . rintro ⟨⟩
      rfl
    . rintro rfl
      exact .expired
  | cancelled => exact ⟨nofun, nofun⟩
  | abandoned => exact ⟨nofun, nofun⟩
  | delivered index => exact ⟨nofun, nofun⟩

/--
A verdict that leaves out no node which could hold something of the snapshot, and no other. A node
that is no server among the members counts as unreachable, and from each of the others comes what
the first event said that says anything about it.
-/
structure Covers (home : Text) (timeout : Nat) (desc : SnapshotDescriptor) (members : List Member)
    (events : List CheckEvent) (verdict : Verdict) (outcomes : SortedMap Text NodeOutcome)
    : Prop where
  verdict_eq : verdict = aggregate desc (Rendezvous.assign desc) outcomes
  failures : ∀ node,
    verdict.failures.get? node = (outcomes.get? node).bind NodeOutcome.failure
  nodes : ∀ node, verdict.nodes.contains node = outcomes.contains node
  eligible : ∀ node, verdict.nodes.contains node = true ↔
    ∃ id nodes, (Rendezvous.assign desc).eligible.get? id = some nodes ∧
      nodes.contains node = true
  baseline : ∀ node, verdict.nodes.contains node = true → node ∈ desc.baseline
  offline : ∀ node, verdict.nodes.contains node = true →
    (¬∃ m ∈ members, m.role = .server ∧ m.id = node) →
      outcomes.get? node = some (unanswered node .nodeUnreachable
        (.join ["Baseline node ", node, " is not an online server node"]))
  first : ∀ node, verdict.nodes.contains node = true →
    (∃ m ∈ members, m.role = .server ∧ m.id = node) →
      ∃ outcome, outcomes.get? node = some outcome ∧
        ∃ before event after, events = before ++ event :: after ∧
          Says home timeout node event outcome ∧
          ∀ earlier ∈ before, ∀ other, ¬Says home timeout node earlier other

theorem covers_of_verdict {home : Text} {timeout : Nat} {job : UInt64} {desc : SnapshotDescriptor}
    {members : List Member} {events : List CheckEvent} {check : SharedCheck}
    (h : Told job home timeout desc members events check) {verdict : Verdict}
    (hverdict : .verdict verdict ∈ check.promised)
    : ∃ outcomes, Covers home timeout desc members events verdict outcomes := by
  obtain ⟨⟨outcomes, rfl, houtcomes⟩, hcomplete⟩ := h.of_verdict hverdict
  have hnodes (node : Text) := Verdict.contains_nodes desc (Rendezvous.assign desc) outcomes node
  have heligible (node : Text) : outcomes.contains node = true ↔
      (Rendezvous.assign desc).isEligible node = true := by
    rw [SortedMap.contains, houtcomes]
    constructor
    . intro hsome
      obtain ⟨outcome, hcounted⟩ := Option.isSome_iff_exists.mp hsome
      cases mem_of_counted hcounted with
      | inl hinvited => exact (CheckRun.mem_invited.mp hinvited).1
      | inr habsent => exact (CheckRun.mem_absent.mp habsent).1
    . intro heligible
      by_cases hinvited : node ∈ CheckRun.invited desc members
      . exact hcomplete node hinvited
      . have habsent : node ∈ CheckRun.absent desc members :=
          CheckRun.mem_absent.mpr ⟨heligible, hinvited⟩
        simp [counted, habsent]
  refine ⟨outcomes, rfl, Verdict.get?_failures desc _ outcomes, ?_, ?_, ?_, ?_, ?_⟩
  . intro node
    exact Bool.eq_iff_iff.mpr (hnodes node)
  . intro node
    rw [hnodes, heligible, Assignment.isEligible_iff]
  . intro node hnode
    exact Assignment.mem_baseline_of_isEligible ((heligible node).mp ((hnodes node).mp hnode))
  . intro node hnode hserver
    have habsent : node ∈ CheckRun.absent desc members :=
      CheckRun.mem_absent.mpr ⟨(heligible node).mp ((hnodes node).mp hnode),
        fun hinvited => hserver (CheckRun.mem_invited.mp hinvited).2⟩
    rw [houtcomes, counted, if_pos habsent]
    rfl
  . intro node hnode hserver
    have hinvited : node ∈ CheckRun.invited desc members :=
      CheckRun.mem_invited.mpr ⟨(heligible node).mp ((hnodes node).mp hnode), hserver⟩
    have habsent : node ∉ CheckRun.absent desc members :=
      fun habsent => (CheckRun.mem_absent.mp habsent).2 hinvited
    have hsome := hcomplete node hinvited
    rw [counted, if_neg habsent] at hsome
    obtain ⟨outcome, hfirst⟩ := Option.isSome_iff_exists.mp hsome
    refine ⟨outcome, by rw [houtcomes, counted, if_neg habsent, hfirst], ?_⟩
    obtain ⟨before, event, after, hsplit, htells, hbefore⟩ :=
      List.findSome?_eq_some_iff.mp hfirst
    refine ⟨before, event, after, hsplit, (says_iff_tells hinvited event outcome).mpr htells, ?_⟩
    intro earlier hearlier other hsaid
    have htold := (says_iff_tells hinvited earlier other).mp hsaid
    rw [hbefore earlier hearlier] at htold
    cases htold

theorem mem_remoteJobs {home : Text} {job : UInt64} {desc : SnapshotDescriptor}
    {members : List Member} {node : Text} {request : VerifyRequest}
    : (node, request) ∈ (CheckRun.start job desc members).remoteJobs home ↔
      node ≠ home ∧ (Rendezvous.assign desc).isEligible node = true ∧
        (∃ m ∈ members, m.role = .server ∧ m.id = node) ∧
        request = ⟨job, desc.name, desc.pageSize,
          (Rendezvous.assign desc).expectedFor desc node⟩ := by
  have hjob : (CheckRun.start job desc members).job = job := CheckRun.start_job job desc members
  simp only [CheckRun.remoteJobs, CheckRun.remoteOf, CheckRun.start_participants, List.mem_map,
    List.mem_filter, decide_eq_true_eq, Prod.mk.injEq, CheckRun.requestFor, CheckRun.start_desc,
    CheckRun.start_assignment, hjob]
  constructor
  . rintro ⟨_, ⟨hinvited, hne⟩, rfl, rfl⟩
    obtain ⟨heligible, hserver⟩ := CheckRun.mem_invited.mp hinvited
    exact ⟨hne, heligible, hserver, rfl⟩
  . rintro ⟨hne, heligible, hserver, rfl⟩
    exact ⟨node, ⟨CheckRun.mem_invited.mpr ⟨heligible, hserver⟩, hne⟩, rfl, rfl⟩

theorem nodup_remoteJobs {home : Text} {job : UInt64} {desc : SnapshotDescriptor}
    {members : List Member}
    : (((CheckRun.start job desc members).remoteJobs home).map Prod.fst).Nodup := by
  simp only [CheckRun.remoteJobs, List.map_map, Function.comp_def, List.map_id']
  simp only [CheckRun.remoteOf, CheckRun.start_participants]
  exact List.filter_sublist.nodup (CheckRun.nodup_invited desc members)

/--
A verdict covers all nodes that could hold something of the snapshot, each with what was first said
about it. Jobs are sent to those of them that are other servers, one to each.
-/
theorem no_node_skipped (home : Text) (timeout : Nat) (job : UInt64) (desc : SnapshotDescriptor)
    (members : List Member) (events : List CheckEvent)
    : let course := (start home timeout job desc members).run events
      (∀ verdict, .verdict verdict ∈ course.check.promised →
        ∃ outcomes, Covers home timeout desc members events verdict outcomes) ∧
      (∀ node request, (node, request) ∈ course.sent ↔
        node ≠ home ∧ (Rendezvous.assign desc).isEligible node = true ∧
          (∃ m ∈ members, m.role = .server ∧ m.id = node) ∧
          request = ⟨job, desc.name, desc.pageSize,
            (Rendezvous.assign desc).expectedFor desc node⟩) ∧
      (course.sent.map Prod.fst).Nodup := by
  intro course
  have h : Ledger home timeout job desc members events course := ledger_run events
  refine ⟨?_, ?_, ?_⟩
  . intro verdict hverdict
    exact covers_of_verdict h.told hverdict
  . intro node request
    rw [h.sent_eq]
    exact mem_remoteJobs
  . rw [h.sent_eq]
    exact nodup_remoteJobs

theorem no_node_skipped_five
    : let desc : SnapshotDescriptor :=
        ⟨"s", 1, 64, ["a", "b", "c", "d", "e"], [⟨1, "g", 2, 1, []⟩]⟩
      let members : List Member := ["a", "b", "c", "d"].map fun id => ⟨id, .server, 0, 0⟩
      let events : List CheckEvent :=
        [.answered "b" (.failed "refused"), .inspected (.blank "a"),
          .answered "b" (.replied (.blank "b")), .answered "c" (.replied (.blank "d")), .expired]
      let course := (start "a" 5 7 desc members).run events
      let verdict := course.check.run.verdict
      .verdict verdict ∈ course.check.promised ∧
        verdict.failures.keys = ["b", "d", "e"] ∧
        verdict.failures.get? "b" =
          some ⟨[⟨.nodeUnreachable, "Node b is unreachable: refused"⟩]⟩ ∧
        verdict.failures.get? "d" =
          some ⟨[⟨.nodeTimedOut, "Node d did not reply within 5 ms"⟩]⟩ ∧
        verdict.failures.get? "e" =
          some ⟨[⟨.nodeUnreachable, "Baseline node e is not an online server node"⟩]⟩ ∧
        ∃ outcomes, Covers "a" 5 desc members events verdict outcomes := by
  intro desc members events course verdict
  have h : .verdict verdict ∈ course.check.promised := by decide +kernel
  exact ⟨h, by decide +kernel, by decide +kernel, by decide +kernel, by decide +kernel,
    (no_node_skipped "a" 5 7 desc members events).1 _ h⟩

end Course

end SnapshotAudit
