import SnapshotAudit.Check.Run
import SnapshotAudit.Proofs.Assignment

/-!
This module contains who takes part in a check and what its steps do: which of them can end it and
with what result, and what they make of the outcome of each node.
-/

namespace SnapshotAudit

@[simp]
theorem DispatchResult.contribution_node (result : DispatchResult) (node : Text)
    : (result.contribution node).node = node := by
  cases result <;> rfl

namespace CheckRun

section Start

variable (job : UInt64) (desc : SnapshotDescriptor) (members : List Member)

def invited : List Text :=
  participantsOf (Rendezvous.assign desc) members

def absent : List Text :=
  offline desc (Rendezvous.assign desc) (invited desc members)

variable {desc members} in
theorem mem_invited {node : Text}
    : node ∈ invited desc members ↔
      (Rendezvous.assign desc).isEligible node = true ∧
        ∃ m ∈ members, m.role = .server ∧ m.id = node := by
  simp only [invited, participantsOf, SortedSet.mem_elements, SortedSet.contains_ofElements,
    List.mem_map, List.mem_filter, Bool.and_eq_true, decide_eq_true_eq]
  constructor
  . rintro ⟨m, ⟨hm, hrole, heligible⟩, rfl⟩
    exact ⟨heligible, m, hm, hrole, rfl⟩
  . rintro ⟨heligible, m, hm, hrole, rfl⟩
    exact ⟨m, ⟨hm, hrole, heligible⟩, rfl⟩

theorem nodup_invited : (invited desc members).Nodup :=
  SortedMap.keys_nodup _

variable {desc members} in
theorem mem_absent {node : Text}
    : node ∈ absent desc members ↔
      (Rendezvous.assign desc).isEligible node = true ∧ node ∉ invited desc members := by
  simp only [absent, offline, List.mem_filter, Bool.and_eq_true, decide_eq_true_eq]
  constructor
  . rintro ⟨_, h⟩
    exact h
  . intro h
    exact ⟨Assignment.mem_baseline_of_isEligible h.1, h⟩

section Assignment

variable (assignment : Assignment)

@[simp]
theorem startOn_job : (startOn assignment job desc members).job = job := by
  unfold startOn
  dsimp only
  split <;> rfl

@[simp]
theorem startOn_desc : (startOn assignment job desc members).desc = desc := by
  unfold startOn
  dsimp only
  split <;> rfl

@[simp]
theorem startOn_assignment : (startOn assignment job desc members).assignment = assignment := by
  unfold startOn
  dsimp only
  split <;> rfl

@[simp]
theorem startOn_participants
    : (startOn assignment job desc members).participants = participantsOf assignment members := by
  unfold startOn
  dsimp only
  split <;> rfl

@[simp]
theorem startOn_finished
    : (startOn assignment job desc members).finished =
      (participantsOf assignment members).isEmpty := by
  unfold startOn
  dsimp only
  split <;> rfl

@[simp]
theorem startOn_expected
    : (startOn assignment job desc members).expected =
      (participantsOf assignment members).length +
        (offline desc assignment (participantsOf assignment members)).length := by
  unfold startOn
  dsimp only
  split <;> rfl

theorem startOn_outcomes
    : (startOn assignment job desc members).outcomes =
      (offline desc assignment (participantsOf assignment members)).foldl
        (fun outcomes id => outcomes.insertIfNew id (offlineOutcome id)) .empty := by
  unfold startOn
  dsimp only
  split <;> rfl

theorem startOn_delivered
    : (startOn assignment job desc members).delivered =
      if (participantsOf assignment members).isEmpty then
        [.verdict (startOn assignment job desc members).verdict]
      else [] := by
  unfold startOn
  dsimp only
  split <;> rfl

theorem get?_outcomes_startOn (node : Text)
    : (startOn assignment job desc members).outcomes.get? node =
      if node ∈ offline desc assignment (participantsOf assignment members) then
        some (offlineOutcome node)
      else none := by
  rw [startOn_outcomes, SortedMap.get?_foldl_insertIfNew]
  simp

end Assignment

@[simp]
theorem start_job : (start job desc members).job = job :=
  startOn_job job desc members _

@[simp]
theorem start_desc : (start job desc members).desc = desc :=
  startOn_desc job desc members _

@[simp]
theorem start_assignment : (start job desc members).assignment = Rendezvous.assign desc :=
  startOn_assignment job desc members _

@[simp]
theorem start_participants : (start job desc members).participants = invited desc members :=
  startOn_participants job desc members _

@[simp]
theorem start_finished
    : (start job desc members).finished = (invited desc members).isEmpty :=
  startOn_finished job desc members _

@[simp]
theorem start_expected
    : (start job desc members).expected =
      (invited desc members).length + (absent desc members).length :=
  startOn_expected job desc members _

theorem get?_outcomes_start (node : Text)
    : (start job desc members).outcomes.get? node =
      if node ∈ absent desc members then some (offlineOutcome node) else none :=
  get?_outcomes_startOn job desc members _ node

end Start

/--
What an outcome or the deadline can do to a check: nothing, collect outcomes, or end it with the
verdict on what was collected. Once a check is over nothing is left but the first.
-/
inductive Move (run : CheckRun) : CheckRun × Option Conclusion → Prop where
  | idle : Move run (run, none)
  | collect (outcomes : SortedMap Text NodeOutcome) (running : run.finished = false)
    : Move run ({ run with outcomes }, none)
  | conclude (outcomes : SortedMap Text NodeOutcome) (silent : List Text)
    (running : run.finished = false)
    : Move run ({ run with outcomes, finished := true },
      some ⟨.verdict { run with outcomes, finished := true }.verdict, silent⟩)

theorem record_move (run : CheckRun) (outcome : NodeOutcome) : Move run (run.record outcome) := by
  unfold record
  split
  next => exact .idle
  next h =>
    have running : run.finished = false := by
      simp only [Bool.or_eq_true, not_or, Bool.not_eq_true] at h
      exact h.1
    dsimp only
    split
    next => exact .collect _ running
    next => exact .conclude _ _ running

theorem expire_move (run : CheckRun) (timeout : Nat) : Move run (run.expire timeout) := by
  unfold expire
  split
  next => exact .idle
  next h => exact .conclude _ _ (by simpa using h)

theorem Move.eq_of_finished {run : CheckRun} {next : CheckRun × Option Conclusion}
    (h : Move run next) (closed : run.finished = true) : next = (run, none) := by
  cases h with
  | idle => rfl
  | collect _ running => simp [running] at closed
  | conclude _ _ running => simp [running] at closed

theorem cancel_of_finished {run : CheckRun} (closed : run.finished = true)
    : run.cancel = (run, none) := by
  simp [cancel, closed]

theorem cancel_of_running {run : CheckRun} (running : run.finished = false)
    : run.cancel = ({ run with outcomes := .empty, finished := true },
      some ⟨.cancelled, run.silent⟩) := by
  simp [cancel, running]

theorem Move.delivered_eq {run : CheckRun} {next : CheckRun × Option Conclusion}
    (h : Move run next) : next.1.delivered = run.delivered := by
  cases h <;> rfl

theorem delivered_cancel (run : CheckRun) : run.cancel.1.delivered = run.delivered := by
  unfold cancel
  split <;> rfl

def topology (run : CheckRun) : UInt64 × SnapshotDescriptor × Assignment × List Text × Nat :=
  (run.job, run.desc, run.assignment, run.participants, run.expected)

theorem Move.topology_eq {run : CheckRun} {next : CheckRun × Option Conclusion}
    (h : Move run next) : next.1.topology = run.topology := by
  cases h <;> rfl

theorem topology_cancel (run : CheckRun) : run.cancel.1.topology = run.topology := by
  unfold cancel
  split <;> rfl

/-!
What a step makes of the outcome of a node, as long as the check is not over.
-/

theorem get?_outcomes_record {run : CheckRun} (running : run.finished = false)
    (outcome : NodeOutcome) (node : Text)
    : (run.record outcome).1.outcomes.get? node =
      (run.outcomes.get? node).or (if node = outcome.node then some outcome else none) := by
  unfold record
  split
  next h =>
    have hknown : run.outcomes.contains outcome.node = true := by simpa [running] using h
    obtain ⟨first, hfirst⟩ := SortedMap.contains_eq_true_iff.mp hknown
    by_cases heq : node = outcome.node
    . simp [heq, hfirst]
    . simp [heq]
  next h =>
    have hnew : run.outcomes.get? outcome.node = none := by
      simpa [running, SortedMap.contains] using h
    have hinsert : (run.outcomes.insert outcome.node outcome).get? node =
        (run.outcomes.get? node).or (if node = outcome.node then some outcome else none) := by
      rw [SortedMap.get?_insert_eq]
      by_cases heq : node = outcome.node
      . simp [heq, hnew]
      . simp [heq]
    dsimp only
    split
    next => exact hinsert
    next => exact hinsert

theorem get?_outcomes_expire {run : CheckRun} (running : run.finished = false)
    (timeout : Nat) (node : Text)
    : (run.expire timeout).1.outcomes.get? node =
      (run.outcomes.get? node).or
        (if node ∈ run.participants then some (overdueOutcome node timeout) else none) := by
  unfold expire
  simp only [running, Bool.false_eq_true, if_false]
  rw [SortedMap.get?_foldl_insertIfNew]
  simp only [silent, List.mem_filter, SortedMap.contains]
  cases run.outcomes.get? node with
  | none => simp
  | some first => simp

theorem expected_le_of_finished_record {run : CheckRun} (running : run.finished = false)
    {outcome : NodeOutcome} (closed : (run.record outcome).1.finished = true)
    : run.expected ≤ (run.record outcome).1.outcomes.size := by
  unfold record at closed ⊢
  split at closed
  next => simp [running] at closed
  next h =>
    rw [if_neg h]
    dsimp only at closed ⊢
    split at closed
    next => simp [running] at closed
    next hsize =>
      rw [if_neg hsize]
      exact Nat.le_of_not_lt hsize

theorem finished_expire (run : CheckRun) (timeout : Nat)
    : (run.expire timeout).1.finished = true := by
  unfold expire
  split
  next h => exact h
  next => rfl

end CheckRun

end SnapshotAudit
