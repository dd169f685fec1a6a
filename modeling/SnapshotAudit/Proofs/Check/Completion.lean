import Mathlib.Data.List.Dedup
import SnapshotAudit.Proofs.Check.Course

/-!
This module contains when a check is over without being cancelled. It compares the number of its
outcomes with a number that was counted entry by entry over the baseline, so that an absent node
which the baseline names twice is waited for once more than it can be recorded.
-/

namespace SnapshotAudit

namespace CheckRun

theorem size_lt_of_running_record {run : CheckRun} (h : run.outcomes.size < run.expected)
    {outcome : NodeOutcome} (running : (run.record outcome).1.finished = false)
    : (run.record outcome).1.outcomes.size < run.expected := by
  unfold record at running ⊢
  split
  next => exact h
  next hopen =>
    rw [if_neg hopen] at running
    dsimp only at running ⊢
    split
    next hsize => exact hsize
    next hsize =>
      rw [if_neg hsize] at running
      cases running

theorem size_outcomes_start_le (job : UInt64) (desc : SnapshotDescriptor) (members : List Member)
    : (start job desc members).outcomes.size ≤ (absent desc members).length := by
  rw [← SortedMap.length_keys]
  apply (SortedMap.keys_nodup _).length_le_of_subset
  intro node hnode
  have hcontains := SortedMap.mem_keys.mp hnode
  rw [SortedMap.contains, get?_outcomes_start] at hcontains
  apply Classical.byContradiction
  intro habsent
  simp [habsent] at hcontains

end CheckRun

namespace SharedCheck

theorem size_lt_of_running_step {check : SharedCheck}
    (h : check.run.outcomes.size < check.run.expected) {s : CheckStep}
    (running : (check.step s).run.finished = false)
    : (check.step s).run.outcomes.size < check.run.expected := by
  cases s with
  | record outcome => exact CheckRun.size_lt_of_running_record h running
  | expire timeout =>
    rw [show (check.step (.expire timeout)).run = (check.run.expire timeout).1 from rfl,
      CheckRun.finished_expire] at running
    cases running
  | cancel =>
    unfold step at running ⊢
    dsimp only at running ⊢
    split
    next => exact h
    next habandoned =>
      rw [if_neg habandoned] at running
      cases hfinished : check.run.finished with
      | true => simpa [take, CheckRun.cancel_of_finished hfinished] using h
      | false => simp [take, CheckRun.cancel_of_running hfinished] at running
  | abandon => exact h
  | deliver index =>
    unfold step
    dsimp only
    split
    next => exact h
    next => exact h

theorem ends_step {check : SharedCheck} (running : check.run.finished = false) {s : CheckStep}
    (closed : (check.step s).run.finished = true)
    : (∃ timeout, s = .expire timeout) ∨ (check.step s).granted ≠ 0 ∨
      check.run.expected ≤ (check.step s).run.outcomes.size := by
  cases s with
  | record outcome =>
    exact .inr (.inr (CheckRun.expected_le_of_finished_record running closed))
  | expire timeout => exact .inl ⟨timeout, rfl⟩
  | cancel =>
    unfold step at closed ⊢
    dsimp only at closed ⊢
    split
    next habandoned =>
      rw [if_pos habandoned, running] at closed
      cases closed
    next => exact .inr (.inl (by simp [CheckRun.cancel_of_running running]))
  | abandon =>
    simp only [step, running] at closed
    cases closed
  | deliver index =>
    have hsame : (check.step (.deliver index)).run.finished = check.run.finished := by
      unfold step
      dsimp only
      split <;> rfl
    rw [hsame, running] at closed
    cases closed

end SharedCheck

namespace Course

theorem check_step (course : Course) (event : CheckEvent)
    : (course.step event).check = course.check ∧ event ≠ .expired ∨
      ∃ s, (course.step event).check = course.check.step s ∧
        ((∃ timeout, s = .expire timeout) ↔ event = .expired) := by
  cases event with
  | answered node result =>
    simp only [step]
    split
    next => exact .inr ⟨.record (result.contribution node), rfl, by simp⟩
    next => exact .inl ⟨rfl, by simp⟩
  | inspected outcome =>
    simp only [step]
    split
    next => exact .inr ⟨.record { outcome with node := course.home }, rfl, by simp⟩
    next => exact .inl ⟨rfl, by simp⟩
  | expired => exact .inr ⟨.expire course.timeout, rfl, by simp⟩
  | cancelled => exact .inr ⟨.cancel, rfl, by simp⟩
  | abandoned => exact .inr ⟨.abandon, rfl, by simp⟩
  | delivered index => exact .inr ⟨.deliver index, rfl, by simp⟩

section Tally

variable {home : Text} {timeout : Nat} {job : UInt64} {desc : SnapshotDescriptor}
variable {members : List Member}
variable {history : List CheckEvent} {course : Course}

variable (desc members history course) in
structure Tally : Prop where
  short : course.check.run.finished = false →
    course.check.run.outcomes.size < course.check.run.expected
  ended : course.check.run.finished = true → course.check.granted = 0 →
    CheckRun.invited desc members = [] ∨ .expired ∈ history ∨
      course.check.run.expected ≤ course.check.run.outcomes.size
  late : .expired ∈ history → course.check.run.finished = true
  alone : CheckRun.invited desc members = [] → course.check.run.finished = true

variable (home timeout job desc members) in
theorem tally_start : Tally desc members [] (start home timeout job desc members) := by
  refine ⟨?_, ?_, ?_, ?_⟩
  . intro running
    have hopen : CheckRun.invited desc members ≠ [] := by
      simpa [start, SharedCheck.start] using running
    have hpos := List.length_pos_of_ne_nil hopen
    have hsize := CheckRun.size_outcomes_start_le job desc members
    simp only [start, SharedCheck.start, CheckRun.start_expected]
    omega
  . intro closed _
    exact .inl (by simpa [start, SharedCheck.start] using closed)
  . simp
  . intro hnone
    simp [start, SharedCheck.start, hnone]

theorem Tally.step (h : Tally desc members history course)
    (ledger : Ledger home timeout job desc members history course) (event : CheckEvent)
    : Tally desc members (history ++ [event]) (course.step event) := by
  have hstanding := ledger.told.standing
  have hexpected : (course.step event).check.run.expected = course.check.run.expected := by
    rw [(ledger.step event).told.expected, ledger.told.expected]
  cases course.check_step event with
  | inl hidle =>
    obtain ⟨hidle, hevent⟩ := hidle
    refine ⟨?_, ?_, ?_, ?_⟩
    . rw [hidle]
      exact h.short
    . rw [hidle]
      intro closed granted
      have := h.ended closed granted
      grind
    . rw [hidle]
      intro hmem
      apply h.late
      simpa [Ne.symm hevent] using hmem
    . rw [hidle]
      exact h.alone
  | inr hstep =>
    obtain ⟨s, hstep, hexpire⟩ := hstep
    cases hfinished : course.check.run.finished with
    | true =>
      have hrest := SharedCheck.rest_step hstanding hfinished s
      simp only [SharedCheck.rest, Prod.mk.injEq, ← hstep] at hrest
      obtain ⟨hover, houtcomes, _, hgranted⟩ := hrest
      refine ⟨?_, ?_, ?_, ?_⟩
      . simp [hover, hfinished]
      . intro _ granted
        rw [houtcomes, hexpected]
        have := h.ended hfinished (hgranted ▸ granted)
        grind
      . intro _
        rw [hover, hfinished]
      . intro _
        rw [hover, hfinished]
    | false =>
      refine ⟨?_, ?_, ?_, ?_⟩
      . rw [hexpected, hstep]
        exact SharedCheck.size_lt_of_running_step (h.short hfinished)
      . intro closed granted
        rw [hexpected, hstep]
        -- it was the deadline, a cancellation or the last outcome that ended the check
        cases SharedCheck.ends_step hfinished (hstep ▸ closed) with
        | inl hs => simp [hexpire.mp hs]
        | inr hs =>
          cases hs with
          | inl hgranted => exact absurd (hstep ▸ granted) hgranted
          | inr hsize => exact .inr (.inr hsize)
      . intro hmem
        have hevent : event = .expired := by
          apply Classical.byContradiction
          intro hevent
          have hearlier : .expired ∈ history := by simpa [Ne.symm hevent] using hmem
          simp [h.late hearlier] at hfinished
        obtain ⟨timeout, rfl⟩ := hexpire.mpr hevent
        rw [hstep]
        exact CheckRun.finished_expire _ _
      . intro hnone
        simp [h.alone hnone] at hfinished

theorem tally_run (events : List CheckEvent)
    : Tally desc members events ((start home timeout job desc members).run events) := by
  suffices hrun : ∀ history course, Ledger home timeout job desc members history course →
      Tally desc members history course →
      Tally desc members (history ++ events) (course.run events) by
    have := hrun [] _ (ledger_start home timeout job desc members)
      (tally_start home timeout job desc members)
    rwa [List.nil_append] at this
  induction events with
  | nil =>
    intro history course _ h
    simpa [Course.run] using h
  | cons event rest ih =>
    intro history course ledger h
    have := ih (history ++ [event]) (course.step event) (ledger.step event) (h.step ledger event)
    rwa [List.append_assoc, List.singleton_append] at this

end Tally

/-!
The number of outcomes that there can be.
-/

theorem length_le_dedup_iff {nodes : List Text}
    : nodes.length ≤ nodes.dedup.length ↔ nodes.Nodup := by
  constructor
  . intro h
    exact List.dedup_eq_self.mp (nodes.dedup_sublist.eq_of_length_le h)
  . intro h
    exact Nat.le_of_eq (congrArg List.length h.dedup.symm)

theorem size_eq_of_recorded {home : Text} {timeout : Nat} {desc : SnapshotDescriptor}
    {members : List Member} {history : List CheckEvent} {outcomes : SortedMap Text NodeOutcome}
    (houtcomes : ∀ node, outcomes.get? node = counted home timeout desc members history node)
    (recorded : ∀ node ∈ CheckRun.invited desc members, outcomes.contains node = true)
    : outcomes.size =
      (CheckRun.invited desc members).length + (CheckRun.absent desc members).dedup.length := by
  -- every node has one outcome, however often the baseline names it
  have hnodup : (CheckRun.invited desc members ++ (CheckRun.absent desc members).dedup).Nodup := by
    apply List.nodup_append.mpr
    refine ⟨CheckRun.nodup_invited desc members, List.nodup_dedup _, ?_⟩
    rintro a ha b hb rfl
    exact (CheckRun.mem_absent.mp (List.mem_dedup.mp hb)).2 ha
  have hkeys : ∀ node, node ∈ outcomes.keys ↔
      node ∈ CheckRun.invited desc members ++ (CheckRun.absent desc members).dedup := by
    intro node
    rw [SortedMap.mem_keys, List.mem_append, List.mem_dedup]
    constructor
    . intro hcontains
      rw [SortedMap.contains_eq_true_iff] at hcontains
      obtain ⟨outcome, hget⟩ := hcontains
      exact mem_of_counted (houtcomes node ▸ hget)
    . rintro (hinvited | habsent)
      . exact recorded node hinvited
      . simp [SortedMap.contains, houtcomes, counted, habsent]
  rw [← List.length_append, ← SortedMap.length_keys]
  apply Nat.le_antisymm
  . exact outcomes.keys_nodup.length_le_of_subset fun node h => (hkeys node).mp h
  . exact hnodup.length_le_of_subset fun node h => (hkeys node).mpr h

section Over

variable {home : Text} {timeout : Nat} {job : UInt64} {desc : SnapshotDescriptor}
variable {members : List Member} {events : List CheckEvent} {course : Course}

/--
A check with participants that nobody has cancelled is over when its time is, or when all
participants have an outcome and the baseline names no absent node twice.
-/
theorem finished_iff (ledger : Ledger home timeout job desc members events course)
    (tally : Tally desc members events course) (hinvited : CheckRun.invited desc members ≠ [])
    (granted : course.check.granted = 0)
    : course.check.run.finished = true ↔ .expired ∈ events ∨
      ((∀ node ∈ CheckRun.invited desc members,
          course.check.run.outcomes.contains node = true) ∧
        (CheckRun.absent desc members).Nodup) := by
  have houtcomes := ledger.told.outcomes granted
  constructor
  . intro closed
    cases tally.ended closed granted with
    | inl hnone => exact absurd hnone hinvited
    | inr hend =>
      cases hend with
      | inl hexpired => exact .inl hexpired
      | inr hsize =>
        have recorded : ∀ node ∈ CheckRun.invited desc members,
            course.check.run.outcomes.contains node = true := by
          intro node hnode
          rw [SortedMap.contains, houtcomes]
          exact ledger.told.complete granted closed node hnode
        rw [ledger.told.expected, size_eq_of_recorded houtcomes recorded] at hsize
        exact .inr ⟨recorded, length_le_dedup_iff.mp (by omega)⟩
  . rintro (hexpired | ⟨recorded, hnodup⟩)
    . exact tally.late hexpired
    . apply Classical.byContradiction
      intro hopen
      have hshort := tally.short (by simpa using hopen)
      rw [ledger.told.expected, size_eq_of_recorded houtcomes recorded, hnodup.dedup] at hshort
      exact Nat.lt_irrefl _ hshort

theorem recorded_of_settled (ledger : Ledger home timeout job desc members events course)
    (granted : course.check.granted = 0) (waiting : course.waiting = [])
    (inspecting : course.inspecting = false) {node : Text}
    (hnode : node ∈ CheckRun.invited desc members)
    : course.check.run.outcomes.contains node = true := by
  rw [SortedMap.contains, ledger.told.outcomes granted]
  by_cases hhome : node = home
  . subst hhome
    have hdone : ∃ outcome, .inspected outcome ∈ events := by
      apply Classical.byContradiction
      intro hnone
      have := ledger.inspecting_iff.mpr ⟨hnode, fun outcome hmem => hnone ⟨outcome, hmem⟩⟩
      simp [inspecting] at this
    obtain ⟨outcome, hmem⟩ := hdone
    exact isSome_counted_of_tells hmem (by simp [CheckEvent.tells, hnode])
  . have hremote : node ∈ CheckRun.remoteOf home (CheckRun.invited desc members) := by
      simp [CheckRun.remoteOf, hnode, hhome]
    have hdone : ∃ result, .answered node result ∈ events := by
      apply Classical.byContradiction
      intro hnone
      have := (ledger.mem_waiting node).mpr ⟨hremote, fun result hmem => hnone ⟨result, hmem⟩⟩
      simp [waiting] at this
    obtain ⟨result, hmem⟩ := hdone
    exact isSome_counted_of_tells hmem (by simp [CheckEvent.tells, hremote])

theorem result_isSome_iff (h : course.check.Standing) (owed : course.check.owed = [])
    : course.check.run.result?.isSome = true ↔ course.check.run.finished = true := by
  have hlength := h.length_promised
  rw [SharedCheck.promised, owed, List.nil_append] at hlength
  rw [CheckRun.result?, List.getLast?_isSome]
  cases hfinished : course.check.run.finished with
  | true =>
    simp only [hfinished, Bool.toNat_true] at hlength
    simp only [iff_true]
    exact List.ne_nil_of_length_eq_add_one hlength
  | false =>
    simp only [hfinished, Bool.toNat_false] at hlength
    simp [List.eq_nil_of_length_eq_zero hlength]

end Over

/--
A check is over when its time is, or when all participants have an outcome, unless a node that is
missing is named twice. When nothing is waited for any more, this decides whether there is a result.
-/
theorem completes_iff (home : Text) (timeout : Nat) (job : UInt64) (desc : SnapshotDescriptor)
    (members : List Member) (events : List CheckEvent)
    : let course := (start home timeout job desc members).run events
      (CheckRun.invited desc members ≠ [] → course.check.granted = 0 →
        (course.check.run.finished = true ↔ .expired ∈ events ∨
          ((∀ node ∈ CheckRun.invited desc members,
              course.check.run.outcomes.contains node = true) ∧
            (CheckRun.absent desc members).Nodup)) ∧
        (course.check.run.finished = true →
          course.check.promised = [.verdict course.check.run.verdict])) ∧
      (course.waiting = [] → course.inspecting = false → course.check.owed = [] →
        (course.check.run.result?.isSome = true ↔ CheckRun.invited desc members = [] ∨
          course.check.granted = 1 ∨ .expired ∈ events ∨
          (CheckRun.absent desc members).Nodup)) := by
  intro course
  have ledger : Ledger home timeout job desc members events course := ledger_run events
  have tally : Tally desc members events course := tally_run events
  refine ⟨?_, ?_⟩
  . intro hinvited granted
    refine ⟨finished_iff ledger tally hinvited granted, ?_⟩
    intro closed
    cases ledger.told.standing with
    | running running => simp [running] at closed
    | decided _ decided => exact decided
    | withdrawn _ _ cancelled => simp [granted] at cancelled
  . intro waiting inspecting owed
    rw [result_isSome_iff ledger.told.standing owed]
    by_cases hinvited : CheckRun.invited desc members = []
    . simp [hinvited, tally.alone hinvited]
    . cases Nat.le_one_iff_eq_zero_or_eq_one.mp ledger.told.standing.granted_le with
      | inl granted =>
        rw [finished_iff ledger tally hinvited granted]
        have recorded : ∀ node ∈ CheckRun.invited desc members,
            course.check.run.outcomes.contains node = true :=
          fun node hnode => recorded_of_settled ledger granted waiting inspecting hnode
        simp [hinvited, granted, and_iff_right recorded]
      | inr granted => simp [granted, (ledger.told.standing.of_granted granted).1]

theorem completes_iff_pair
    : let desc : SnapshotDescriptor := ⟨"s", 1, 64, ["a", "b"], [⟨1, "g", 2, 1, []⟩]⟩
      let members : List Member := [⟨"a", .server, 0, 0⟩, ⟨"b", .server, 0, 0⟩]
      let events : List CheckEvent :=
        [.inspected (.blank "a"), .answered "b" (.replied (.blank "b")), .delivered 0]
      let course := (start "a" 5 7 desc members).run events
      course.check.run.finished = true ∧ course.check.run.result?.isSome = true := by
  have hcompletes := completes_iff "a" 5 7 ⟨"s", 1, 64, ["a", "b"], [⟨1, "g", 2, 1, []⟩]⟩
    [⟨"a", .server, 0, 0⟩, ⟨"b", .server, 0, 0⟩]
    [.inspected (.blank "a"), .answered "b" (.replied (.blank "b")), .delivered 0]
  dsimp only at hcompletes ⊢
  obtain ⟨hover, hdone⟩ := hcompletes
  refine ⟨(hover ?_ ?_).1.mpr ?_, (hdone ?_ ?_ ?_).mpr ?_⟩
  all_goals decide +kernel

/--
A node that is not there and that the baseline names twice: all participants have an outcome,
nothing is waited for, and the check is not over.
-/
theorem not_finished_of_repeated_node
    : let desc : SnapshotDescriptor := ⟨"s", 1, 64, ["a", "b", "b"], [⟨1, "g", 1, 0, []⟩]⟩
      let members : List Member := [⟨"a", .server, 0, 0⟩]
      let course := (start "a" 5 7 desc members).run [.inspected (.blank "a")]
      CheckRun.invited desc members ≠ [] ∧
      (∀ node ∈ CheckRun.invited desc members,
        course.check.run.outcomes.contains node = true) ∧
      course.check.granted = 0 ∧ course.waiting = [] ∧ course.inspecting = false ∧
      course.check.owed = [] ∧ course.check.run.finished = false ∧
      course.check.run.result? = none := by
  decide +kernel

end Course

end SnapshotAudit
