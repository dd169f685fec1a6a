import SnapshotAudit.Proofs.Check.Steps

/-!
This module contains what holds of a check that many threads share. Each of their steps happens as a
whole, but a thread that has ended the check delivers its result only later, and anything may come
in between. Whatever the order, there is one result, and it is the one that was decided first.
-/

namespace SnapshotAudit

inductive CheckStep where
  | record (outcome : NodeOutcome)
  | expire (timeout : Nat)
  | cancel
  /-- The coordinator goes away. Nobody can cancel the check any more. -/
  | abandon
  /-- One of the threads that have decided a result delivers it. -/
  | deliver (index : Nat)

/--
A check that is shared: the results that were decided and not delivered yet, the number of
cancellations that were granted, and whether the coordinator is gone.
-/
structure SharedCheck where
  run : CheckRun
  owed : List CheckResult
  granted : Nat
  abandoned : Bool

namespace SharedCheck

def startOn (assignment : Assignment) (job : UInt64) (desc : SnapshotDescriptor)
    (members : List Member) : SharedCheck :=
  ⟨CheckRun.startOn assignment job desc members, [], 0, false⟩

def start (job : UInt64) (desc : SnapshotDescriptor) (members : List Member) : SharedCheck :=
  ⟨CheckRun.start job desc members, [], 0, false⟩

def take (check : SharedCheck) (decided : CheckRun × Option Conclusion) : SharedCheck :=
  { check with
    run := decided.1
    owed := check.owed ++ (decided.2.map Conclusion.result).toList }

def step (check : SharedCheck) (s : CheckStep) : SharedCheck :=
  match s with
  | .record outcome => check.take (check.run.record outcome)
  | .expire timeout => check.take (check.run.expire timeout)
  | .cancel =>
    if check.abandoned then check
    else
      { check.take check.run.cancel with
        granted := check.granted + check.run.cancel.2.toList.length }
  | .abandon => { check with abandoned := true }
  | .deliver index =>
    match check.owed[index]? with
    | none => check
    | some result =>
      { check with run := check.run.deliver result, owed := check.owed.eraseIdx index }

def takeAll (check : SharedCheck) (steps : List CheckStep) : SharedCheck :=
  steps.foldl step check

def promised (check : SharedCheck) : List CheckResult :=
  check.owed ++ check.run.delivered

/--
How far a shared check has come.
-/
inductive Standing (check : SharedCheck) : Prop where
  | running (unfinished : check.run.finished = false) (nothing : check.promised = [])
    (refused : check.granted = 0)
  | decided (closed : check.run.finished = true)
    (verdict : check.promised = [.verdict check.run.verdict]) (refused : check.granted = 0)
  | withdrawn (closed : check.run.finished = true) (cancelled : check.promised = [.cancelled])
    (granted : check.granted = 1) (empty : check.run.outcomes = .empty)

theorem standing_startOn (assignment : Assignment) (job : UInt64) (desc : SnapshotDescriptor)
    (members : List Member) : Standing (startOn assignment job desc members) := by
  have hdelivered := CheckRun.startOn_delivered job desc members assignment
  cases hnone : (CheckRun.participantsOf assignment members).isEmpty with
  | true =>
    apply Standing.decided
    . simp [startOn, hnone]
    . simp [promised, startOn, hdelivered, hnone]
    . rfl
  | false =>
    apply Standing.running
    . simp [startOn, hnone]
    . simp [promised, startOn, hdelivered, hnone]
    . rfl

theorem standing_start (job : UInt64) (desc : SnapshotDescriptor) (members : List Member)
    : Standing (start job desc members) :=
  standing_startOn (Rendezvous.assign desc) job desc members

theorem take_idle (check : SharedCheck) : check.take (check.run, none) = check := by
  simp [take]

theorem standing_take {check : SharedCheck} (h : Standing check)
    {decided : CheckRun × Option Conclusion} (move : check.run.Move decided)
    : Standing (check.take decided) := by
  cases move with
  | idle => rwa [take_idle]
  | collect outcomes running =>
    cases h with
    | running _ nothing refused =>
      exact .running running (by simpa [promised, take] using nothing) refused
    | decided closed => simp [running] at closed
    | withdrawn closed => simp [running] at closed
  | conclude outcomes silent running =>
    cases h with
    | running _ nothing refused =>
      obtain ⟨howed, hdelivered⟩ := List.append_eq_nil_iff.mp nothing
      apply Standing.decided
      . rfl
      . simp [promised, take, howed, hdelivered]
      . exact refused
    | decided closed => simp [running] at closed
    | withdrawn closed => simp [running] at closed

theorem standing_cancel {check : SharedCheck} (h : Standing check)
    : Standing (check.step .cancel) := by
  unfold step
  dsimp only
  split
  next => exact h
  next =>
    cases h with
    | running running nothing refused =>
      obtain ⟨howed, hdelivered⟩ := List.append_eq_nil_iff.mp nothing
      rw [CheckRun.cancel_of_running running]
      apply Standing.withdrawn
      . rfl
      . simp [promised, take, howed, hdelivered]
      . simp [refused]
      . rfl
    | decided closed verdict refused =>
      rw [CheckRun.cancel_of_finished closed, take_idle]
      exact .decided closed verdict refused
    | withdrawn closed cancelled granted empty =>
      rw [CheckRun.cancel_of_finished closed, take_idle]
      exact .withdrawn closed cancelled granted empty

/--
Delivering moves a result from the decided ones to the delivered ones. As there is at most one,
nothing is put in another order by that.
-/
theorem promised_deliver {check : SharedCheck} (h : check.promised.length ≤ 1) (index : Nat)
    : (check.step (.deliver index)).promised = check.promised := by
  unfold step
  dsimp only
  split
  next => rfl
  next result hresult =>
    simp only [promised, List.length_append] at h
    obtain ⟨hindex, hget⟩ := List.getElem?_eq_some_iff.mp hresult
    -- there was only this one result, and it has not been delivered before
    have hone : check.owed.length = 1 := by omega
    have hnone : check.run.delivered = [] := List.eq_nil_of_length_eq_zero (by omega)
    obtain ⟨only, honly⟩ := List.length_eq_one_iff.mp hone
    obtain rfl : index = 0 := by omega
    simp only [honly, List.getElem_cons_zero] at hget
    simp [promised, CheckRun.deliver, honly, hnone, hget]

theorem Standing.length_promised_le {check : SharedCheck} (h : Standing check)
    : check.promised.length ≤ 1 := by
  cases h with
  | running _ nothing => simp [nothing]
  | decided _ verdict => simp [verdict]
  | withdrawn _ cancelled => simp [cancelled]

theorem standing_deliver {check : SharedCheck} (h : Standing check) (index : Nat)
    : Standing (check.step (.deliver index)) := by
  have hpromised := promised_deliver h.length_promised_le index
  -- nothing but the results changes
  have hrest : ∃ delivered, (check.step (.deliver index)).run = { check.run with delivered } ∧
      (check.step (.deliver index)).granted = check.granted := by
    unfold step
    dsimp only
    split
    next => exact ⟨check.run.delivered, rfl, rfl⟩
    next result _ => exact ⟨result :: check.run.delivered, rfl, rfl⟩
  obtain ⟨delivered, hrun, hgranted⟩ := hrest
  cases h with
  | running running nothing refused =>
    apply Standing.running
    . simpa [hrun] using running
    . simpa [hpromised] using nothing
    . simpa [hgranted] using refused
  | decided closed verdict refused =>
    apply Standing.decided
    . simpa [hrun] using closed
    . rw [hpromised, verdict, hrun]
      rfl
    . simpa [hgranted] using refused
  | withdrawn closed cancelled granted empty =>
    apply Standing.withdrawn
    . simpa [hrun] using closed
    . simpa [hpromised] using cancelled
    . simpa [hgranted] using granted
    . simpa [hrun] using empty

theorem standing_step {check : SharedCheck} (h : Standing check) (s : CheckStep)
    : Standing (check.step s) := by
  cases s with
  | record outcome => exact standing_take h (check.run.record_move outcome)
  | expire timeout => exact standing_take h (check.run.expire_move timeout)
  | cancel => exact standing_cancel h
  | abandon =>
    cases h with
    | running running nothing refused => exact .running running nothing refused
    | decided closed verdict refused => exact .decided closed verdict refused
    | withdrawn closed cancelled granted empty => exact .withdrawn closed cancelled granted empty
  | deliver index => exact standing_deliver h index

theorem standing_takeAll {check : SharedCheck} (h : Standing check) (steps : List CheckStep)
    : Standing (check.takeAll steps) := by
  induction steps generalizing check with
  | nil => exact h
  | cons s rest ih => exact ih (standing_step h s)

def rest (check : SharedCheck)
    : Bool × SortedMap Text NodeOutcome × List CheckResult × Nat :=
  (check.run.finished, check.run.outcomes, check.promised, check.granted)

theorem rest_step {check : SharedCheck} (h : Standing check) (closed : check.run.finished = true)
    (s : CheckStep) : (check.step s).rest = check.rest := by
  cases s with
  | record outcome =>
    simp only [step, (check.run.record_move outcome).eq_of_finished closed, take_idle]
  | expire timeout =>
    simp only [step, (check.run.expire_move timeout).eq_of_finished closed, take_idle]
  | cancel =>
    simp only [step, CheckRun.cancel_of_finished closed, take_idle]
    split <;> rfl
  | abandon => rfl
  | deliver index =>
    simp only [rest, promised_deliver h.length_promised_le index]
    unfold step
    dsimp only
    split <;> rfl

theorem rest_takeAll {check : SharedCheck} (h : Standing check)
    (closed : check.run.finished = true) (steps : List CheckStep)
    : (check.takeAll steps).rest = check.rest := by
  induction steps generalizing check with
  | nil => rfl
  | cons s rest ih =>
    have hstep := rest_step h closed s
    have hover : (check.step s).run.finished = true := by
      rw [← closed]
      exact congrArg Prod.fst hstep
    rw [← hstep]
    exact ih (standing_step h s) hover

theorem suffix_delivered_step (check : SharedCheck) (s : CheckStep)
    : check.run.delivered <:+ (check.step s).run.delivered := by
  cases s with
  | record outcome => simp [step, take, (check.run.record_move outcome).delivered_eq]
  | expire timeout => simp [step, take, (check.run.expire_move timeout).delivered_eq]
  | cancel =>
    simp only [step]
    split
    next => simp
    next => simp [take, CheckRun.delivered_cancel]
  | abandon => simp [step]
  | deliver index =>
    simp only [step]
    split
    next => simp
    next result _ => exact List.suffix_cons result check.run.delivered

theorem suffix_delivered_takeAll (check : SharedCheck) (steps : List CheckStep)
    : check.run.delivered <:+ (check.takeAll steps).run.delivered := by
  induction steps generalizing check with
  | nil => exact List.suffix_rfl
  | cons s rest ih => exact (suffix_delivered_step check s).trans (ih (check.step s))

theorem Standing.length_promised {check : SharedCheck} (h : Standing check)
    : check.promised.length = check.run.finished.toNat := by
  cases h with
  | running running nothing => simp [running, nothing]
  | decided closed verdict => simp [closed, verdict]
  | withdrawn closed cancelled => simp [closed, cancelled]

theorem Standing.granted_le {check : SharedCheck} (h : Standing check) : check.granted ≤ 1 := by
  cases h with
  | running _ _ refused => simp [refused]
  | decided _ _ refused => simp [refused]
  | withdrawn _ _ granted => simp [granted]

theorem Standing.granted_eq_one_iff {check : SharedCheck} (h : Standing check)
    : check.granted = 1 ↔ .cancelled ∈ check.promised := by
  cases h with
  | running _ nothing refused => simp [nothing, refused]
  | decided _ verdict refused => simp [verdict, refused]
  | withdrawn _ cancelled granted => simp [cancelled, granted]

theorem Standing.of_granted {check : SharedCheck} (h : Standing check) (granted : check.granted = 1)
    : check.run.finished = true ∧ check.promised = [.cancelled] ∧
      check.run.outcomes = .empty := by
  cases h with
  | running _ _ refused => simp [refused] at granted
  | decided _ _ refused => simp [refused] at granted
  | withdrawn closed cancelled _ empty => exact ⟨closed, cancelled, empty⟩

theorem Standing.of_result {check : SharedCheck} (h : Standing check) {result : CheckResult}
    (delivered : check.run.result? = some result)
    : check.promised = [result] ∧ check.run.delivered = [result] := by
  have hmem : result ∈ check.run.delivered := List.mem_of_getLast? delivered
  have hlength := h.length_promised_le
  have hpos := List.length_pos_of_mem hmem
  simp only [promised, List.length_append] at hlength
  have howed : check.owed = [] := List.eq_nil_of_length_eq_zero (by omega)
  obtain ⟨only, honly⟩ := List.length_eq_one_iff.mp (show check.run.delivered.length = 1 by omega)
  simp only [honly, List.mem_singleton] at hmem
  simp [promised, howed, honly, hmem]

/--
Whatever the threads do and whichever of them decides, a check has one result. It is delivered at
most once, nothing that comes later changes it, and it is a cancellation exactly when that was
granted.
-/
theorem one_result (assignment : Assignment) (job : UInt64) (desc : SnapshotDescriptor)
    (members : List Member) (before after : List CheckStep)
    : let check := (startOn assignment job desc members).takeAll before
      let later := check.takeAll after
      check.run.delivered.length ≤ 1 ∧
      check.promised.length = check.run.finished.toNat ∧
      (check.run.finished = true → later.run.finished = true) ∧
      check.granted ≤ 1 ∧
      (check.granted = 1 ↔ .cancelled ∈ check.promised) ∧
      (∀ result, check.run.result? = some result →
        (check.granted = 1 ↔ result = .cancelled)) ∧
      (check.granted = 1 →
        later.granted = 1 ∧ later.promised = [.cancelled] ∧ later.run.outcomes = .empty) ∧
      (check.run.finished = true → later.promised = check.promised) ∧
      (∀ result, check.run.result? = some result → later.run.delivered = [result]) := by
  intro check later
  have hcheck : Standing check :=
    standing_takeAll (standing_startOn assignment job desc members) before
  have hlater : Standing later := standing_takeAll hcheck after
  have hrest (closed : check.run.finished = true) : later.rest = check.rest :=
    rest_takeAll hcheck closed after
  refine ⟨?_, hcheck.length_promised, ?_, hcheck.granted_le, hcheck.granted_eq_one_iff, ?_, ?_,
    ?_, ?_⟩
  . have := hcheck.length_promised_le
    simp only [promised, List.length_append] at this
    omega
  . intro closed
    have : later.run.finished = check.run.finished := congrArg Prod.fst (hrest closed)
    rw [this, closed]
  . intro result delivered
    rw [hcheck.granted_eq_one_iff, (hcheck.of_result delivered).1, List.mem_singleton, eq_comm]
  . intro granted
    obtain ⟨closed, cancelled, _⟩ := hcheck.of_granted granted
    have hpromised : later.promised = check.promised :=
      congrArg (fun rest => rest.2.2.1) (hrest closed)
    have hgranted : later.granted = 1 := by
      rw [hlater.granted_eq_one_iff, hpromised, cancelled]
      exact List.mem_singleton_self _
    exact ⟨hgranted, (hlater.of_granted hgranted).2⟩
  . intro closed
    exact congrArg (fun rest => rest.2.2.1) (hrest closed)
  . intro result delivered
    obtain ⟨_, hdelivered⟩ := hcheck.of_result delivered
    -- what was delivered stays, and there is no room for more
    have hsuffix : check.run.delivered <:+ later.run.delivered :=
      suffix_delivered_takeAll check after
    have hle := hlater.length_promised_le
    simp only [promised, List.length_append] at hle
    rw [hdelivered] at hsuffix
    exact (hsuffix.eq_of_length_le (by simp only [List.length_singleton]; omega)).symm

end SharedCheck

end SnapshotAudit
