import SnapshotAudit.Job.LocalCall

/-!
This module contains what becomes of one job that is sent within a process: what happens to it, what
its service is handed and what the one who sent it is told. Whatever the order of what happens, the
first event that decides a job is what is told.
-/

namespace SnapshotAudit

namespace LocalEvent

/--
The result that an event brings about, if it is the first one that decides the job.
-/
def decision? (event : LocalEvent) (node : Text) (timeout : Nat) : Option DispatchResult :=
  match event with
  | due => none
  | expired =>
    some (.timedOut (.join ["node ", node, " did not reply within ", .decimal timeout, " ms"]))
  | returned outcome => some (.replied outcome)
  | threw error => some (.failed error)

def ends (event : LocalEvent) : Bool :=
  match event with
  | due | expired => false
  | returned _ | threw _ => true

end LocalEvent

/--
A job that was sent: its call, unless its node was not there, whether its time limit is still
running, what has happened to it, the questions that its service was handed and the results that
the one who sent it was told.
-/
structure LocalErrand where
  node : Text
  call : Option LocalCall
  limited : Bool
  past : List LocalEvent
  handed : List VerifyRequest
  told : List DispatchResult
deriving DecidableEq

namespace LocalErrand

def handOver (errand : LocalErrand) : LocalErrand :=
  { errand with handed := errand.handed ++ (errand.call.map LocalCall.request).toList }

def take (errand : LocalErrand) (call : LocalCall) (event : LocalEvent) : LocalErrand :=
  { errand with
    call := some (call.step event).1
    past := errand.past ++ [event]
    told := errand.told ++ match (call.step event).2 with
      | some (.answer result) => [result]
      | _ => [] }

def tell (errand : LocalErrand) (result : DispatchResult) : LocalErrand :=
  { errand with told := errand.told ++ [result] }

/--
Whether a service has a job or will get it, and has not come back with it.
-/
def outstanding (errand : LocalErrand) : Bool :=
  errand.call.isSome && !errand.past.any LocalEvent.ends

def returned (errand : LocalErrand) : Bool :=
  errand.call.isSome && errand.past.any LocalEvent.ends

theorem returned_of_outstanding {errand : LocalErrand} (h : errand.outstanding = true)
    : errand.returned = false := by
  simp only [outstanding, Bool.and_eq_true, Bool.not_eq_true'] at h
  rw [returned, h.2, Bool.and_false]

end LocalErrand

def LocalCall.Expects (call : LocalCall) (event : LocalEvent) : Prop :=
  match event with
  | .due => call.phase = .delayed
  | .expired => True
  | .returned _ | .threw _ => call.phase = .working

namespace LocalErrand

variable {errand : LocalErrand} {call : LocalCall} {event : LocalEvent}

/--
The result that has decided a job: the one that the first of the deciding events brought about.
-/
def decided? (call : LocalCall) (past : List LocalEvent) : Option DispatchResult :=
  past.findSome? fun event => event.decision? call.node call.timeout

structure Accounts (errand : LocalErrand) (call : LocalCall) : Prop where
  node : call.node = errand.node
  told : errand.told = (decided? call errand.past).toList
  answered : call.answered = (decided? call errand.past).isSome
  done_iff : call.phase = .done ↔ errand.past.any LocalEvent.ends = true

theorem decided?_step (call : LocalCall) (event : LocalEvent) (past : List LocalEvent)
    : decided? (call.step event).1 past = decided? call past := by
  simp only [decided?, LocalCall.step_node, LocalCall.step_timeout]

theorem decided?_append (call : LocalCall) (past : List LocalEvent) (event : LocalEvent)
    : decided? call (past ++ [event]) =
      (decided? call past).or (event.decision? call.node call.timeout) := by
  simp [decided?, List.findSome?_append]

theorem Accounts.answered_of_done (h : Accounts errand call) (done : call.phase = .done)
    : call.answered = true := by
  have hover := h.done_iff.mp done
  rw [List.any_eq_true] at hover
  obtain ⟨event, hmem, hends⟩ := hover
  rw [h.answered, decided?, List.findSome?_isSome_iff]
  -- nothing more is needed than that the service has come back
  refine ⟨event, hmem, ?_⟩
  cases event <;> first | rfl | cases hends

theorem told_take (h : Accounts errand call) (expects : call.Expects event)
    : (errand.take call event).told = errand.told ++
        (if call.answered then [] else (event.decision? call.node call.timeout).toList) ∧
      (call.step event).1.answered =
        (call.answered || (event.decision? call.node call.timeout).isSome) := by
  have hdone := h.answered_of_done
  cases event with
  | due =>
    have hphase : call.phase = .delayed := expects
    simp [take, LocalCall.step, hphase, LocalEvent.decision?]
  | expired =>
    cases hphase : call.phase with
    | done => simp [take, LocalCall.step, hphase, LocalEvent.decision?, hdone hphase]
    | delayed | working =>
      cases hanswered : call.answered <;>
        simp [take, LocalCall.step, LocalCall.tell, hphase, hanswered, LocalEvent.decision?,
          DispatchResult.noReply]
  | returned _ | threw _ =>
    have hphase : call.phase = .working := expects
    cases hanswered : call.answered <;>
      simp [take, LocalCall.step, LocalCall.tell, hphase, hanswered, LocalEvent.decision?]

theorem phase_step (expects : call.Expects event)
    : (call.step event).1.phase =
      match event with
      | .due => .working
      | .expired => call.phase
      | .returned _ | .threw _ => .done := by
  cases event with
  | due =>
    have hphase : call.phase = .delayed := expects
    simp [LocalCall.step, hphase]
  | expired =>
    cases hphase : call.phase <;> cases hanswered : call.answered <;>
      simp [LocalCall.step, LocalCall.tell, hphase, hanswered]
  | returned _ | threw _ =>
    have hphase : call.phase = .working := expects
    cases hanswered : call.answered <;>
      simp [LocalCall.step, LocalCall.tell, hphase, hanswered]

theorem expects_of_ends (working : call.phase = .working) (ends : event.ends = true)
    : call.Expects event := by
  cases event with
  | due | expired => cases ends
  | returned _ | threw _ => exact working

theorem phase_of_ends (working : call.phase = .working) (ends : event.ends = true)
    : (call.step event).1.phase = .done := by
  rw [phase_step (expects_of_ends working ends)]
  cases event with
  | due | expired => cases ends
  | returned _ | threw _ => rfl

theorem Accounts.take (h : Accounts errand call) (expects : call.Expects event)
    : Accounts (errand.take call event) (call.step event).1 := by
  obtain ⟨htold, hanswered⟩ := told_take h expects
  have hpast : (errand.take call event).past = errand.past ++ [event] := rfl
  have hdecided : decided? (call.step event).1 (errand.take call event).past =
      (decided? call errand.past).or (event.decision? call.node call.timeout) := by
    rw [decided?_step, hpast, decided?_append]
  constructor
  . rw [LocalCall.step_node]
    exact h.node
  . rw [htold, h.told, hdecided, h.answered]
    cases decided? call errand.past <;> simp
  . rw [hanswered, hdecided, h.answered, Option.isSome_or]
  . rw [phase_step expects, hpast, List.any_append, Bool.or_eq_true, ← h.done_iff]
    cases event with
    | due => simp [LocalEvent.ends, show call.phase = .delayed from expects]
    | expired | returned _ | threw _ => simp [LocalEvent.ends]

/--
How far a job has come. It is work of the threads from when its service shall be handed it, or its
node was not there, until what comes of it has been told; meanwhile it waits for a thread or one has
taken it up.
-/
inductive Standing (errand : LocalErrand) (waits taken : Prop) : Prop where
  | turnedAway (refused : errand.call = none) (work : waits ∨ taken) (past : errand.past = [])
    (handed : errand.handed = []) (told : errand.told = [])
  | sentBack (refused : errand.call = none) (unwaiting : ¬waits) (free : ¬taken)
    (past : errand.past = []) (handed : errand.handed = [])
    (told : errand.told = [.failed (.join ["node ", errand.node, " is not reachable"])])
  | delayed (call : LocalCall) (sent : errand.call = some call) (phase : call.phase = .delayed)
    (unwaiting : ¬waits) (free : ¬taken) (handed : errand.handed = [])
  | queued (call : LocalCall) (sent : errand.call = some call) (phase : call.phase = .working)
    (waiting : waits) (free : ¬taken) (handed : errand.handed = [])
  | served (call : LocalCall) (sent : errand.call = some call) (phase : call.phase = .working)
    (unwaiting : ¬waits) (busy : taken) (handed : errand.handed = [call.request])
  | telling (call : LocalCall) (sent : errand.call = some call) (phase : call.phase = .done)
    (unwaiting : ¬waits) (busy : taken) (handed : errand.handed = [call.request])
  | finished (call : LocalCall) (sent : errand.call = some call) (phase : call.phase = .done)
    (unwaiting : ¬waits) (free : ¬taken) (handed : errand.handed = [call.request])

theorem Standing.congr {waits taken waits' taken' : Prop} (h : Standing errand waits taken)
    (hwaits : waits' ↔ waits) (htaken : taken' ↔ taken) : Standing errand waits' taken' := by
  rw [propext hwaits, propext htaken]
  exact h

structure Settled (errand : LocalErrand) : Prop where
  told : errand.told.length = 1
  handed : errand.handed = (errand.call.map LocalCall.request).toList

structure Later (old new : LocalErrand) : Prop where
  node : new.node = old.node
  request : new.call.map LocalCall.request = old.call.map LocalCall.request
  past : old.past <+: new.past
  handed : old.handed <+: new.handed
  told : old.told <+: new.told

theorem Later.refl (errand : LocalErrand) : Later errand errand :=
  ⟨rfl, rfl, List.prefix_rfl, List.prefix_rfl, List.prefix_rfl⟩

theorem Later.trans {first second third : LocalErrand} (h : Later first second)
    (h' : Later second third) : Later first third :=
  ⟨h'.node.trans h.node, h'.request.trans h.request, h.past.trans h'.past,
    h.handed.trans h'.handed, h.told.trans h'.told⟩

/--
What is left to happen to a job.
-/
def load (errand : LocalErrand) : Nat :=
  errand.limited.toNat +
    match errand.call with
    | none => if errand.told = [] then 1 else 0
    | some call =>
      match call.phase with
      | .delayed => 4
      | .working => 1
      | .done => 0

end LocalErrand

end SnapshotAudit
