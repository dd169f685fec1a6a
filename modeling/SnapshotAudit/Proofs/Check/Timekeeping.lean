import SnapshotAudit.Check.Deadlines
import SnapshotAudit.Proofs.Check.Steps
import SnapshotAudit.Proofs.Lists

/-!
This module contains a coordinator that keeps the deadlines of its checks: what its threads have in
hand and do step by step while outcomes come in, checks are cancelled and timers go off. The timers
are left to one thread alone; what the others want of it waits in a queue, from which it takes one
task after another.
-/

namespace SnapshotAudit

inductive TimedAct where
  | arm (check : Nat)
  | ask (check : Nat) (node : Text)
  | handOut (check : Nat)
  | record (check : Nat) (outcome : NodeOutcome)
  | cancel (check : Nat)
  | expire (check : Nat)
  | release (job : UInt64)
  | deliver (check : Nat) (result : CheckResult)
deriving DecidableEq

/--
What is left to the thread that has the timers: to set the deadline of a check, to drop that of a
job, or to hear for a check that its timer has gone off or was stopped.
-/
inductive TimerTask where
  | arm (check : Nat)
  | release (job : UInt64)
  | wake (check : Nat) (stopped : Bool)
deriving DecidableEq

inductive TimedSubject where
  | check (c : Nat)
  | deadline (job : UInt64)
deriving DecidableEq

namespace TimedSubject

variable {subject : TimedSubject} {c d : Nat} {job other : UInt64}

def Concerns (subject : TimedSubject) (c : Nat) (job : UInt64) : Prop :=
  subject = .check c ∨ subject = .deadline job

instance (subject : TimedSubject) (c : Nat) (job : UInt64) : Decidable (subject.Concerns c job) :=
  inferInstanceAs (Decidable (_ ∨ _))

@[simp]
theorem check_concerns : (check d).Concerns c job ↔ d = c := by
  simp [Concerns]

@[simp]
theorem deadline_concerns : (deadline other).Concerns c job ↔ other = job := by
  simp [Concerns]

theorem not_concerns (h : subject.Concerns c job) (hc : c ≠ d) (hjob : job ≠ other)
    : ¬subject.Concerns d other := by
  rcases h with rfl | rfl
  . simpa using hc
  . simpa using hjob

end TimedSubject

namespace TimedAct

def subject (act : TimedAct) : TimedSubject :=
  match act with
  | .arm c | .ask c _ | .handOut c | .record c _ | .cancel c | .expire c | .deliver c _ => .check c
  | .release job => .deadline job

def posts (act : TimedAct) : List TimerTask :=
  match act with
  | .arm c => [.arm c]
  | .release job => [.release job]
  | _ => []

end TimedAct

namespace TimerTask

def subject (task : TimerTask) : TimedSubject :=
  match task with
  | .arm c | .wake c _ => .check c
  | .release job => .deadline job

end TimerTask

theorem TimedAct.subject_of_posts {act : TimedAct} {task : TimerTask} (h : task ∈ act.posts)
    : task.subject = act.subject := by
  cases act with
  | arm c => rw [List.mem_singleton.mp h]; rfl
  | release job => rw [List.mem_singleton.mp h]; rfl
  | _ => cases h

/--
A check, the nodes that were asked for their parts of it, and whether anybody has it who could
cancel it.
-/
structure TimedCheck where
  run : CheckRun
  asked : List Text
  handedOut : Bool
deriving DecidableEq

namespace TimedCheck

def undergo (k : TimedCheck) (timeout : Nat) (act : TimedAct) : TimedCheck :=
  match act with
  | .ask _ node => { k with asked := k.asked ++ [node] }
  | .handOut _ => { k with handedOut := true }
  | .record _ outcome => { k with run := (k.run.record outcome).1 }
  | .cancel _ => { k with run := k.run.cancel.1 }
  | .expire _ => { k with run := (k.run.expire timeout).1 }
  | .deliver _ result => { k with run := k.run.deliver result }
  | .arm _ | .release _ => k

def closing (k : TimedCheck) (c : Nat) (conclusion : Option Conclusion) : List TimedAct :=
  match conclusion with
  | none => []
  | some conclusion => [.release k.run.job, .deliver c conclusion.result]

/--
What a thread does next because of what it has done in a check. The participants are asked only
after the deadline was left to be set.
-/
def followUp (k : TimedCheck) (self : Text) (timeout : Nat) (act : TimedAct) : List TimedAct :=
  match act with
  | .arm c =>
    (if self ∈ k.run.participants then [.ask c self] else []) ++
      (CheckRun.remoteOf self k.run.participants).map (.ask c) ++ [.handOut c]
  | .record c outcome => k.closing c (k.run.record outcome).2
  | .cancel c => k.closing c k.run.cancel.2
  | .expire c =>
    ((k.run.expire timeout).2.map fun conclusion => .deliver c conclusion.result).toList
  | _ => []

end TimedCheck

structure Timekeeping where
  self : Text
  timeout : Nat
  nextJob : UInt64
  checks : List TimedCheck
  threads : List (List TimedAct)
  queue : List TimerTask
  loop : List TimedAct
  deadlines : Deadlines
  /-- The timers that are running, and the checks that they will wake. -/
  waits : List (Nat × Nat)
  /-- The first timer that there has not been yet. -/
  fresh : Nat
deriving DecidableEq

namespace Timekeeping

def start (self : Text) (timeout : Nat) (job : UInt64) : Timekeeping :=
  ⟨self, timeout, job, [], [], [], [], .empty, [], 0⟩

def openingActs (c : Nat) (run : CheckRun) : List TimedAct :=
  if run.finished then [.handOut c] else [.arm c]

def perform (s : Timekeeping) (act : TimedAct) : Timekeeping × List TimedAct :=
  match act.subject with
  | .deadline _ => ({ s with queue := s.queue ++ act.posts }, [])
  | .check c =>
    match s.checks[c]? with
    | none => (s, [])
    | some k =>
      ({ s with
          checks := s.checks.set c (k.undergo s.timeout act)
          queue := s.queue ++ act.posts },
        k.followUp s.self s.timeout act)

def hearings (s : Timekeeping) (timer : Option Nat) : List TimerTask :=
  (s.waits.filter fun wait => some wait.1 = timer).map fun wait => .wake wait.2 true

def stop (s : Timekeeping) (timer : Option Nat) : Timekeeping :=
  { s with
    waits := s.waits.filter fun wait => some wait.1 ≠ timer
    queue := s.queue ++ s.hearings timer }

def set (s : Timekeeping) (job : UInt64) (c : Nat) : Timekeeping :=
  let (deadlines, earlier) := s.deadlines.set job s.fresh
  { s with
    deadlines
    waits := s.waits ++ [(s.fresh, c)]
    fresh := s.fresh + 1 }.stop earlier

def drop (s : Timekeeping) (job : UInt64) : Timekeeping :=
  let (deadlines, timer) := s.deadlines.drop job
  { s with deadlines }.stop timer

def pursue (s : Timekeeping) (acts : List TimedAct) : Timekeeping :=
  { s with loop := acts }

def execute (s : Timekeeping) (task : TimerTask) : Timekeeping :=
  match task with
  | .release job => s.drop job
  | .wake _ true => s
  | .wake c false =>
    match s.checks[c]? with
    | none => s
    | some k => (s.drop k.run.job).pursue [.expire c]
  | .arm c =>
    match s.checks[c]? with
    | none => s
    | some k => s.set k.run.job c

def enroll (s : Timekeeping) (run : CheckRun) : Timekeeping :=
  { s with
    nextJob := s.nextJob + 1
    checks := s.checks ++ [⟨run, [], false⟩]
    threads := s.threads ++ [openingActs s.checks.length run] }

def begin (s : Timekeeping) (act : TimedAct) : Timekeeping :=
  { s with threads := s.threads ++ [[act]] }

def goOff (s : Timekeeping) (timer c : Nat) : Timekeeping :=
  { s with
    waits := s.waits.erase (timer, c)
    queue := s.queue ++ [.wake c false] }

inductive Goes (s : Timekeeping) : Timekeeping → Prop where
  | act (i : Nat) (act : TimedAct) (rest : List TimedAct)
    (there : s.threads[i]? = some (act :: rest))
    : Goes s { (s.perform act).1 with threads := s.threads.set i ((s.perform act).2 ++ rest) }
  | work (act : TimedAct) (rest : List TimedAct) (there : s.loop = act :: rest)
    : Goes s { (s.perform act).1 with loop := (s.perform act).2 ++ rest }
  | take (task : TimerTask) (rest : List TimerTask) (free : s.loop = [])
    (first : s.queue = task :: rest)
    : Goes s ({ s with queue := rest }.execute task)

inductive Step (s : Timekeeping) : Timekeeping → Prop where
  | check (assignment : Assignment) (desc : SnapshotDescriptor) (members : List Member)
    : Step s (s.enroll (.startOn assignment s.nextJob desc members))
  | reply (c : Nat) (k : TimedCheck) (outcome : NodeOutcome) (found : s.checks[c]? = some k)
    (asked : outcome.node ∈ k.asked) : Step s (s.begin (.record c outcome))
  | cancel (c : Nat) (k : TimedCheck) (found : s.checks[c]? = some k)
    (handedOut : k.handedOut = true) : Step s (s.begin (.cancel c))
  | goOff (timer c : Nat) (running : (timer, c) ∈ s.waits) : Step s (s.goOff timer c)
  | go {next : Timekeeping} (goes : Goes s next) : Step s next

inductive Reached (self : Text) (timeout : Nat) (job : UInt64) : Timekeeping → Prop where
  | start : Reached self timeout job (start self timeout job)
  | step {s next : Timekeeping} (reached : Reached self timeout job s) (step : Step s next)
    : Reached self timeout job next

def hands (s : Timekeeping) : List TimedAct :=
  s.loop ++ s.threads.flatten

structure Idle (s : Timekeeping) : Prop where
  queue : s.queue = []
  loop : s.loop = []
  threads : ∀ acts ∈ s.threads, acts = []

end Timekeeping

end SnapshotAudit
