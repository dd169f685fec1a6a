import Mathlib.Data.Multiset.Filter
import SnapshotAudit.Proofs.Check.Timekeeping

/-!
This module contains what a coordinator that keeps deadlines is for the deadline of one check: what
of it can be seen there, what each step can mean for it, and how far the deadline has come.
-/

namespace SnapshotAudit

inductive Cue where
  | arm
  | release
  | expire
  | wake
  | stopped
  | other
deriving DecidableEq

namespace TimedAct

def cue (act : TimedAct) : Cue :=
  match act with
  | .arm _ => .arm
  | .release _ => .release
  | .expire _ => .expire
  | .ask _ _ | .handOut _ | .record _ _ | .cancel _ | .deliver _ _ => .other

def cue? (act : TimedAct) (c : Nat) (job : UInt64) : Option Cue :=
  if act.subject.Concerns c job then some act.cue else none

end TimedAct

namespace TimerTask

def cue (task : TimerTask) : Cue :=
  match task with
  | .arm _ => .arm
  | .release _ => .release
  | .wake _ false => .wake
  | .wake _ true => .stopped

def cue? (task : TimerTask) (c : Nat) (job : UInt64) : Option Cue :=
  if task.subject.Concerns c job then some task.cue else none

end TimerTask

/--
What can be seen of the deadline of one check: whether nodes were asked or the check handed out,
whether it is over, what the threads have in hand and what is left to the one that has the timers,
its timer, and those that are running for it.
-/
@[ext]
structure DeadlineView where
  begun : Prop
  finished : Bool
  hands : Multiset Cue
  queue : List Cue
  timer : Option Nat
  waits : Multiset Nat

namespace Timekeeping

def view (s : Timekeeping) (c : Nat) (k : TimedCheck) : DeadlineView where
  begun := k.asked ≠ [] ∨ k.handedOut = true
  finished := k.run.finished
  hands := s.hands.filterMap fun act => act.cue? c k.run.job
  queue := s.queue.filterMap fun task => task.cue? c k.run.job
  timer := s.deadlines.get? k.run.job
  waits := s.waits.filterMap fun wait => if wait.2 = c then some wait.1 else none

end Timekeeping

inductive DeadlineView.Turn (v : DeadlineView) : DeadlineView → Prop where
  | rest : Turn v v
  | begin (begun : v.begun) : Turn v { v with hands := .other ::ₘ v.hands }
  | arm (rest come : Multiset Cue) (hands : v.hands = .arm ::ₘ rest)
    (others : ∀ cue ∈ come, cue = .other)
    : Turn v { v with hands := come + rest, queue := v.queue ++ [.arm] }
  | other (begun : Prop) (rest : Multiset Cue) (hands : v.hands = .other ::ₘ rest)
    : Turn v { v with begun, hands := rest }
  | close (rest : Multiset Cue) (hands : v.hands = .other ::ₘ rest)
    : Turn v { v with hands := .release ::ₘ .other ::ₘ rest, finished := true }
  | expire (rest come : Multiset Cue) (hands : v.hands = .expire ::ₘ rest)
    (others : ∀ cue ∈ come, cue = .other)
    : Turn v { v with hands := come + rest, finished := true }
  | release (rest : Multiset Cue) (hands : v.hands = .release ::ₘ rest)
    : Turn v { v with hands := rest, queue := v.queue ++ [.release] }
  | goOff (timer : Nat) (more : Multiset Nat) (running : v.waits = timer ::ₘ more)
    : Turn v { v with waits := more, queue := v.queue ++ [.wake] }
  | set (timer : Nat) (later : List Cue) (first : v.queue = .arm :: later) (unset : v.timer = none)
    : Turn v { v with queue := later, timer := some timer, waits := timer ::ₘ v.waits }
  | drop (later stopped : List Cue) (first : v.queue = .release :: later)
    (stops : ∀ cue ∈ stopped, cue = .stopped)
    : Turn v { v with queue := later ++ stopped, timer := none, waits := 0 }
  | wake (later stopped : List Cue) (first : v.queue = .wake :: later)
    (stops : ∀ cue ∈ stopped, cue = .stopped)
    : Turn v { v with
        hands := .expire ::ₘ v.hands
        queue := later ++ stopped
        timer := none
        waits := 0 }
  | hear (later : List Cue) (first : v.queue = .stopped :: later)
    : Turn v { v with queue := later }

namespace DeadlineView

/-!
How far the deadline of a check has come. When the check ends before its time is over, its deadline
is to be dropped, and that comes after it is set.
-/

structure Unarmed (v : DeadlineView) : Prop where
  hands : v.hands = {.arm}
  queue : v.queue = []
  timer : v.timer = none
  waits : v.waits = 0
  begun : ¬v.begun
  running : v.finished = false

structure Armed (v : DeadlineView) (later : List Cue) : Prop where
  queue : v.queue = .arm :: later
  releases : ∀ cue ∈ later, cue = .release
  arm : .arm ∉ v.hands
  expire : .expire ∉ v.hands
  timer : v.timer = none
  waits : v.waits = 0
  dropped : v.finished = true ↔ .release ∈ later ∨ .release ∈ v.hands

structure Ticking (v : DeadlineView) (timer : Nat) : Prop where
  queue : .arm ∉ v.queue
  arm : .arm ∉ v.hands
  expire : .expire ∉ v.hands
  set : v.timer = some timer
  waits : v.waits = {timer} ∨ v.waits = 0 ∧ .wake ∈ v.queue
  dropped : v.finished = true ↔ .release ∈ v.queue ∨ .release ∈ v.hands

structure Past (v : DeadlineView) : Prop where
  queue : .arm ∉ v.queue
  arm : .arm ∉ v.hands
  timer : v.timer = none
  waits : v.waits = 0
  ended : v.finished = true ∨ .expire ∈ v.hands
  dropped : .release ∈ v.queue ∨ .release ∈ v.hands → v.finished = true

inductive Stage (v : DeadlineView) : Prop where
  | unarmed (h : Unarmed v)
  | armed (later : List Cue) (h : Armed v later)
  | ticking (timer : Nat) (h : Ticking v timer)
  | past (h : Past v)

variable {v next : DeadlineView} {later : List Cue} {timer : Nat}

theorem Unarmed.first (h : Unarmed v) {cue : Cue} {rest : Multiset Cue}
    (first : v.hands = cue ::ₘ rest) : cue = .arm ∧ rest = 0 := by
  obtain ⟨heq, hrest⟩ := (Multiset.singleton_eq_cons_iff _).mp (h.hands.symm.trans first)
  exact ⟨heq.symm, hrest⟩

theorem mem_add_of_others {come rest : Multiset Cue} (cue : Cue)
    (others : ∀ cue ∈ come, cue = .other) (hne : cue ≠ .other)
    : cue ∈ come + rest ↔ cue ∈ rest := by
  rw [Multiset.mem_add, or_iff_right]
  exact fun hmem => hne (others cue hmem)

theorem mem_append_of_stopped {later stopped : List Cue} (cue : Cue)
    (stops : ∀ cue ∈ stopped, cue = .stopped) (hne : cue ≠ .stopped)
    : cue ∈ later ++ stopped ↔ cue ∈ later := by
  rw [List.mem_append, or_iff_left]
  exact fun hmem => hne (stops cue hmem)

theorem Unarmed.turn (h : Unarmed v) (turn : Turn v next) : Stage next := by
  cases turn with
  | rest => exact .unarmed h
  | begin begun => exact absurd begun h.begun
  | arm rest come first others =>
    obtain ⟨-, rfl⟩ := h.first first
    have hcome (cue : Cue) (hcue : cue ≠ .other) : cue ∉ come + 0 := by
      rw [mem_add_of_others cue others hcue]
      exact Multiset.notMem_zero cue
    refine .armed [] ⟨?_, nofun, hcome _ nofun, hcome _ nofun, h.timer, h.waits, ?_⟩
    . rw [h.queue, List.nil_append]
    . simpa [h.running] using hcome .release nofun
  | other _ _ first => exact absurd (h.first first).1 nofun
  | close _ first => exact absurd (h.first first).1 nofun
  | expire _ _ first => exact absurd (h.first first).1 nofun
  | release _ first => exact absurd (h.first first).1 nofun
  | goOff _ _ running => simp [h.waits] at running
  | set _ _ first => simp [h.queue] at first
  | drop _ _ first => simp [h.queue] at first
  | wake _ _ first => simp [h.queue] at first
  | hear _ first => simp [h.queue] at first

theorem Armed.turn (h : Armed v later) (turn : Turn v next) : Stage next := by
  obtain ⟨queue, releases, arm, expire, timer, waits, dropped⟩ := h
  cases turn with
  | rest => exact .armed later ⟨queue, releases, arm, expire, timer, waits, dropped⟩
  | begin => exact .armed later ⟨queue, releases, by simpa, by simpa, timer, waits, by simpa⟩
  | arm _ _ first => simp [first] at arm
  | other _ _ first =>
    simp only [first, Multiset.mem_cons, reduceCtorEq, false_or] at arm expire dropped
    exact .armed later ⟨queue, releases, arm, expire, timer, waits, dropped⟩
  | close _ first =>
    simp only [first, Multiset.mem_cons, reduceCtorEq, false_or] at arm expire
    exact .armed later ⟨queue, releases, by simpa, by simpa, timer, waits, by simp⟩
  | expire _ _ first => simp [first] at expire
  | release _ first =>
    simp only [first, Multiset.mem_cons, reduceCtorEq, false_or] at arm expire
    refine .armed (later ++ [.release]) ⟨?_, ?_, arm, expire, timer, waits, ?_⟩
    . rw [queue, List.cons_append]
    . simpa [or_imp, forall_and] using releases
    . simpa [first] using dropped
  | goOff _ _ running => simp [waits] at running
  | set fresh rest first unset =>
    obtain rfl : later = rest := by simpa [queue] using first
    have harm : .arm ∉ later := fun hmem => absurd (releases _ hmem) nofun
    exact .ticking fresh ⟨harm, arm, expire, rfl, .inl (by simp [waits]), dropped⟩
  | drop _ _ first => simp [queue] at first
  | wake _ _ first => simp [queue] at first
  | hear _ first => simp [queue] at first

theorem Ticking.turn (h : Ticking v timer) (turn : Turn v next) : Stage next := by
  obtain ⟨queue, arm, expire, set, waits, dropped⟩ := h
  cases turn with
  | rest => exact .ticking timer ⟨queue, arm, expire, set, waits, dropped⟩
  | begin => exact .ticking timer ⟨queue, by simpa, by simpa, set, waits, by simpa⟩
  | arm _ _ first => simp [first] at arm
  | other _ _ first =>
    simp only [first, Multiset.mem_cons, reduceCtorEq, false_or] at arm expire dropped
    exact .ticking timer ⟨queue, arm, expire, set, waits, dropped⟩
  | close _ first =>
    simp only [first, Multiset.mem_cons, reduceCtorEq, false_or] at arm expire
    exact .ticking timer ⟨queue, by simpa, by simpa, set, waits, by simp⟩
  | expire _ _ first => simp [first] at expire
  | release _ first =>
    simp only [first, Multiset.mem_cons, reduceCtorEq, false_or] at arm expire
    refine .ticking timer ⟨by simpa, arm, expire, set, ?_, ?_⟩
    . simpa using waits
    . simpa [first] using dropped
  | goOff _ more running =>
    have hmore : more = 0 := by
      rcases waits with hwaits | ⟨hwaits, -⟩
      . exact ((Multiset.singleton_eq_cons_iff _).mp (hwaits.symm.trans running)).2
      . simp [hwaits] at running
    exact .ticking timer ⟨by simpa, arm, expire, set, .inr ⟨hmore, by simp⟩, by simpa using dropped⟩
  | set _ _ first => simp [first] at queue
  | drop later stopped first stops =>
    have ended : v.finished = true := dropped.mpr (.inl (by simp [first]))
    simp only [first, List.mem_cons, reduceCtorEq, false_or] at queue
    have harm := (mem_append_of_stopped .arm stops nofun).not.mpr queue
    exact .past ⟨harm, arm, rfl, rfl, .inl ended, fun _ => ended⟩
  | wake later stopped first stops =>
    simp only [first, List.mem_cons, reduceCtorEq, false_or] at queue dropped
    have harm := (mem_append_of_stopped .arm stops nofun).not.mpr queue
    refine .past ⟨harm, by simpa, rfl, rfl, .inr (Multiset.mem_cons_self _ _), fun h => ?_⟩
    exact dropped.mpr (h.imp (mem_append_of_stopped .release stops nofun).mp (by simp))
  | hear _ first =>
    simp only [first, List.mem_cons, reduceCtorEq, false_or] at queue waits dropped
    exact .ticking timer ⟨queue, arm, expire, set, waits, dropped⟩

theorem Past.turn (h : Past v) (turn : Turn v next) : Stage next := by
  obtain ⟨queue, arm, timer, waits, ended, dropped⟩ := h
  cases turn with
  | rest => exact .past ⟨queue, arm, timer, waits, ended, dropped⟩
  | begin => exact .past ⟨queue, by simpa, timer, waits, by simpa, by simpa⟩
  | arm _ _ first => simp [first] at arm
  | other _ _ first =>
    simp only [first, Multiset.mem_cons, reduceCtorEq, false_or] at arm ended dropped
    exact .past ⟨queue, arm, timer, waits, ended, dropped⟩
  | close _ first =>
    simp only [first, Multiset.mem_cons, reduceCtorEq, false_or] at arm
    exact .past ⟨queue, by simpa, timer, waits, .inl rfl, fun _ => rfl⟩
  | expire _ _ first others =>
    simp only [first, Multiset.mem_cons, reduceCtorEq, false_or] at arm
    have harm := (mem_add_of_others .arm others nofun).not.mpr arm
    exact .past ⟨queue, harm, timer, waits, .inl rfl, fun _ => rfl⟩
  | release _ first =>
    have closed : v.finished = true := dropped (.inr (by simp [first]))
    simp only [first, Multiset.mem_cons, reduceCtorEq, false_or] at arm
    exact .past ⟨by simpa, arm, timer, waits, .inl closed, fun _ => closed⟩
  | goOff _ _ running => simp [waits] at running
  | set _ _ first => simp [first] at queue
  | drop later stopped first stops =>
    have closed : v.finished = true := dropped (.inl (by simp [first]))
    simp only [first, List.mem_cons, reduceCtorEq, false_or] at queue
    have harm := (mem_append_of_stopped .arm stops nofun).not.mpr queue
    exact .past ⟨harm, arm, rfl, rfl, .inl closed, fun _ => closed⟩
  | wake later stopped first stops =>
    simp only [first, List.mem_cons, reduceCtorEq, false_or] at queue dropped
    have harm := (mem_append_of_stopped .arm stops nofun).not.mpr queue
    refine .past ⟨harm, by simpa, rfl, rfl, .inr (Multiset.mem_cons_self _ _), fun h => ?_⟩
    exact dropped (h.imp (mem_append_of_stopped .release stops nofun).mp (by simp))
  | hear _ first =>
    simp only [first, List.mem_cons, reduceCtorEq, false_or] at queue dropped
    exact .past ⟨queue, arm, timer, waits, ended, by simpa using dropped⟩

theorem Stage.turn (h : Stage v) (turn : Turn v next) : Stage next := by
  cases h with
  | unarmed h => exact h.turn turn
  | armed later h => exact h.turn turn
  | ticking timer h => exact h.turn turn
  | past h => exact h.turn turn

theorem Stage.timer_of_waits (h : Stage v) (waits : timer ∈ v.waits) : v.timer = some timer := by
  cases h with
  | unarmed h => simp [h.waits] at waits
  | armed later h => simp [h.waits] at waits
  | ticking other h =>
    rcases h.waits with hwaits | ⟨hwaits, -⟩
    . rw [hwaits, Multiset.mem_singleton] at waits
      rw [waits, h.set]
    . simp [hwaits] at waits
  | past h => simp [h.waits] at waits

theorem Stage.unset_of_arm (h : Stage v) (arm : .arm ∈ v.queue) : v.timer = none := by
  cases h with
  | unarmed h => exact h.timer
  | armed later h => exact h.timer
  | ticking timer h => exact absurd arm h.queue
  | past h => exact h.timer

/--
When nothing is in hand and nothing is left to be done, the deadline of a check is either running or
over, and the check with it.
-/
theorem Stage.of_idle (h : Stage v) (hands : v.hands = 0) (queue : v.queue = [])
    : (v.finished = false ∧ ∃ timer, v.timer = some timer ∧ v.waits = {timer}) ∨
      (v.finished = true ∧ v.timer = none ∧ v.waits = 0) := by
  cases h with
  | unarmed h => simp [h.hands] at hands
  | armed later h => simp [h.queue] at queue
  | ticking timer h =>
    have running : v.finished = false := by simpa [hands, queue] using h.dropped
    have waits : v.waits = {timer} := by simpa [queue] using h.waits
    exact .inl ⟨running, timer, h.set, waits⟩
  | past h =>
    have closed : v.finished = true := by simpa [hands] using h.ended
    exact .inr ⟨closed, h.timer, h.waits⟩

end DeadlineView

end SnapshotAudit
