import SnapshotAudit.Proofs.Check.Notices

/-!
This module contains what becomes of the notices after a deadline when inspections do not return:
they are given as long as one thread of the pool is left for them, and no number of threads is large
enough that this is always so.
-/

namespace SnapshotAudit

namespace Conducting

open CheckAct

variable {s : Conducting} {self : Text} {timeout threads : Nat} {c : Nat} {node : Text}

/--
Nothing is left to be done by anybody but inspections that have not returned. What else can happen
comes from outside: results of jobs, deadlines and cancels.
-/
structure Quiescent (s : Conducting) : Prop where
  others : ∀ acts ∈ s.others, acts = []
  pool : s.pool.takeUp? = none
  crew : ∀ acts ∈ s.crew, ∃ c rest, acts = .inspect c :: rest

/--
A node was given notice, in place if it is the own one and through a dispatcher otherwise.
-/
def Notified (s : Conducting) (c : Nat) (node : Text) : Prop :=
  ∃ way, .told c ⟨node, way⟩ ∈ s.past ∧ (way = .service ↔ node = s.self)

/--
Every thread of the pool inspects, and the notice of a node waits for one that is free.
-/
structure CrowdedOut (threads : Nat) (s : Conducting) (c : Nat) (node : Text) : Prop where
  threads : s.crew.length = threads
  crew : ∀ acts ∈ s.crew, Inspects acts
  waiting : ∃ way, ∃ act ∈ s.pool.waiting.flatten, act.Carries c ⟨node, way⟩

theorem Quiescent.inspects (quiet : Quiescent s) (staffed : Staffed threads s)
    {acts : List CheckAct} (hacts : acts ∈ s.crew) : Inspects acts := by
  obtain ⟨d, rest, rfl⟩ := quiet.crew acts hacts
  obtain rfl := eq_nil_of_inspect (staffed.crew _ hacts)
  exact ⟨d, rfl⟩

theorem Quiescent.busy (quiet : Quiescent s) (staffed : Staffed threads s)
    (hwaiting : s.pool.waiting ≠ []) : s.crew.length = threads := by
  have hfree : s.pool.free = 0 := by
    by_contra hfree
    obtain ⟨work, next, htakes⟩ := Pool.exists_takeUp? (Nat.pos_of_ne_zero hfree) hwaiting
    rw [quiet.pool] at htakes
    cases htakes
  have hthreads := staffed.threads
  omega

theorem Quiescent.notified_or_crowdedOut (quiet : Quiescent s) (staffed : Staffed threads s)
    (sound : Sound s) {news : CheckNews} (hnews : news ∈ s.past) (decides : news.Decides c node)
    : s.Notified c node ∨ CrowdedOut threads s c node := by
  rcases sound.notified hnews decides with ⟨way, htold⟩ | ⟨way, act, hact, hcarries⟩ |
    ⟨way, act, hact, -⟩
  . exact .inl ⟨way, htold, (sound.given c _ (.inr htold)).1⟩
  . rcases List.mem_append.mp hact with hact | hact
    . apply Or.inr
      have hwaiting : s.pool.waiting ≠ [] := by
        obtain ⟨acts, hacts, -⟩ := List.mem_flatten.mp hact
        exact List.ne_nil_of_mem hacts
      exact ⟨quiet.busy staffed hwaiting, fun acts => quiet.inspects staffed, way, act, hact,
        hcarries⟩
    . -- nobody gives a notice while he inspects
      obtain ⟨acts, hacts, hmem⟩ := List.mem_flatten.mp hact
      obtain ⟨d, rfl⟩ := quiet.inspects staffed hacts
      obtain rfl := List.mem_singleton.mp hmem
      exact absurd hcarries id
  . obtain ⟨acts, hacts, hmem⟩ := List.mem_flatten.mp hact
    rw [quiet.others acts hacts] at hmem
    exact absurd hmem List.not_mem_nil

/--
A deadline has passed and nothing is left to run but inspections that do not return. Then a node
that had no outcome by then was given notice, unless every thread of the pool inspects: its notice
waits for one of them. If fewer inspections than threads do not return, every such node was given
notice.
-/
theorem notified_of_quiescent (reached : Reached self timeout threads s) (quiet : Quiescent s)
    {silent : List Text} (ended : .ended c .deadline silent ∈ s.past) (hnode : node ∈ silent)
    : (s.Notified c node ∨ CrowdedOut threads s c node) ∧
      (s.crew.length < threads → s.Notified c node) := by
  have h := quiet.notified_or_crowdedOut reached.staffed reached.sound ended ⟨rfl, hnode⟩
  refine ⟨h, ?_⟩
  intro hfew
  apply h.resolve_right
  intro hcrowded
  exact absurd hcrowded.threads (Nat.ne_of_lt hfew)

theorem notified_of_quiescent_pair
    : let desc : SnapshotDescriptor := ⟨"s", 1, 64, ["n1", "n2"], [⟨1, "g", 4, 1, []⟩]⟩
      let members : List Member := [⟨"n1", .server, 0, 0⟩, ⟨"n2", .server, 0, 0⟩]
      ∃ s, Reached "n1" 1000 2 s ∧ Quiescent s ∧ .ended 0 .deadline ["n1", "n2"] ∈ s.past ∧
        s.checks.map (fun k => k.run.participants) =
          [(CheckRun.start 7 desc members).participants] ∧
        s.crew = [[.inspect 0]] ∧ s.Notified 0 "n2" := by
  intro desc members
  have h : Reached "n1" 1000 2 (start "n1" 1000 2) := .start
  replace h := h.step (.check 7 desc members)
  replace h := h.step (.go 0 (.enlist 0) [.dispatch 0 "n2"] (by decide +kernel))
  replace h := h.step (.go 0 (.dispatch 0 "n2") [] (by decide +kernel))
  replace h := h.step (.takeUp [.inspect 0] ⟨2, 1, []⟩ rfl)
  replace h := h.step (.deadline 0 _ _ rfl rfl)
  replace h := h.step (.go 1 _ _ rfl)
  replace h := h.step (.go 1 _ _ rfl)
  replace h := h.step (.takeUp _ ⟨2, 0, []⟩ rfl)
  replace h := h.step (.work 1 (.tell 0 ⟨"n1", .service⟩) [.tell 0 ⟨"n2", .dispatcher⟩]
    (by decide +kernel))
  replace h := h.step (.work 1 (.tell 0 ⟨"n2", .dispatcher⟩) [] (by decide +kernel))
  replace h := h.step (.leave 1 (by decide +kernel))
  obtain ⟨s, h, quiet, ended, nodes, crew⟩ : ∃ s, Reached "n1" 1000 2 s ∧ Quiescent s ∧
      .ended 0 .deadline ["n1", "n2"] ∈ s.past ∧
      s.checks.map (fun k => k.run.participants) = [(CheckRun.start 7 desc members).participants] ∧
      s.crew = [[.inspect 0]] :=
    ⟨_, h, ⟨by decide +kernel, rfl, fun acts hacts => ⟨0, [], List.mem_singleton.mp hacts⟩⟩,
      by decide +kernel, rfl, rfl⟩
  have hfew : s.crew.length < 2 := by
    rw [crew]
    decide
  exact ⟨s, h, quiet, ended, nodes, crew,
    (notified_of_quiescent h quiet ended (by decide)).2 hfew⟩

/--
With one thread the notices of a check wait for the inspection that the check itself has begun, and
nothing else is left to run.
-/
theorem not_notified_of_one_thread
    : let desc : SnapshotDescriptor := ⟨"s", 1, 64, ["n1", "n2"], [⟨1, "g", 4, 1, []⟩]⟩
      let members : List Member := [⟨"n1", .server, 0, 0⟩, ⟨"n2", .server, 0, 0⟩]
      ∃ s, Reached "n1" 1000 1 s ∧ Quiescent s ∧ .ended 0 .deadline ["n1", "n2"] ∈ s.past ∧
        s.checks.map (fun k => k.run.participants) =
          [(CheckRun.start 7 desc members).participants] ∧
        s.crew = [[.inspect 0]] ∧ ¬s.Notified 0 "n1" ∧ ¬s.Notified 0 "n2" := by
  intro desc members
  have h : Reached "n1" 1000 1 (start "n1" 1000 1) := .start
  replace h := h.step (.check 7 desc members)
  replace h := h.step (.go 0 (.enlist 0) [.dispatch 0 "n2"] (by decide +kernel))
  replace h := h.step (.go 0 (.dispatch 0 "n2") [] (by decide +kernel))
  replace h := h.step (.takeUp [.inspect 0] ⟨1, 0, []⟩ rfl)
  replace h := h.step (.deadline 0 _ _ rfl rfl)
  replace h := h.step (.go 1 _ _ rfl)
  replace h := h.step (.go 1 _ _ rfl)
  refine ⟨_, h, ⟨by decide +kernel, rfl, ?_⟩, by decide +kernel, rfl, rfl, ?_, ?_⟩
  . intro acts hacts
    exact ⟨0, [], List.mem_singleton.mp hacts⟩
  . rintro ⟨way, htold, -⟩
    revert htold
    cases way <;> decide +kernel
  . rintro ⟨way, htold, -⟩
    revert htold
    cases way <;> decide +kernel

structure Engaged (threads : Nat) (run : CheckRun) (count : Nat) (s : Conducting) : Prop where
  pool : s.pool = ⟨threads, threads - count, []⟩
  crew : s.crew = (List.range count).map fun c => [.inspect c]
  others : ∀ acts ∈ s.others, acts = []
  checks : s.checks = List.replicate count ⟨run, []⟩
  past : s.past = []

theorem Engaged.succ {job : UInt64} {desc : SnapshotDescriptor} {members : List Member}
    {count : Nat} (alone : (CheckRun.start job desc members).participants = [self])
    (reached : Reached self timeout threads s)
    (h : Engaged threads (.start job desc members) count s) (hcount : count < threads)
    : ∃ next, Reached self timeout threads next ∧
        Engaged threads (.start job desc members) (count + 1) next := by
  have hself := reached.self_eq
  have hlength : s.checks.length = count := by rw [h.checks, List.length_replicate]
  have hopening : openingActs s.self s.checks.length (.start job desc members) =
      [.enlist count] := by
    rw [openingActs, CheckRun.start_finished, ← CheckRun.start_participants job, alone, hself,
      hlength]
    simp [CheckRun.remoteOf]
  have hbegun := reached.step (.check job desc members)
  have henlisted := hbegun.step (.go s.others.length (.enlist count) [] (by simp [hopening]))
  have htaken := henlisted.step (.takeUp [.inspect count] ⟨threads, threads - (count + 1), []⟩ (by
    have hfree : threads - count ≠ 0 := by omega
    simp only [perform, Pool.post, h.pool, List.nil_append, Pool.takeUp?, hfree, if_false]
    rw [Nat.sub_sub]))
  refine ⟨_, htaken, rfl, ?_, ?_, ?_, h.past⟩
  . simp [perform, h.crew, List.range_succ]
  . intro acts hacts
    simp only [perform, List.set_append, Nat.lt_irrefl, Nat.sub_self, List.set_cons_zero, if_false,
      List.append_nil, List.mem_append, List.mem_singleton] at hacts
    exact hacts.elim (h.others acts) id
  . simp [perform, h.checks, List.replicate_succ']

theorem exists_engaged {job : UInt64} {desc : SnapshotDescriptor} {members : List Member}
    (timeout : Nat) (alone : (CheckRun.start job desc members).participants = [self]) (count : Nat)
    (hcount : count ≤ threads)
    : ∃ s, Reached self timeout threads s ∧ Engaged threads (.start job desc members) count s := by
  -- every check keeps one more thread
  induction count with
  | zero => exact ⟨_, .start, rfl, rfl, by simp [start], rfl, rfl⟩
  | succ count ih =>
    obtain ⟨s, reached, h⟩ := ih (Nat.le_of_succ_le hcount)
    exact h.succ alone reached hcount

theorem expires_alone {job : UInt64} {desc : SnapshotDescriptor} {members : List Member}
    (timeout : Nat) (alone : (CheckRun.start job desc members).participants = [self])
    : ∃ conclusion, ((CheckRun.start job desc members).expire timeout).2 = some conclusion ∧
        conclusion.silent = [self] := by
  have hrunning : (CheckRun.start job desc members).finished = false := by
    rw [CheckRun.start_finished, ← CheckRun.start_participants job, alone]
    rfl
  have hinvited : self ∈ CheckRun.invited desc members := by
    rw [← CheckRun.start_participants job, alone]
    exact List.mem_singleton_self self
  have hnone : (CheckRun.start job desc members).outcomes.get? self = none := by
    rw [CheckRun.get?_outcomes_start, if_neg]
    rw [CheckRun.mem_absent]
    exact fun habsent => habsent.2 hinvited
  have hsilent : (CheckRun.start job desc members).silent = [self] := by
    rw [CheckRun.silent, alone]
    simp [SortedMap.contains, hnone]
  exact ⟨_, by rw [CheckRun.expire, hrunning]; rfl, hsilent⟩

/--
No number of threads is large enough: as many checks whose inspections do not return are enough to
hold up the notices of one of them after its deadline.
-/
theorem exists_crowdedOut {job : UInt64} {desc : SnapshotDescriptor} {members : List Member}
    (timeout : Nat) (alone : (CheckRun.start job desc members).participants = [self])
    (hthreads : 0 < threads)
    : ∃ s, Reached self timeout threads s ∧ Quiescent s ∧ .ended 0 .deadline [self] ∈ s.past ∧
        ¬s.Notified 0 self ∧ CrowdedOut threads s 0 self := by
  obtain ⟨s, reached, h⟩ := exists_engaged timeout alone threads (Nat.le_refl _)
  have hself := reached.self_eq
  have hfound : s.checks[0]? = some ⟨.start job desc members, []⟩ := by
    rw [h.checks, List.getElem?_replicate, if_pos hthreads]
  obtain ⟨conclusion, hexpires, hsilent⟩ := expires_alone s.timeout alone
  have hnotices : conclusion.notices s.self = [⟨self, .service⟩] := by
    simp [Conclusion.notices, hsilent, hself]
  have hended := reached.step (.deadline 0 _ conclusion hfound hexpires)
  have hposted := hended.step (.go s.others.length (.post 0 [⟨self, .service⟩])
    [.deliver 0 conclusion.result] (by simp [conclude, hnotices]))
  have hdone := hposted.step (.go s.others.length (.deliver 0 conclusion.result) []
    (by simp [conclude, perform]))
  have hinspects (acts : List CheckAct) (hacts : acts ∈ s.crew) : Inspects acts := by
    rw [h.crew] at hacts
    obtain ⟨c, -, rfl⟩ := List.mem_map.mp hacts
    exact ⟨c, rfl⟩
  -- the notice was left to the pool, and no thread of the pool is free for it
  refine ⟨_, hdone, ⟨?_, ?_, ?_⟩, ?_, ?_, ?_, hinspects, ?_⟩
  . intro acts hacts
    simp only [perform, conclude, List.set_append, Nat.lt_irrefl, Nat.sub_self, List.set_cons_zero,
      if_false, List.nil_append, List.mem_append, List.mem_singleton] at hacts
    exact hacts.elim (h.others acts) id
  . simp [perform, conclude, Pool.post, Pool.takeUp?, h.pool]
  . intro acts hacts
    obtain ⟨c, rfl⟩ := hinspects acts hacts
    exact ⟨c, [], rfl⟩
  . simp [perform, conclude, hsilent]
  . rintro ⟨way, htold, -⟩
    simp [perform, conclude, h.past] at htold
  . simp [perform, conclude, h.crew]
  . refine ⟨.service, .tell 0 ⟨self, .service⟩, ?_, rfl, rfl⟩
    simp [perform, conclude, Pool.post]

end Conducting

end SnapshotAudit
