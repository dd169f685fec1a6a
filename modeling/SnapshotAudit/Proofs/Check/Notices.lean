import SnapshotAudit.Proofs.Check.Crew
import SnapshotAudit.Proofs.Check.Decisions

/-!
This module contains who is given notice that a check is no longer wanted: nobody who has answered
by the time when that is decided, and everybody who has not when a check ends early. The node of the
coordinator is given notice in place, all others through a dispatcher.
-/

namespace SnapshotAudit

namespace Conducting

variable {s next : Conducting} {c : Nat} {node : Text} {notice : Notice}

/--
A check comes to one outcome of a node in one way; what it has recorded is in the news; what counts
for a missing answer was overdue before; and nodes are given notice that it was decided about.
-/
structure Sound (s : Conducting) : Prop where
  placed : Placed s
  once : ∀ c node, s.ways c node ≤ 1
  counted : ∀ c k node, s.checks[c]? = some k → k.run.finished = false →
    node ∈ k.run.participants →
      (k.run.outcomes.contains node = true ↔ ∃ answered, .recorded c node answered ∈ s.past)
  missing : ∀ c node, (.recorded c node false ∈ s.past ∨
      ∃ outcome, .record c outcome false ∈ s.hands ∧ outcome.node = node) →
    .overdue c node ∈ s.past
  owed : ∀ news ∈ s.past, ∀ c node, news.Decides c node →
    ∃ way, s.Held c ⟨node, way⟩ ∨ .told c ⟨node, way⟩ ∈ s.past
  given : ∀ c notice, s.Held c notice ∨ .told c notice ∈ s.past →
    (notice.way = .service ↔ notice.node = s.self) ∧ ∃ news ∈ s.past, news.Decides c notice.node
  told : ∀ before c notice, before ++ [.told c notice] <+: s.past →
    ∃ news ∈ before, news.Decides c notice.node
  decided : ∀ before news c node, before ++ [news] <+: s.past → news.Decides c node →
    .recorded c node true ∉ before
  ended : ∀ before c k how silent node, before ++ [.ended c how silent] <+: s.past →
    s.checks[c]? = some k → node ∈ k.run.participants → .recorded c node true ∉ before →
      node ∈ silent ∨ .overdue c node ∈ before

theorem sound_start (self : Text) (timeout threads : Nat) : Sound (start self timeout threads) := by
  constructor
  . constructor <;> simp [start, hands, Pool.ofThreads, asked]
  all_goals simp [start, hands, Pool.ofThreads, ways, asked, Held]

namespace Sound

variable (h : Sound s)

include h

theorem not_recorded_of_asked {k : CheckInHand} (found : s.checks[c]? = some k)
    (asked : node ∈ k.asked) (answered : Bool) : .recorded c node answered ∉ s.past := by
  intro hmem
  have honce := h.once c node
  have hasked : 0 < (s.asked c).count node := by
    rw [asked_of_found found]
    exact List.count_pos_iff.mpr asked
  have hpast : 0 < s.past.countP (CheckNews.records c node) := by
    rw [List.countP_pos_iff]
    exact ⟨_, hmem, by simp [CheckNews.records]⟩
  unfold ways at honce
  omega

theorem not_recorded_of_silent {k : CheckInHand} (found : s.checks[c]? = some k)
    (running : k.run.finished = false) (silent : node ∈ k.run.silent) (answered : Bool)
    : .recorded c node answered ∉ s.past := by
  intro hmem
  obtain ⟨hnode, hnone⟩ := List.mem_filter.mp silent
  have hcontains := (h.counted c k node found running hnode).mpr ⟨answered, hmem⟩
  simp [hcontains] at hnone

theorem move_counted (move : Move s next) {k : CheckInHand} (found : next.checks[c]? = some k)
    (running : k.run.finished = false) (hnode : node ∈ k.run.participants)
    : k.run.outcomes.contains node = true ↔ ∃ answered, .recorded c node answered ∈ next.past := by
  have hpast := move.past_subset
  cases move.fate found with
  | closed old hold participants finished => simp [running] at finished
  | kept old hold participants finished outcomes quiet =>
    rw [participants] at hnode
    rw [finished] at running
    rw [outcomes, h.counted c old node hold running hnode]
    constructor
    . rintro ⟨answered, hmem⟩
      exact ⟨answered, hpast hmem⟩
    . rintro ⟨answered, hmem⟩
      exact ⟨answered, quiet node answered hmem⟩
  | begun job desc members new run =>
    have hnot : node ∉ CheckRun.absent desc members := by
      rw [run, CheckRun.start_participants] at hnode
      rw [CheckRun.mem_absent]
      exact fun habsent => habsent.2 hnode
    have hnone : k.run.outcomes.contains node = false := by
      rw [run, SortedMap.contains, CheckRun.get?_outcomes_start, if_neg hnot]
      rfl
    rw [hnone]
    simp only [Bool.false_eq_true, false_iff, not_exists]
    intro answered hmem
    -- nothing was recorded in a check that had not begun
    rcases move.recorded_or_held hmem with hmem | ⟨outcome, -, ⟨old, hold⟩, -⟩
    . exact Nat.lt_irrefl _ (new ▸ h.placed.past _ hmem)
    . exact Nat.lt_irrefl _ (new ▸ lt_of_found hold)
  | recorded old outcome answered hold run past =>
    have hmove := old.run.record_move outcome
    have hparticipants : k.run.participants = old.run.participants := by
      rw [run]
      exact congrArg (fun topology => topology.2.2.2.1) hmove.topology_eq
    have hold_running : old.run.finished = false := by
      cases hfinished : old.run.finished with
      | false => rfl
      | true =>
        rw [run, hmove.eq_of_finished hfinished, hfinished] at running
        cases running
    rw [hparticipants] at hnode
    have hbefore := h.counted c old node hold hold_running hnode
    have hcontains : k.run.outcomes.contains node = true ↔
        old.run.outcomes.contains node = true ∨ node = outcome.node := by
      rw [run, SortedMap.contains, CheckRun.get?_outcomes_record hold_running, Option.isSome_or,
        Bool.or_eq_true]
      apply or_congr_right
      split <;> simp [*]
    rw [hcontains, past]
    simp only [List.mem_append, exists_or, ← hbefore]
    by_cases hknown : old.run.outcomes.contains outcome.node = true
    . simp only [counts, hold_running, hknown, Bool.or_true, Bool.not_true, Bool.false_eq_true,
        if_false, List.not_mem_nil, exists_false, or_false, or_iff_left_iff_imp]
      rintro rfl
      exact hknown
    . simp [counts, hold_running, hknown]

theorem ways_of_new (node : Text) : s.ways s.checks.length node = 0 := by
  have hhands : s.hands.countP (CheckAct.leadsTo s.self s.checks.length node) = 0 := by
    rw [List.countP_eq_zero]
    intro act hact hleads
    have := h.placed.hands act hact
    rw [CheckAct.check_of_leadsTo hleads] at this
    exact Nat.lt_irrefl _ this
  have hpast : s.past.countP (CheckNews.records s.checks.length node) = 0 := by
    rw [List.countP_eq_zero]
    intro news hnews hrecords
    have := h.placed.past news hnews
    rw [CheckNews.check_of_records hrecords] at this
    exact Nat.lt_irrefl _ this
  simp [ways, hhands, hpast, asked]

theorem move_once (move : Move s next) (c : Nat) (node : Text) : next.ways c node ≤ 1 := by
  have hle := move.ways_le c node
  by_cases hnew : c = s.checks.length
  . rw [if_pos hnew] at hle
    rw [hnew, h.ways_of_new node, ← hnew] at hle
    exact hle
  . rw [if_neg hnew] at hle
    exact Nat.le_trans hle (h.once c node)

theorem move_missing (move : Move s next)
    (hmissing : .recorded c node false ∈ next.past ∨
      ∃ outcome, .record c outcome false ∈ next.hands ∧ outcome.node = node)
    : .overdue c node ∈ next.past := by
  have hpast := move.past_subset
  rcases hmissing with hrecorded | ⟨outcome, hheld, rfl⟩
  . rcases move.recorded_or_held hrecorded with hold | ⟨outcome, hnode, -, held⟩
    . exact hpast (h.missing c node (.inl hold))
    . exact hpast (h.missing c node (.inr ⟨outcome, held, hnode⟩))
  . rcases move.missing hheld with hold | hoverdue
    . exact hpast (h.missing c outcome.node (.inr ⟨outcome, hold, rfl⟩))
    . exact hoverdue

theorem move_owed (move : Move s next) {item : CheckNews} (hitem : item ∈ next.past)
    (decides : item.Decides c node)
    : ∃ way, next.Held c ⟨node, way⟩ ∨ .told c ⟨node, way⟩ ∈ next.past := by
  rcases move.carries hitem decides with hold | ⟨way, hheld⟩
  . obtain ⟨way, hheld | htold⟩ := h.owed item hold c node decides
    . exact ⟨way, move.held hheld⟩
    . exact ⟨way, .inr (move.past_subset htold)⟩
  . exact ⟨way, .inl hheld⟩

theorem move_given (move : Move s next)
    (hgiven : next.Held c notice ∨ .told c notice ∈ next.past)
    : (notice.way = .service ↔ notice.node = next.self) ∧
      ∃ news ∈ next.past, news.Decides c notice.node := by
  have hold (hbefore : s.Held c notice ∨ .told c notice ∈ s.past) :
      (notice.way = .service ↔ notice.node = next.self) ∧
        ∃ news ∈ next.past, news.Decides c notice.node := by
    obtain ⟨hway, news, hnews, hdecides⟩ := h.given c notice hbefore
    rw [move.self_eq]
    exact ⟨hway, news, move.past_subset hnews, hdecides⟩
  rcases hgiven with hheld | htold
  . rcases move.held_or_arises hheld with hbefore | harises
    . exact hold (.inl hbefore)
    . rw [move.self_eq]
      cases harises with
      | overdue k found asked way news =>
        have hne : notice.node ≠ s.self := by
          intro heq
          apply h.placed.asked c
          rwa [asked_of_found found, ← heq]
        exact ⟨by simp [way, hne], _, news, rfl, rfl⟩
      | ended how result silent from_end news =>
        obtain ⟨other, hother, rfl⟩ := List.mem_map.mp from_end
        refine ⟨?_, _, news, rfl, hother⟩
        dsimp only
        split <;> simp [*]
  . rcases move.told_or_held htold with hbefore | held
    . exact hold (.inr hbefore)
    . exact hold (.inl ⟨_, held, rfl, rfl⟩)

theorem move_told (move : Move s next) {before : List CheckNews}
    (hwithin : before ++ [.told c notice] <+: next.past)
    : ∃ news ∈ before, news.Decides c notice.node := by
  obtain ⟨news, hnews, hfresh⟩ := move.fresh
  rw [hnews] at hwithin
  rcases prefix_news hwithin hfresh with hold | ⟨rfl, rfl⟩
  . exact h.told before c notice hold
  . cases hfresh with
    | told d other held => exact (h.given c notice (.inl ⟨_, held, rfl, rfl⟩)).2

theorem move_decided (move : Move s next) {before : List CheckNews} {item : CheckNews}
    (hwithin : before ++ [item] <+: next.past) (decides : item.Decides c node)
    : .recorded c node true ∉ before := by
  obtain ⟨news, hnews, hfresh⟩ := move.fresh
  rw [hnews] at hwithin
  rcases prefix_news hwithin hfresh with hold | ⟨rfl, rfl⟩
  . exact h.decided before item c node hold decides
  . cases hfresh with
    | overdue d k other found asked _ =>
      obtain ⟨rfl, rfl⟩ := decides
      exact h.not_recorded_of_asked found asked true
    | ended d k how found running _ =>
      obtain ⟨rfl, hsilent⟩ := decides
      exact h.not_recorded_of_silent found running hsilent true
    | recorded _ _ _ _ _ _ _ => exact absurd decides id
    | told _ _ _ => exact absurd decides id

omit h in
theorem participants_of_move (move : Move s next) {k : CheckInHand}
    (found : next.checks[c]? = some k) (begun : c < s.checks.length)
    : ∃ old, s.checks[c]? = some old ∧ k.run.participants = old.run.participants := by
  cases move.fate found with
  | begun _ _ _ new _ => exact absurd begun (Nat.not_lt.mpr (Nat.le_of_eq new.symm))
  | kept old hold participants _ _ _ => exact ⟨old, hold, participants⟩
  | closed old hold participants _ => exact ⟨old, hold, participants⟩
  | recorded old outcome answered hold run _ =>
    refine ⟨old, hold, ?_⟩
    rw [run]
    exact congrArg (fun topology => topology.2.2.2.1) (old.run.record_move outcome).topology_eq

theorem move_ended (move : Move s next) {before : List CheckNews} {k : CheckInHand} {how : CheckEnd}
    {silent : List Text} (hwithin : before ++ [.ended c how silent] <+: next.past)
    (found : next.checks[c]? = some k) (hnode : node ∈ k.run.participants)
    (unanswered : .recorded c node true ∉ before)
    : node ∈ silent ∨ .overdue c node ∈ before := by
  obtain ⟨news, hnews, hfresh⟩ := move.fresh
  rw [hnews] at hwithin
  rcases prefix_news hwithin hfresh with hold | ⟨rfl, rfl⟩
  . have hbegun : c < s.checks.length :=
      h.placed.past (.ended c how silent) (hold.subset (by simp))
    obtain ⟨old, hfound, hparticipants⟩ := participants_of_move move found hbegun
    exact h.ended before c old how silent node hold hfound (hparticipants ▸ hnode) unanswered
  . cases hfresh with
    | ended d old how hfound running _ =>
      obtain ⟨other, hother, hparticipants⟩ := participants_of_move move found (lt_of_found hfound)
      obtain rfl : other = old := Option.some.inj (hother.symm.trans hfound)
      rw [hparticipants] at hnode
      by_cases hknown : other.run.outcomes.contains node = true
      . -- an outcome that is no answer stands for a job that ran out of time
        obtain ⟨answered, hrecorded⟩ := (h.counted c other node hfound running hnode).mp hknown
        cases answered with
        | true => exact absurd hrecorded unanswered
        | false => exact .inr (h.missing c node (.inl hrecorded))
      . exact .inl (List.mem_filter.mpr ⟨hnode, by simpa using hknown⟩)

theorem move (move : Move s next) : Sound next where
  placed := h.placed.move move
  once := h.move_once move
  counted _ _ _ := h.move_counted move
  missing _ _ := h.move_missing move
  owed _ hnews _ _ := h.move_owed move hnews
  given _ _ := h.move_given move
  told _ _ _ := h.move_told move
  decided _ _ _ _ := h.move_decided move
  ended _ _ _ _ _ _ := h.move_ended move

end Sound

variable {self : Text} {timeout threads : Nat}

theorem Reached.sound (h : Reached self timeout threads s) : Sound s := by
  induction h with
  | start => exact sound_start self timeout threads
  | step _ step ih => exact ih.move step.move

theorem Reached.self_eq (h : Reached self timeout threads s) : s.self = self := by
  induction h with
  | start => rfl
  | step _ step ih => exact step.move.self_eq.trans ih

/-!
Where the notice of a node is, once it was decided that the node is to be given one.
-/

def Issued (s : Conducting) (c : Nat) (node : Text) : Prop :=
  ∃ way, .told c ⟨node, way⟩ ∈ s.past

def Queued (s : Conducting) (c : Nat) (node : Text) : Prop :=
  ∃ way, ∃ act ∈ s.pool.waiting.flatten ++ s.crew.flatten, act.Carries c ⟨node, way⟩

def Underway (s : Conducting) (c : Nat) (node : Text) : Prop :=
  ∃ way, ∃ act ∈ s.others.flatten, act.Carries c ⟨node, way⟩

theorem Sound.notified (h : Sound s) {news : CheckNews} (hnews : news ∈ s.past)
    (decides : news.Decides c node) : s.Issued c node ∨ s.Queued c node ∨ s.Underway c node := by
  obtain ⟨way, ⟨act, hact, hcarries⟩ | htold⟩ := h.owed news hnews c node decides
  . rw [hands, ← List.append_assoc, List.mem_append] at hact
    rcases hact with hact | hact
    . exact .inr (.inl ⟨way, act, hact, hcarries⟩)
    . exact .inr (.inr ⟨way, act, hact, hcarries⟩)
  . exact .inl ⟨way, htold⟩

theorem Reached.comes_notified (h : Reached self timeout threads s) {news : CheckNews}
    (hnews : news ∈ s.past) (decides : news.Decides c node)
    : Comes Goes (fun later => later.Issued c node ∨ later.Queued c node) s := by
  apply Comes.of_measure (fun s => Reached self timeout threads s ∧ news ∈ s.past) burden ?_ ?_
    ⟨h, hnews⟩
  . -- as long as the notice is with another thread, that one can go on
    rintro s ⟨hs, hnews⟩
    rcases hs.sound.notified hnews decides with hissued | hqueued | ⟨way, act, hact, -⟩
    . exact .inl (.inl hissued)
    . exact .inl (.inr hqueued)
    . obtain ⟨acts, hacts, hmem⟩ := List.mem_flatten.mp hact
      exact .inr (exists_goes hacts (List.ne_nil_of_mem hmem))
  . rintro s next ⟨hs, hnews⟩ - goes
    refine ⟨⟨.step hs goes.step, goes.step.move.past_subset hnews⟩, ?_⟩
    exact hs.staffed.burden_lt goes

/--
A node is given notice only when that was decided before, and whenever that is decided it has not
answered until then. When a check ends early, every participant that has not answered until then is
given notice, or its notice is left to the pool or about to be; for the last of these it takes
nothing but that the other threads go on. The own node is given notice in place and all others
through a dispatcher.
-/
theorem notices_of_reached (reached : Reached self timeout threads s) (c : Nat)
    : (∀ before news node, before ++ [news] <+: s.past → news.Decides c node →
        .recorded c node true ∉ before) ∧
      (∀ before notice, before ++ [.told c notice] <+: s.past →
        ∃ news ∈ before, news.Decides c notice.node) ∧
      (∀ before how silent k node, before ++ [.ended c how silent] <+: s.past →
        s.checks[c]? = some k → node ∈ k.run.participants → .recorded c node true ∉ before →
          (s.Issued c node ∨ s.Queued c node ∨ s.Underway c node) ∧
            Comes Goes (fun later => later.Issued c node ∨ later.Queued c node) s) ∧
      (∀ notice, .told c notice ∈ s.past → (notice.way = .service ↔ notice.node = self)) := by
  have hsound := reached.sound
  refine ⟨?_, ?_, ?_, ?_⟩
  . intro before news node hwithin decides
    exact hsound.decided before news c node hwithin decides
  . intro before notice hwithin
    exact hsound.told before c notice hwithin
  . intro before how silent k node hwithin found hnode unanswered
    obtain ⟨news, hnews, decides⟩ : ∃ news ∈ s.past, news.Decides c node := by
      rcases hsound.ended before c k how silent node hwithin found hnode unanswered with
        hsilent | hoverdue
      . exact ⟨.ended c how silent, hwithin.subset (by simp), rfl, hsilent⟩
      . exact ⟨.overdue c node, hwithin.subset (List.mem_append_left _ hoverdue), rfl, rfl⟩
    exact ⟨hsound.notified hnews decides, reached.comes_notified hnews decides⟩
  . intro notice htold
    rw [← reached.self_eq]
    exact (hsound.given c notice (.inr htold)).1

theorem notices_of_reached_three
    : let desc : SnapshotDescriptor := ⟨"s", 1, 64, ["a", "b", "d"], [⟨1, "g", 8, 2, []⟩]⟩
      let members : List Member :=
        [⟨"a", .server, 0, 0⟩, ⟨"b", .server, 0, 0⟩, ⟨"d", .server, 0, 0⟩]
      let past : List CheckNews := [.recorded 0 "b" true, .ended 0 .cancelled ["a", "d"],
        .told 0 ⟨"a", .service⟩]
      ∃ s, Reached "a" 1000 1 s ∧ s.past = past ∧
        (s.checks.map fun k => k.run.participants) =
          [(CheckRun.start 7 desc members).participants] ∧
        (s.Issued 0 "d" ∨ s.Queued 0 "d" ∨ s.Underway 0 "d") := by
  intro desc members past
  have h : Reached "a" 1000 1 (start "a" 1000 1) := .start
  replace h := h.step (.check 7 desc members)
  replace h := h.step (.go 0 (.enlist 0) [.dispatch 0 "b", .dispatch 0 "d"] (by decide +kernel))
  replace h := h.step (.go 0 (.dispatch 0 "b") [.dispatch 0 "d"] (by decide +kernel))
  replace h := h.step (.go 0 (.dispatch 0 "d") [] (by decide +kernel))
  replace h := h.step (.reply 0 _ "b" (.failed "refused") rfl (by decide +kernel))
  replace h := h.step (.go 1 (.record 0 _ true) [] rfl)
  replace h := h.step (.cancel 0 _ ⟨.cancelled, ["a", "d"]⟩ rfl rfl (by decide +kernel))
  replace h := h.step (.go 2 (.tell 0 ⟨"a", .service⟩) _ rfl)
  refine ⟨_, h, by decide +kernel, by decide +kernel, ?_⟩
  exact ((notices_of_reached h 0).2.2.1 [.recorded 0 "b" true] .cancelled ["a", "d"] _ "d"
    (by decide +kernel) rfl (by decide +kernel) (by decide)).1

end Conducting

end SnapshotAudit
