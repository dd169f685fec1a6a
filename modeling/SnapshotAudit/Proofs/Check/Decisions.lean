import Mathlib.Data.List.Nodup
import SnapshotAudit.Proofs.Check.Conducting

/-!
This module contains what one step of a coordinator means for the notices that a check is no longer
wanted: why one comes into hand, what becomes of one that is in hand, and that a check comes to an
outcome of a node in one way only.
-/

namespace SnapshotAudit

namespace CheckAct

def check (act : CheckAct) : Nat :=
  match act with
  | enlist c | dispatch c _ | inspect c | record c _ _ | post c _ | tell c _ | deliver c _ => c

def Carries (act : CheckAct) (c : Nat) (notice : Notice) : Prop :=
  match act with
  | post d notices => d = c ∧ notice ∈ notices
  | tell d other => d = c ∧ other = notice
  | _ => False

/--
Whether an act is on the way to the outcome of a node.
-/
def leadsTo (self : Text) (c : Nat) (node : Text) (act : CheckAct) : Bool :=
  match act with
  | enlist d | inspect d => d = c && self = node
  | dispatch d other => d = c && other = node
  | record d outcome _ => d = c && outcome.node = node
  | post _ _ | tell _ _ | deliver _ _ => false

theorem check_of_leadsTo {self : Text} {c : Nat} {node : Text} {act : CheckAct}
    (h : act.leadsTo self c node = true) : act.check = c := by
  cases act <;> simp_all [leadsTo, check]

end CheckAct

namespace CheckNews

def check (news : CheckNews) : Nat :=
  match news with
  | recorded c _ _ | overdue c _ | ended c _ _ | told c _ => c

def Decides (news : CheckNews) (c : Nat) (node : Text) : Prop :=
  match news with
  | overdue d other => d = c ∧ other = node
  | ended d _ silent => d = c ∧ node ∈ silent
  | recorded _ _ _ | told _ _ => False

def records (c : Nat) (node : Text) (news : CheckNews) : Bool :=
  match news with
  | recorded d other _ => d = c && other = node
  | _ => false

theorem check_of_records {c : Nat} {node : Text} {news : CheckNews}
    (h : news.records c node = true) : news.check = c := by
  cases news <;> simp_all [records, check]

end CheckNews

namespace Conducting

variable {s next : Conducting} {gone come : List CheckAct} {news : List CheckNews}
variable {c : Nat} {node : Text} {notice : Notice} {act : CheckAct}

def asked (s : Conducting) (c : Nat) : List Text :=
  ((s.checks[c]?).map CheckInHand.asked).getD []

/--
The ways in which a check comes or has come to an outcome of a node.
-/
def ways (s : Conducting) (c : Nat) (node : Text) : Nat :=
  s.hands.countP (CheckAct.leadsTo s.self c node) + (s.asked c).count node +
    s.past.countP (CheckNews.records c node)

def Held (s : Conducting) (c : Nat) (notice : Notice) : Prop :=
  ∃ act ∈ s.hands, act.Carries c notice

/-!
What is new after a step.
-/

inductive Fresh (s next : Conducting) : List CheckNews → Prop where
  | nothing : Fresh s next []
  | overdue (c : Nat) (k : CheckInHand) (node : Text) (found : s.checks[c]? = some k)
    (asked : node ∈ k.asked) (gives : next.Held c ⟨node, .dispatcher⟩)
    : Fresh s next [.overdue c node]
  | ended (c : Nat) (k : CheckInHand) (how : CheckEnd) (found : s.checks[c]? = some k)
    (running : k.run.finished = false)
    (gives : ∀ node ∈ k.run.silent, ∃ way, next.Held c ⟨node, way⟩)
    : Fresh s next [.ended c how k.run.silent]
  | recorded (c : Nat) (k : CheckInHand) (outcome : NodeOutcome) (answered : Bool)
    (found : s.checks[c]? = some k) (counts : counts k.run outcome = true)
    (held : .record c outcome answered ∈ s.hands)
    : Fresh s next [.recorded c outcome.node answered]
  | told (c : Nat) (notice : Notice) (held : .tell c notice ∈ s.hands)
    : Fresh s next [.told c notice]

theorem Move.fresh (move : Move s next)
    : ∃ news, next.past = s.past ++ news ∧ Fresh s next news := by
  cases move with
  | shift _ change | opened _ _ _ _ change | enlisted _ _ change | dispatched _ _ _ change
  | inspected _ _ _ _ change | lost _ _ _ _ change | posted _ _ _ change
  | delivered _ _ _ change => exact ⟨[], change.past, .nothing⟩
  | replied c k node result found asked checks change =>
    refine ⟨_, change.past, ?_⟩
    cases result with
    | timedOut error =>
      apply Fresh.overdue c k node found asked
      exact ⟨_, change.mem_of_come List.mem_cons_self, rfl, List.mem_cons_self⟩
    | replied outcome => exact .nothing
    | failed error => exact .nothing
  | ended c k how run result acts found running closed participants checks gives change =>
    refine ⟨_, change.past, .ended c k how found running ?_⟩
    intro node hsilent
    have hnotice := List.mem_map_of_mem hsilent
      (f := fun node => (⟨node, if node = s.self then .service else .dispatcher⟩ : Notice))
    refine ⟨if node = s.self then .service else .dispatcher, ?_⟩
    rcases gives with rfl | rfl
    . exact ⟨_, change.mem_of_come List.mem_cons_self, rfl, hnotice⟩
    . refine ⟨.tell c _, change.mem_of_come (List.mem_append_left _ ?_), rfl, rfl⟩
      exact List.mem_map_of_mem hnotice
  | recorded c k outcome answered acts found checks delivers change =>
    refine ⟨_, change.past, ?_⟩
    split
    next hcounts =>
      have hheld := change.mem_of_gone List.mem_cons_self
      exact .recorded c k outcome answered found hcounts hheld
    next => exact .nothing
  | told c notice checks change =>
    exact ⟨_, change.past, .told c notice (change.mem_of_gone List.mem_cons_self)⟩

theorem Move.past_subset (move : Move s next) : s.past ⊆ next.past := by
  obtain ⟨news, hpast, -⟩ := move.fresh
  rw [hpast]
  exact List.subset_append_left _ _

theorem Move.recorded_or_held (move : Move s next) {answered : Bool}
    (h : .recorded c node answered ∈ next.past)
    : .recorded c node answered ∈ s.past ∨ ∃ outcome, outcome.node = node ∧
      (∃ k, s.checks[c]? = some k) ∧ .record c outcome answered ∈ s.hands := by
  obtain ⟨news, hpast, hfresh⟩ := move.fresh
  rw [hpast, List.mem_append] at h
  apply h.imp_right
  intro hnew
  cases hfresh with
  | recorded d k outcome told found counts held =>
    obtain ⟨rfl, rfl, rfl⟩ := CheckNews.recorded.inj (List.mem_singleton.mp hnew)
    exact ⟨outcome, rfl, ⟨k, found⟩, held⟩
  | nothing | overdue _ _ _ _ _ _ | ended _ _ _ _ _ _ | told _ _ _ => simp at hnew

theorem Move.told_or_held (move : Move s next) (h : .told c notice ∈ next.past)
    : .told c notice ∈ s.past ∨ .tell c notice ∈ s.hands := by
  obtain ⟨news, hpast, hfresh⟩ := move.fresh
  rw [hpast, List.mem_append] at h
  apply h.imp_right
  intro hnew
  cases hfresh with
  | told d other held =>
    obtain ⟨rfl, rfl⟩ := CheckNews.told.inj (List.mem_singleton.mp hnew)
    exact held
  | nothing | overdue _ _ _ _ _ _ | ended _ _ _ _ _ _ | recorded _ _ _ _ _ _ _ => simp at hnew

inductive Brought (s next : Conducting) : CheckAct → Prop where
  | enlist (begun : s.checks.length < next.checks.length) : Brought s next (.enlist s.checks.length)
  | dispatch (node : Text) (other : node ≠ s.self) (begun : s.checks.length < next.checks.length)
    : Brought s next (.dispatch s.checks.length node)
  | inspect (c : Nat) (held : .enlist c ∈ s.hands) : Brought s next (.inspect c)
  | inspected (c : Nat) (outcome : NodeOutcome) (held : .inspect c ∈ s.hands)
    : Brought s next (.record c outcome true)
  | answered (c : Nat) (k : CheckInHand) (outcome : NodeOutcome) (found : s.checks[c]? = some k)
    : Brought s next (.record c outcome true)
  | missing (c : Nat) (k : CheckInHand) (outcome : NodeOutcome) (found : s.checks[c]? = some k)
    (news : .overdue c outcome.node ∈ next.past) : Brought s next (.record c outcome false)
  | overdue (c : Nat) (k : CheckInHand) (node : Text) (found : s.checks[c]? = some k)
    (asked : node ∈ k.asked) (news : .overdue c node ∈ next.past)
    : Brought s next (.post c [⟨node, .dispatcher⟩])
  | expired (c : Nat) (k : CheckInHand) (how : CheckEnd) (result : CheckResult)
    (found : s.checks[c]? = some k) (news : .ended c how k.run.silent ∈ next.past)
    : Brought s next (.post c (Conclusion.notices ⟨result, k.run.silent⟩ s.self))
  | cancelled (c : Nat) (k : CheckInHand) (how : CheckEnd) (result : CheckResult) (notice : Notice)
    (found : s.checks[c]? = some k) (news : .ended c how k.run.silent ∈ next.past)
    (mem : notice ∈ Conclusion.notices ⟨result, k.run.silent⟩ s.self)
    : Brought s next (.tell c notice)
  | posted (c : Nat) (notices : List Notice) (notice : Notice) (held : .post c notices ∈ s.hands)
    (mem : notice ∈ notices) : Brought s next (.tell c notice)
  | deliver (c : Nat) (k : CheckInHand) (result : CheckResult) (found : s.checks[c]? = some k)
    : Brought s next (.deliver c result)

theorem brought_of_opening {self : Text} {d : Nat} {run : CheckRun}
    (hact : act ∈ openingActs self d run)
    : act = .enlist d ∨ ∃ node, node ≠ self ∧ act = .dispatch d node := by
  unfold openingActs at hact
  split at hact
  next => exact absurd hact List.not_mem_nil
  next =>
    rcases List.mem_append.mp hact with hact | hact
    . split at hact
      next => exact .inl (List.mem_singleton.mp hact)
      next => exact absurd hact List.not_mem_nil
    . obtain ⟨node, hnode, rfl⟩ := List.mem_map.mp hact
      have hne : node ≠ self := by simpa [CheckRun.remoteOf] using (List.mem_filter.mp hnode).2
      exact .inr ⟨node, hne, rfl⟩

theorem Move.mem_or_brought (move : Move s next) (hact : act ∈ next.hands)
    : act ∈ s.hands ∨ Brought s next act := by
  -- what has not come was there before
  have hcome {gone come : List CheckAct} {news : List CheckNews}
      (change : Change s next gone come news) (h : ∀ act ∈ come, Brought s next act) :
      act ∈ s.hands ∨ Brought s next act :=
    (change.come_or_mem hact).symm.imp_right (h act)
  cases move with
  | shift _ change | dispatched _ _ _ change | lost _ _ _ _ change | told _ _ _ change
  | delivered _ _ _ change => exact hcome change fun _ hnil => absurd hnil List.not_mem_nil
  | enlisted c _ change =>
    apply hcome change
    intro act hact
    obtain rfl := List.mem_singleton.mp hact
    exact .inspect c (change.mem_of_gone List.mem_cons_self)
  | inspected c outcome _ _ change =>
    apply hcome change
    intro act hact
    obtain rfl := List.mem_singleton.mp hact
    exact .inspected c outcome (change.mem_of_gone List.mem_cons_self)
  | recorded c k _ _ acts found _ delivers change =>
    apply hcome change
    intro act hact
    obtain ⟨result, rfl⟩ := delivers act hact
    exact .deliver c k result found
  | posted c notices _ change =>
    apply hcome change
    intro act hact
    obtain ⟨notice, hnotice, rfl⟩ := List.mem_map.mp hact
    exact .posted c notices notice (change.mem_of_gone List.mem_cons_self) hnotice
  | opened job desc members checks change =>
    apply hcome change
    intro act hact
    have hbegun : s.checks.length < next.checks.length := by simp [checks]
    rcases brought_of_opening hact with rfl | ⟨node, hnode, rfl⟩
    . exact .enlist hbegun
    . exact .dispatch node hnode hbegun
  | replied c k node result found asked _ change =>
    apply hcome change
    intro act hact
    cases result with
    | replied outcome | failed error =>
      obtain rfl := List.mem_singleton.mp hact
      exact .answered c k _ found
    | timedOut error =>
      have hnews : .overdue c node ∈ next.past := by simp [change.past, replyNews]
      rcases List.mem_cons.mp hact with rfl | hact
      . exact .overdue c k node found asked hnews
      . obtain rfl := List.mem_singleton.mp hact
        exact .missing c k _ found hnews
  | ended c k how run result acts found _ _ _ _ gives change =>
    apply hcome change
    intro act hact
    have hnews : .ended c how k.run.silent ∈ next.past := by simp [change.past]
    rcases gives with rfl | rfl
    . rcases List.mem_cons.mp hact with rfl | hact
      . exact .expired c k how result found hnews
      . obtain rfl := List.mem_singleton.mp hact
        exact .deliver c k result found
    . rcases List.mem_append.mp hact with hact | hact
      . obtain ⟨notice, hnotice, rfl⟩ := List.mem_map.mp hact
        exact .cancelled c k how result notice found hnews hnotice
      . obtain rfl := List.mem_singleton.mp hact
        exact .deliver c k result found

theorem prefix_news {before past news : List CheckNews} {item : CheckNews}
    (h : before ++ [item] <+: past ++ news) (hfresh : Fresh s next news)
    : before ++ [item] <+: past ∨ (before = past ∧ news = [item]) := by
  have hsingle {last : CheckNews} (h : before ++ [item] <+: past ++ [last]) :
      before ++ [item] <+: past ∨ (before = past ∧ [last] = [item]) := by
    rcases List.prefix_concat_iff.mp h with heq | hwithin
    . obtain ⟨hbefore, hlast⟩ := List.append_inj' heq rfl
      exact .inr ⟨hbefore, hlast.symm⟩
    . exact .inl hwithin
  cases hfresh with
  | nothing => exact .inl (by rwa [List.append_nil] at h)
  | overdue _ _ _ _ _ _ => exact hsingle h
  | ended _ _ _ _ _ _ => exact hsingle h
  | recorded _ _ _ _ _ _ _ => exact hsingle h
  | told _ _ _ => exact hsingle h

/--
What a step makes of a check: it begins, nothing about it changes that has to do with outcomes, it
ends early, or an outcome is recorded.
-/
inductive Fate (s next : Conducting) (c : Nat) (k : CheckInHand) : Prop where
  | begun (job : UInt64) (desc : SnapshotDescriptor) (members : List Member)
    (new : c = s.checks.length) (run : k.run = .start job desc members)
  | kept (old : CheckInHand) (found : s.checks[c]? = some old)
    (participants : k.run.participants = old.run.participants)
    (finished : k.run.finished = old.run.finished) (outcomes : k.run.outcomes = old.run.outcomes)
    (quiet : ∀ node answered, .recorded c node answered ∈ next.past →
      .recorded c node answered ∈ s.past)
  | closed (old : CheckInHand) (found : s.checks[c]? = some old)
    (participants : k.run.participants = old.run.participants) (finished : k.run.finished = true)
  | recorded (old : CheckInHand) (outcome : NodeOutcome) (answered : Bool)
    (found : s.checks[c]? = some old) (run : k.run = (old.run.record outcome).1)
    (past : next.past = s.past ++
      if counts old.run outcome then [.recorded c outcome.node answered] else [])

theorem fate_of_same {k : CheckInHand} (found : next.checks[c]? = some k)
    (checks : next.checks = s.checks) (change : Change s next gone come news)
    (quiet : ∀ node answered, .recorded c node answered ∉ news) : Fate s next c k := by
  rw [checks] at found
  apply Fate.kept k found rfl rfl rfl
  intro node answered hmem
  rw [change.past, List.mem_append] at hmem
  exact hmem.resolve_right (quiet node answered)

theorem fate_of_modify {k : CheckInHand} {d : Nat} {f : CheckInHand → CheckInHand}
    (found : next.checks[c]? = some k) (checks : next.checks = s.checks.modify d f)
    (same : ∀ k, (f k).run.participants = k.run.participants ∧
      (f k).run.finished = k.run.finished ∧ (f k).run.outcomes = k.run.outcomes)
    (change : Change s next gone come []) : Fate s next c k := by
  have hquiet (node : Text) (answered : Bool)
      (hmem : .recorded c node answered ∈ next.past) : .recorded c node answered ∈ s.past := by
    rwa [change.past, List.append_nil] at hmem
  rw [checks, List.getElem?_modify, Option.map_eq_map, Option.map_eq_some_iff] at found
  obtain ⟨old, hold, rfl⟩ := found
  split
  next => exact .kept old hold (same old).1 (same old).2.1 (same old).2.2 hquiet
  next => exact .kept old hold rfl rfl rfl hquiet

theorem Move.fate (move : Move s next) {k : CheckInHand} (found : next.checks[c]? = some k)
    : Fate s next c k := by
  cases move with
  | shift checks change | enlisted _ checks change | inspected _ _ _ checks change
  | lost _ _ _ checks change | posted _ _ checks change =>
    exact fate_of_same found checks change (by simp)
  | told _ _ checks change => exact fate_of_same found checks change (by simp)
  | dispatched d node checks change =>
    exact fate_of_modify found checks (fun _ => ⟨rfl, rfl, rfl⟩) change
  | delivered d result checks change =>
    exact fate_of_modify found checks (fun _ => ⟨rfl, rfl, rfl⟩) change
  | opened job desc members checks change =>
    rw [checks, getElem?_append_singleton] at found
    rcases found with ⟨hnew, rfl⟩ | found
    . exact .begun job desc members hnew rfl
    . apply Fate.kept k found rfl rfl rfl
      intro node answered hmem
      rwa [change.past, List.append_nil] at hmem
  | replied d old node result hold asked checks change =>
    have hquiet (other : Text) (answered : Bool)
        (hmem : .recorded c other answered ∈ next.past) : .recorded c other answered ∈ s.past := by
      rw [change.past, List.mem_append] at hmem
      apply hmem.resolve_right
      cases result <;> simp [replyNews]
    rw [checks, getElem?_set_eq_some hold] at found
    rcases found with ⟨rfl, rfl⟩ | ⟨-, found⟩
    . exact .kept old hold rfl rfl rfl hquiet
    . exact .kept k found rfl rfl rfl hquiet
  | ended d old how run result acts hold running closed participants checks gives change =>
    rw [checks, getElem?_set_eq_some hold] at found
    rcases found with ⟨rfl, rfl⟩ | ⟨-, found⟩
    . exact .closed old hold participants closed
    . apply Fate.kept k found rfl rfl rfl
      intro other answered hmem
      rw [change.past, List.mem_append] at hmem
      exact hmem.resolve_right (by simp)
  | recorded d old outcome answered acts hold checks delivers change =>
    rw [checks, getElem?_set_eq_some hold] at found
    rcases found with ⟨rfl, rfl⟩ | ⟨hne, found⟩
    . exact .recorded old outcome answered hold rfl change.past
    . apply Fate.kept k found rfl rfl rfl
      intro other told hmem
      rw [change.past, List.mem_append] at hmem
      apply hmem.resolve_right
      split <;> simp [hne]

theorem Move.held (move : Move s next) (h : s.Held c notice)
    : next.Held c notice ∨ .told c notice ∈ next.past := by
  obtain ⟨act, hact, hcarries⟩ := h
  have hstays {gone come : List CheckAct} {news : List CheckNews}
      (change : Change s next gone come news) (hgone : ∀ act ∈ gone, ¬act.Carries c notice) :
      next.Held c notice := by
    rcases change.gone_or_mem hact with hgoes | hstays
    . exact absurd hcarries (hgone act hgoes)
    . exact ⟨act, hstays, hcarries⟩
  cases move with
  | shift _ change | opened _ _ _ _ change | replied _ _ _ _ _ _ _ change
  | ended _ _ _ _ _ _ _ _ _ _ _ _ change => exact .inl (hstays change (by simp))
  | enlisted _ _ change | dispatched _ _ _ change | inspected _ _ _ _ change
  | recorded _ _ _ _ _ _ _ _ change | lost _ _ _ _ change | delivered _ _ _ change =>
    exact .inl (hstays change (by simp [CheckAct.Carries]))
  | posted d notices _ change =>
    rcases change.gone_or_mem hact with hgoes | hstays
    . obtain rfl : act = .post d notices := by simpa using hgoes
      obtain ⟨rfl, hnotice⟩ := hcarries
      exact .inl ⟨.tell d notice, change.mem_of_come (List.mem_map_of_mem hnotice), rfl, rfl⟩
    . exact .inl ⟨act, hstays, hcarries⟩
  | told d other _ change =>
    rcases change.gone_or_mem hact with hgoes | hstays
    . obtain rfl : act = .tell d other := by simpa using hgoes
      obtain ⟨rfl, rfl⟩ := hcarries
      exact .inr (by simp [change.past])
    . exact .inl ⟨act, hstays, hcarries⟩

/--
Where a notice comes from that was not in hand before: it goes through a dispatcher to a node whose
job ran out of time, or it is one of those that follow from the early end of a check.
-/
inductive Arises (s next : Conducting) (c : Nat) (notice : Notice) : Prop where
  | overdue (k : CheckInHand) (found : s.checks[c]? = some k) (asked : notice.node ∈ k.asked)
    (way : notice.way = .dispatcher) (news : .overdue c notice.node ∈ next.past)
  | ended (how : CheckEnd) (result : CheckResult) (silent : List Text)
    (from_end : notice ∈ Conclusion.notices ⟨result, silent⟩ s.self)
    (news : .ended c how silent ∈ next.past)

theorem Move.held_or_arises (move : Move s next) (h : next.Held c notice)
    : s.Held c notice ∨ Arises s next c notice := by
  obtain ⟨act, hact, hcarries⟩ := h
  rcases move.mem_or_brought hact with hold | hbrought
  . exact .inl ⟨act, hold, hcarries⟩
  . cases hbrought with
    | enlist _ | dispatch _ _ _ | inspect _ _ | inspected _ _ _ | answered _ _ _ _
    | missing _ _ _ _ _ | deliver _ _ _ _ => exact absurd hcarries id
    | overdue d k node found asked news =>
      obtain ⟨rfl, hnotice⟩ := hcarries
      obtain rfl := List.mem_singleton.mp hnotice
      exact .inr (.overdue k found asked rfl news)
    | expired d k how result found news =>
      obtain ⟨rfl, hnotice⟩ := hcarries
      exact .inr (.ended how result k.run.silent hnotice news)
    | cancelled d k how result other found news hnotice =>
      obtain ⟨rfl, rfl⟩ := hcarries
      exact .inr (.ended how result k.run.silent hnotice news)
    | posted d notices other held hnotice =>
      -- the notice was among those that were left to the pool
      obtain ⟨rfl, rfl⟩ := hcarries
      exact .inl ⟨.post d notices, held, rfl, hnotice⟩

/-!
A check comes to an outcome of a node in one way only.
-/

theorem Change.countP (h : Change s next gone come news) (p : CheckAct → Bool)
    : next.hands.countP p + gone.countP p = s.hands.countP p + come.countP p := by
  obtain ⟨rest, hbefore, hafter⟩ := h.hands
  rw [hbefore.countP_eq, hafter.countP_eq, List.countP_append, List.countP_append]
  omega

theorem asked_of_found {k : CheckInHand} (found : s.checks[c]? = some k) : s.asked c = k.asked := by
  simp [asked, found]

theorem asked_of_set {d : Nat} {old k : CheckInHand} (found : s.checks[d]? = some old)
    (checks : next.checks = s.checks.set d k)
    : next.asked c = if c = d then k.asked else s.asked c := by
  obtain ⟨hlt, -⟩ := List.getElem?_eq_some_iff.mp found
  simp only [asked, checks, List.getElem?_set]
  split
  next heq => simp [heq]
  next hne => simp [Ne.symm hne]

theorem asked_of_modify {d : Nat} {f : CheckInHand → CheckInHand}
    (checks : next.checks = s.checks.modify d f)
    : next.asked c = if c = d then ((s.checks[c]?).map fun k => (f k).asked).getD []
      else s.asked c := by
  simp only [asked, checks, List.getElem?_modify]
  split
  next heq => simp [heq, Function.comp_def]
  next hne => simp [Ne.symm hne]

theorem asked_of_append {run : CheckRun} (checks : next.checks = s.checks ++ [⟨run, []⟩])
    : next.asked c = s.asked c := by
  simp only [asked, checks, List.getElem?_append]
  split
  next => rfl
  next hge =>
    rw [List.getElem?_eq_none (Nat.not_lt.mp hge)]
    cases c - s.checks.length <;> simp

theorem countP_openingActs_le (self : Text) (d : Nat) {run : CheckRun}
    (nodup : run.participants.Nodup) (c : Nat) (node : Text)
    : (openingActs self d run).countP (CheckAct.leadsTo self c node) ≤ if c = d then 1 else 0 := by
  have henlist : (if self ∈ run.participants then [CheckAct.enlist d] else []).countP
      (CheckAct.leadsTo self c node) ≤ if c = d ∧ self = node then 1 else 0 := by
    split <;> simp [CheckAct.leadsTo, @eq_comm Nat d c]
  have hdispatch : ((CheckRun.remoteOf self run.participants).map (CheckAct.dispatch d)).countP
      (CheckAct.leadsTo self c node) =
        if c = d then (CheckRun.remoteOf self run.participants).count node else 0 := by
    rw [List.countP_map, List.count]
    split
    next heq => exact List.countP_congr fun other _ => by simp [CheckAct.leadsTo, heq]
    next hne => simp [CheckAct.leadsTo, Ne.symm hne]
  -- the own node is not among those that a dispatcher asks
  have hremote : (CheckRun.remoteOf self run.participants).count node ≤
      if self = node then 0 else 1 := by
    split
    next heq =>
      rw [Nat.le_zero, List.count_eq_zero]
      simp [CheckRun.remoteOf, heq]
    next => exact List.nodup_iff_count_le_one.mp (nodup.filter _) node
  unfold openingActs
  split
  next => simp
  next =>
    rw [List.countP_append, hdispatch]
    by_cases heq : c = d <;> by_cases hself : self = node <;>
      simp only [heq, hself, and_self, and_false, false_and, if_true, if_false]
        at henlist hremote ⊢ <;>
      omega

theorem asked_of_checks (checks : next.checks = s.checks) : next.asked c = s.asked c := by
  rw [asked, checks, asked]

theorem asked_of_set_run {d : Nat} {k : CheckInHand} (found : s.checks[d]? = some k)
    (run : CheckRun) (checks : next.checks = s.checks.set d { k with run })
    : next.asked c = s.asked c := by
  rw [asked_of_set found checks]
  split
  next heq => rw [heq, asked_of_found found]
  next => rfl

theorem count_asked_of_dispatched (c : Nat) (node : Text) {d : Nat} {other : Text}
    (checks : next.checks = s.checks.modify d fun k => { k with asked := k.asked ++ [other] })
    : (next.asked c).count node ≤
      [CheckAct.dispatch d other].countP (CheckAct.leadsTo s.self c node) +
        (s.asked c).count node := by
  rw [asked_of_modify checks]
  split
  next heq =>
    rw [asked]
    cases s.checks[c]? with
    | none => simp
    | some k => simp [heq, CheckAct.leadsTo, List.count_singleton, Nat.add_comm]
  next => exact Nat.le_add_left _ _

theorem count_asked_of_replied (c : Nat) (node : Text) {d : Nat} {k : CheckInHand} {other : Text}
    (result : DispatchResult) (found : s.checks[d]? = some k) (asked : other ∈ k.asked)
    (checks : next.checks = s.checks.set d { k with asked := k.asked.erase other })
    : (replyActs d other result).countP (CheckAct.leadsTo s.self c node) +
        (next.asked c).count node ≤ (s.asked c).count node := by
  have hacts : (replyActs d other result).countP (CheckAct.leadsTo s.self c node) =
      if d = c ∧ other = node then 1 else 0 := by
    cases result <;> simp [replyActs, CheckAct.leadsTo]
  rw [hacts, asked_of_set found checks]
  by_cases hcheck : c = d
  . rw [if_pos hcheck, hcheck, asked_of_found found, List.count_erase]
    by_cases hnode : other = node
    . have : 0 < k.asked.count node := List.count_pos_iff.mpr (hnode ▸ asked)
      simp only [hnode, beq_self_eq_true, and_self, if_true]
      omega
    . simp [hnode]
  . simp [hcheck, Ne.symm hcheck]

/--
What has gone out of hand and what a dispatcher owed make up for what has come, what is owed now and
what is recorded.
-/
theorem Change.ways_le (h : Change s next gone come news) (extra : Nat)
    (hless : come.countP (CheckAct.leadsTo s.self c node) + (next.asked c).count node +
        news.countP (CheckNews.records c node) ≤
      gone.countP (CheckAct.leadsTo s.self c node) + (s.asked c).count node + extra)
    : next.ways c node ≤ s.ways c node + extra := by
  have hcount := h.countP (CheckAct.leadsTo s.self c node)
  simp only [ways, h.self, h.past, List.countP_append]
  omega

theorem Move.ways_le (move : Move s next) (c : Nat) (node : Text)
    : next.ways c node ≤ s.ways c node + if c = s.checks.length then 1 else 0 := by
  have hsame {gone come : List CheckAct} {news : List CheckNews}
      (change : Change s next gone come news) (hasked : next.asked c = s.asked c)
      (hless : come.countP (CheckAct.leadsTo s.self c node) +
          news.countP (CheckNews.records c node) ≤
        gone.countP (CheckAct.leadsTo s.self c node)) :
      next.ways c node ≤ s.ways c node + 0 := by
    apply change.ways_le
    rw [hasked]
    omega
  have htells (d : Nat) (notices : List Notice) :
      (notices.map (.tell d)).countP (CheckAct.leadsTo s.self c node) = 0 := by
    rw [List.countP_map, List.countP_eq_zero]
    simp [CheckAct.leadsTo]
  cases move with
  | opened job desc members checks change =>
    -- the participants of a check are distinct, so each is asked in one way
    have hnodup : (CheckRun.start job desc members).participants.Nodup := by
      rw [CheckRun.start_participants]
      exact CheckRun.nodup_invited desc members
    have hcome := countP_openingActs_le s.self s.checks.length hnodup c node
    apply change.ways_le
    rw [asked_of_append checks, List.countP_nil, List.countP_nil]
    omega
  | dispatched d other checks change =>
    apply Nat.le_add_right_of_le
    apply change.ways_le 0
    have := count_asked_of_dispatched c node checks
    rwa [List.countP_nil, List.countP_nil, Nat.zero_add]
  | replied d k other result found asked checks change =>
    have hnews : (replyNews d other result).countP (CheckNews.records c node) = 0 := by
      cases result <;> simp [replyNews, CheckNews.records]
    apply Nat.le_add_right_of_le
    apply change.ways_le 0
    have := count_asked_of_replied c node result found asked checks
    rwa [hnews, List.countP_nil, Nat.zero_add]
  | shift checks change =>
    exact Nat.le_add_right_of_le (hsame change (asked_of_checks checks) (by simp))
  | enlisted d checks change =>
    apply Nat.le_add_right_of_le
    exact hsame change (asked_of_checks checks) (by simp [CheckAct.leadsTo])
  | inspected d outcome own checks change =>
    apply Nat.le_add_right_of_le
    exact hsame change (asked_of_checks checks) (by simp [CheckAct.leadsTo, own])
  | lost d outcome answered checks change =>
    exact Nat.le_add_right_of_le (hsame change (asked_of_checks checks) (by simp))
  | posted d notices checks change =>
    apply Nat.le_add_right_of_le
    apply hsame change (asked_of_checks checks)
    rw [htells]
    simp
  | told d notice checks change =>
    apply Nat.le_add_right_of_le
    exact hsame change (asked_of_checks checks) (by simp [CheckNews.records])
  | delivered d result checks change =>
    apply Nat.le_add_right_of_le
    apply hsame change ?_ (by simp)
    rw [asked_of_modify checks]
    split <;> rfl
  | recorded d k outcome answered acts found checks delivers change =>
    apply Nat.le_add_right_of_le
    apply hsame change (asked_of_set_run found _ checks)
    have hacts : acts.countP (CheckAct.leadsTo s.self c node) = 0 := by
      rw [List.countP_eq_zero]
      intro act hact
      obtain ⟨result, rfl⟩ := delivers act hact
      simp [CheckAct.leadsTo]
    rw [hacts]
    split <;> simp [CheckAct.leadsTo, CheckNews.records]
  | ended d k how run result acts found running closed participants checks gives change =>
    apply Nat.le_add_right_of_le
    apply hsame change (asked_of_set_run found run checks)
    rcases gives with rfl | rfl
    . simp [CheckAct.leadsTo, CheckNews.records]
    . rw [List.countP_append, htells]
      simp [CheckAct.leadsTo, CheckNews.records]

theorem Move.missing (move : Move s next) {outcome : NodeOutcome}
    (h : .record c outcome false ∈ next.hands)
    : .record c outcome false ∈ s.hands ∨ .overdue c outcome.node ∈ next.past := by
  rcases move.mem_or_brought h with hold | hbrought
  . exact .inl hold
  . cases hbrought with
    | missing _ k _ found news => exact .inr news

theorem Move.carries (move : Move s next) {item : CheckNews} (hnew : item ∈ next.past)
    (decides : item.Decides c node)
    : item ∈ s.past ∨ ∃ way, next.Held c ⟨node, way⟩ := by
  obtain ⟨news, hpast, hfresh⟩ := move.fresh
  rw [hpast, List.mem_append] at hnew
  apply hnew.imp_right
  intro hnew
  cases hfresh with
  | nothing => exact absurd hnew List.not_mem_nil
  | overdue d k other found asked gives =>
    obtain rfl := List.mem_singleton.mp hnew
    obtain ⟨rfl, rfl⟩ := decides
    exact ⟨.dispatcher, gives⟩
  | ended d k how found running gives =>
    obtain rfl := List.mem_singleton.mp hnew
    obtain ⟨rfl, hsilent⟩ := decides
    exact gives node hsilent
  | recorded _ _ _ _ _ _ _ | told _ _ _ =>
    obtain rfl := List.mem_singleton.mp hnew
    exact absurd decides id

/-!
What is true at every time.
-/

structure Placed (s : Conducting) : Prop where
  hands : ∀ act ∈ s.hands, act.check < s.checks.length
  past : ∀ news ∈ s.past, news.check < s.checks.length
  asked : ∀ c, s.self ∉ s.asked c
  dispatch : ∀ c, .dispatch c s.self ∉ s.hands

theorem Move.length_le (move : Move s next) : s.checks.length ≤ next.checks.length := by
  cases move with
  | shift checks _ | enlisted _ checks _ | inspected _ _ _ checks _ | lost _ _ _ checks _
  | posted _ _ checks _ | told _ _ checks _ | opened _ _ _ checks _ | replied _ _ _ _ _ _ checks _
  | recorded _ _ _ _ _ _ checks _ _ | ended _ _ _ _ _ _ _ _ _ _ checks _ _
  | dispatched _ _ checks _ | delivered _ _ checks _ => simp [checks]

theorem lt_of_found {k : CheckInHand} (found : s.checks[c]? = some k) : c < s.checks.length :=
  (List.getElem?_eq_some_iff.mp found).1

theorem Move.check_of_mem (move : Move s next) (h : Placed s) (hact : act ∈ next.hands)
    : act.check < next.checks.length := by
  have hheld {act : CheckAct} (hact : act ∈ s.hands) : act.check < next.checks.length :=
    Nat.lt_of_lt_of_le (h.hands act hact) move.length_le
  rcases move.mem_or_brought hact with hold | hbrought
  . exact hheld hold
  . cases hbrought with
    | enlist begun | dispatch _ _ begun => exact begun
    | inspect c held | inspected c _ held | posted c _ _ held _ => exact (hheld held :)
    | answered c k _ found | missing c k _ found _ | overdue c k _ found _ _
    | expired c k _ _ found _ | cancelled c k _ _ _ found _ _ | deliver c k _ found =>
      exact Nat.lt_of_lt_of_le (lt_of_found found) move.length_le

theorem Move.asked_or_mem (move : Move s next) (hnode : node ∈ next.asked c)
    : node ∈ s.asked c ∨ .dispatch c node ∈ s.hands := by
  have hchecks (checks : next.checks = s.checks) : next.asked c = s.asked c := by
    rw [asked, checks, asked]
  have hset {d : Nat} {old k : CheckInHand} (found : s.checks[d]? = some old)
      (checks : next.checks = s.checks.set d k) (hsubset : k.asked ⊆ old.asked) :
      node ∈ s.asked c := by
    rw [asked_of_set found checks] at hnode
    split at hnode
    next heq =>
      rw [heq, asked_of_found found]
      exact hsubset hnode
    next => exact hnode
  cases move with
  | shift checks _ | enlisted _ checks _ | inspected _ _ _ checks _ | lost _ _ _ checks _
  | posted _ _ checks _ | told _ _ checks _ => exact .inl (hchecks checks ▸ hnode)
  | replied d k other result found _ checks _ =>
    exact .inl (hset found checks List.erase_subset)
  | ended d k _ run _ _ found _ _ _ checks _ _ => exact .inl (hset found checks (fun _ => id))
  | recorded d k _ _ _ found checks _ _ => exact .inl (hset found checks (fun _ => id))
  | opened job desc members checks _ =>
    rw [asked_of_append checks] at hnode
    exact .inl hnode
  | delivered d result checks _ =>
    rw [asked_of_modify checks] at hnode
    split at hnode
    next => exact .inl hnode
    next => exact .inl hnode
  | dispatched d other checks change =>
    rw [asked_of_modify checks] at hnode
    split at hnode
    next heq =>
      subst heq
      cases hfound : s.checks[c]? with
      | none => simp [hfound] at hnode
      | some k =>
        rw [hfound, Option.map_some, Option.getD_some, List.mem_append, List.mem_singleton] at hnode
        rcases hnode with hnode | rfl
        . exact .inl (by rwa [asked_of_found hfound])
        . exact .inr (change.mem_of_gone List.mem_cons_self)
    next => exact .inl hnode

theorem Move.dispatch_or_mem (move : Move s next) (hact : .dispatch c node ∈ next.hands)
    : .dispatch c node ∈ s.hands ∨ node ≠ s.self := by
  rcases move.mem_or_brought hact with hold | hbrought
  . exact .inl hold
  . cases hbrought with
    | dispatch _ other begun => exact .inr other

theorem Move.self_eq (move : Move s next) : next.self = s.self := by
  cases move with
  | shift _ change | opened _ _ _ _ change | replied _ _ _ _ _ _ _ change
  | ended _ _ _ _ _ _ _ _ _ _ _ _ change | enlisted _ _ change | dispatched _ _ _ change
  | inspected _ _ _ _ change | recorded _ _ _ _ _ _ _ _ change | lost _ _ _ _ change
  | posted _ _ _ change | told _ _ _ change | delivered _ _ _ change => exact change.self

theorem Placed.move (h : Placed s) (move : Move s next) : Placed next := by
  constructor
  . intro act hact
    exact move.check_of_mem h hact
  . intro item hitem
    have hlength := move.length_le
    obtain ⟨news, hpast, hfresh⟩ := move.fresh
    rw [hpast, List.mem_append] at hitem
    rcases hitem with hitem | hitem
    . exact Nat.lt_of_lt_of_le (h.past item hitem) hlength
    . apply Nat.lt_of_lt_of_le ?_ hlength
      cases hfresh with
      | nothing => simp at hitem
      | overdue c k node found _ _ | ended c k _ found _ _ | recorded c k _ _ found _ _ =>
        obtain rfl := List.mem_singleton.mp hitem
        exact lt_of_found found
      | told c notice held =>
        obtain rfl := List.mem_singleton.mp hitem
        exact h.hands _ held
  . intro c hself
    rw [move.self_eq] at hself
    rcases move.asked_or_mem hself with hasked | hdispatch
    . exact h.asked c hasked
    . exact h.dispatch c hdispatch
  . intro c hself
    rw [move.self_eq] at hself
    rcases move.dispatch_or_mem hself with hdispatch | hne
    . exact h.dispatch c hdispatch
    . exact hne rfl

end Conducting

end SnapshotAudit
