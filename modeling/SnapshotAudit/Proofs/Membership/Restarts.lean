import SnapshotAudit.Proofs.Membership.Peaks

/-!
This module contains what a node makes of a peer that is stopped, dropped and created again. Every
process of the peer counts its heartbeats from one, but the node that hears them keeps the largest
counter of all of them. So the peer is seen as alive only from when its newest process has been
heard more often than every process before it.
-/

namespace SnapshotAudit

/--
A node that listens and a peer that it hears. The datagrams of the peer come in the order in which
they were sent, and none is lost. The processes of the peer are numbered in the order in which they
were created.
-/
structure Conversation where
  listener : Gossip
  speaker : Option Gossip
  life : Nat
  wire : List Letter
  heard : List Hearing
deriving DecidableEq

namespace Conversation

inductive Event where
  | create (now : Instant) (role : Role)
  | start
  | stop
  | drop
  | speak (now : Instant)
  | told (now : Instant) (datagram : Bytes)
  | hear (now : Instant)
  | tick (now : Instant)
deriving DecidableEq

def begin (node : Text) (role : Role) (born : Instant) : Conversation :=
  ⟨(Gossip.create node role born).start, none, 0, [], []⟩

def step (id : Text) (c : Conversation) (event : Event) : Conversation :=
  match event with
  | .create now role =>
    match c.speaker with
    | none => { c with speaker := some (.create id role now), life := c.life + 1 }
    | some _ => c
  | .start => { c with speaker := c.speaker.map Gossip.start }
  | .stop => { c with speaker := c.speaker.map Gossip.stop }
  | .drop => { c with speaker := none }
  | .speak now =>
    match c.speaker with
    | none => c
    | some gossip =>
      let (gossip, datagram) := gossip.tick now
      { c with
        speaker := some gossip
        wire := c.wire ++ datagram.toList.map (Letter.mk c.life) }
  | .told now datagram =>
    { c with speaker := c.speaker.map fun gossip => gossip.receive now datagram }
  | .hear now =>
    match c.wire with
    | [] => c
    | letter :: rest =>
      { c with
        listener := c.listener.receive now letter.datagram
        wire := rest
        heard := c.heard ++ [⟨now, letter⟩] }
  | .tick now => { c with listener := (c.listener.tick now).1 }

def run (node : Text) (role : Role) (born : Instant) (id : Text) (events : List Event)
    : Conversation :=
  events.foldl (step id) (begin node role born)

def sent (c : Conversation) : List Letter :=
  c.heard.map Hearing.letter ++ c.wire

end Conversation

theorem Membership.counter_receive (membership : Membership) (now : Instant) (datagram : Bytes)
    : (membership.receive now datagram).counter = membership.counter := by
  unfold receive
  split
  . rfl
  . simp only [apply]
    split
    . rfl
    . split <;> rfl

theorem Gossip.bound_receive (gossip : Gossip) (now : Instant) (datagram : Bytes)
    : (gossip.receive now datagram).bound = gossip.bound := by
  unfold receive
  split <;> rfl

theorem Gossip.self_receive (gossip : Gossip) (now : Instant) (datagram : Bytes)
    : (gossip.receive now datagram).membership.self = gossip.membership.self := by
  unfold receive
  split
  . exact gossip.membership.self_undergo (.came ⟨now, datagram⟩)
  . rfl

theorem Gossip.counter_receive (gossip : Gossip) (now : Instant) (datagram : Bytes)
    : (gossip.receive now datagram).membership.counter = gossip.membership.counter := by
  unfold receive
  split
  . exact gossip.membership.counter_receive now datagram
  . rfl

theorem Gossip.tick_of_active {gossip : Gossip} (h : gossip.active = true) {now : Instant}
    : gossip.tick now = ({ gossip with membership := (gossip.membership.beat now).1 },
        if gossip.bound then some (gossip.membership.beat now).2 else none) := by
  simp [tick, h]

namespace Conversation

structure Sound (node id : Text) (c : Conversation) : Prop where
  listens : c.listener.active = true ∧ c.listener.bound = true
  self_eq : c.listener.membership.self = node
  distinct : c.listener.membership.Distinct
  registers : Registers (c.heard.map Hearing.arrival) id (c.listener.membership.state? id)
  numbered : Numbered id c.sent
  lives : ∀ letter ∈ c.sent, 0 < letter.life ∧ letter.life ≤ c.life
  counting : ∀ gossip, c.speaker = some gossip → gossip.bound = true →
    0 < c.life ∧ gossip.membership.self = id ∧
      gossip.membership.counter = (lettersOf c.life c.sent).toUInt64

variable {node id : Text} {c : Conversation}

theorem sound_begin (hid : id ≠ node) (role : Role) (born : Instant)
    : Sound node id (begin node role born) where
  listens := ⟨rfl, rfl⟩
  self_eq := rfl
  distinct := Membership.distinct_after node role born []
  registers := Membership.registers_after hid role born []
  numbered := numbered_nil id
  lives := by simp [sent, begin]
  counting := by simp [begin]

theorem Sound.setSpeaker (h : Sound node id c) {speaker : Option Gossip}
    (hspeaker : ∀ gossip, speaker = some gossip → gossip.bound = true →
      ∃ earlier, c.speaker = some earlier ∧ earlier.bound = true ∧
        gossip.membership.self = earlier.membership.self ∧
        gossip.membership.counter = earlier.membership.counter)
    : Sound node id { c with speaker } where
  listens := h.listens
  self_eq := h.self_eq
  distinct := h.distinct
  registers := h.registers
  numbered := h.numbered
  lives := h.lives
  counting := by
    intro gossip hgossip hbound
    obtain ⟨earlier, hearlier, hbound', hself, hcounter⟩ := hspeaker gossip hgossip hbound
    rw [hself, hcounter]
    exact h.counting earlier hearlier hbound'

theorem Sound.create (h : Sound node id c) (now : Instant) (role : Role)
    : Sound node id { c with speaker := some (.create id role now), life := c.life + 1 } where
  listens := h.listens
  self_eq := h.self_eq
  distinct := h.distinct
  registers := h.registers
  numbered := h.numbered
  lives letter hmem := ⟨(h.lives letter hmem).1, Nat.le_succ_of_le (h.lives letter hmem).2⟩
  counting := by
    rintro gossip hgossip -
    cases hgossip
    have hnone : lettersOf (c.life + 1) c.sent = 0 := by
      rw [lettersOf, List.countP_eq_zero]
      intro letter hmem
      have := h.lives letter hmem
      simp only [decide_eq_true_eq]
      omega
    refine ⟨Nat.succ_pos _, rfl, ?_⟩
    change (0 : UInt64) = (lettersOf (c.life + 1) c.sent).toUInt64
    rw [hnone]
    rfl

theorem Sound.sendNext (h : Sound node id c) {gossip : Gossip} (hspeaker : c.speaker = some gossip)
    (hbound : gossip.bound = true) (now : Instant)
    : Sound node id
        { c with
          speaker := some { gossip with membership := (gossip.membership.beat now).1 }
          wire := c.wire ++ [⟨c.life, (gossip.membership.beat now).2⟩] } := by
  obtain ⟨hborn, hself, hcounter⟩ := h.counting gossip hspeaker hbound
  have hsent : ∀ speaker, sent
      { c with speaker, wire := c.wire ++ [⟨c.life, (gossip.membership.beat now).2⟩] } =
        c.sent ++ [⟨c.life, (gossip.membership.beat now).2⟩] := by
    intro speaker
    simp [sent]
  have hnext : gossip.membership.counter + 1 = (lettersOf c.life c.sent + 1).toUInt64 := by
    rw [hcounter, Nat.toUInt64_eq, Nat.toUInt64_eq, UInt64.ofNat_add]
    rfl
  refine ⟨h.listens, h.self_eq, h.distinct, h.registers, ?_, ?_, ?_⟩
  . rw [hsent]
    apply h.numbered.concat
    rw [Membership.beat, hself, hnext]
  . intro letter hmem
    rw [hsent] at hmem
    rcases List.mem_append.mp hmem with hmem | hmem
    . exact h.lives letter hmem
    . rw [List.mem_singleton.mp hmem]
      exact ⟨hborn, Nat.le_refl _⟩
  . intro later hlater _
    cases hlater
    refine ⟨hborn, hself, ?_⟩
    rw [hsent, lettersOf_append, lettersOf_cons, if_pos rfl, lettersOf_nil, Nat.zero_add]
    exact hnext

theorem Sound.speak (h : Sound node id c) {gossip : Gossip} (hspeaker : c.speaker = some gossip)
    (now : Instant)
    : Sound node id
        { c with
          speaker := some (gossip.tick now).1
          wire := c.wire ++ (gossip.tick now).2.toList.map (Letter.mk c.life) } := by
  by_cases hactive : gossip.active = true
  . rw [Gossip.tick_of_active hactive]
    by_cases hbound : gossip.bound = true
    . rw [if_pos hbound]
      exact h.sendNext hspeaker hbound now
    . simp only [if_neg hbound, Option.toList_none, List.map_nil, List.append_nil]
      apply h.setSpeaker
      rintro later hlater hlater'
      cases hlater
      exact absurd hlater' hbound
  . have htick : gossip.tick now = (gossip, none) := by simp [Gossip.tick, hactive]
    rw [htick, Option.toList_none, List.map_nil, List.append_nil, ← hspeaker]
    exact h

theorem Sound.hear (h : Sound node id c) {letter : Letter} {rest : List Letter}
    (hwire : c.wire = letter :: rest) (now : Instant)
    : Sound node id
        { c with
          listener := c.listener.receive now letter.datagram
          wire := rest
          heard := c.heard ++ [⟨now, letter⟩] } := by
  have hreceive : c.listener.receive now letter.datagram =
      { c.listener with membership := c.listener.membership.receive now letter.datagram } := by
    simp [Gossip.receive, h.listens]
  have hsent : ∀ listener, sent
      { c with listener, wire := rest, heard := c.heard ++ [⟨now, letter⟩] } = c.sent := by
    intro listener
    simp [sent, hwire]
  rw [hreceive]
  refine ⟨h.listens, ?_, ?_, ?_, ?_, ?_, ?_⟩
  . rw [← h.self_eq]
    exact c.listener.membership.self_undergo (.came ⟨now, letter.datagram⟩)
  . exact h.distinct.undergo (.came ⟨now, letter.datagram⟩)
  . rw [List.map_append]
    exact Membership.registers_receive h.registers ⟨now, letter.datagram⟩
  . rw [hsent]
    exact h.numbered
  . rw [hsent]
    exact h.lives
  . rw [hsent]
    exact h.counting

theorem Sound.tick (h : Sound node id c) (hid : id ≠ node) (now : Instant)
    : Sound node id { c with listener := (c.listener.tick now).1 } := by
  rw [Gossip.tick_of_active h.listens.1]
  refine ⟨h.listens, h.self_eq, h.distinct.undergo (.ticked now), ?_, h.numbered, h.lives,
    h.counting⟩
  rw [Membership.state?_beat _ _ (h.self_eq ▸ hid)]
  exact h.registers

theorem Sound.step (h : Sound node id c) (hid : id ≠ node) (event : Event)
    : Sound node id (c.step id event) := by
  cases event with
  | create now role =>
    simp only [Conversation.step]
    split
    . exact h.create now role
    . exact h
  | start =>
    apply h.setSpeaker
    intro gossip hgossip hbound
    obtain ⟨earlier, hearlier, rfl⟩ := Option.map_eq_some_iff.mp hgossip
    exact ⟨earlier, hearlier, hbound, rfl, rfl⟩
  | stop =>
    apply h.setSpeaker
    intro gossip hgossip hbound
    obtain ⟨earlier, hearlier, rfl⟩ := Option.map_eq_some_iff.mp hgossip
    by_cases hactive : earlier.active = true
    . simp [Gossip.stop, Gossip.close, hactive] at hbound
    . rw [Gossip.stop, if_neg hactive] at hbound ⊢
      exact ⟨earlier, hearlier, hbound, rfl, rfl⟩
  | drop =>
    apply h.setSpeaker
    intro gossip hgossip
    cases hgossip
  | speak now =>
    simp only [Conversation.step]
    split
    . exact h
    next gossip hspeaker => exact h.speak hspeaker now
  | told now datagram =>
    apply h.setSpeaker
    intro gossip hgossip hbound
    obtain ⟨earlier, hearlier, rfl⟩ := Option.map_eq_some_iff.mp hgossip
    rw [Gossip.bound_receive] at hbound
    exact ⟨earlier, hearlier, hbound, earlier.self_receive now datagram,
      earlier.counter_receive now datagram⟩
  | hear now =>
    simp only [Conversation.step]
    split
    . exact h
    next letter rest hwire => exact h.hear hwire now
  | tick now => exact h.tick hid now

theorem sound_run (hid : id ≠ node) (role : Role) (born : Instant) (events : List Event)
    : Sound node id (run node role born id events) := by
  have : ∀ c : Conversation, Sound node id c → Sound node id (events.foldl (step id) c) := by
    induction events with
    | nil => exact fun _ h => h
    | cons event rest ih => exact fun _ h => ih _ (h.step hid event)
  exact this _ (sound_begin hid role born)

/--
How a node lists its peer. An entry is that of the peak of all hearings, until more than 5000 whole
milliseconds have gone by since that. The newest hearing is the peak if its process has been heard
more often than every other, as it always is for a peer that was created only once.
-/
structure Lists (id : Text) (c : Conversation) : Prop where
  listed_iff : ∀ now role counter age,
    Member.mk id role counter age ∈ c.listener.membership.alive now ↔
      ∃ hearing, Peak c.heard hearing ∧
        Heartbeat.Carries hearing.letter.datagram ⟨id, role, counter⟩ ∧
        now.nanoseconds < hearing.time.nanoseconds + 5001 * 1000000 ∧
        age = (now.nanoseconds - hearing.time.nanoseconds) / 1000000
  newest : ∀ before newest, c.heard = before ++ [newest] → id.length ≤ 1013 →
    (∀ life, timesHeard life before ≤ timesHeard newest.letter.life before) →
    ∀ now : Instant, now.nanoseconds < newest.time.nanoseconds + 5001 * 1000000 →
      ∃ role counter, Heartbeat.Carries newest.letter.datagram ⟨id, role, counter⟩ ∧
        Member.mk id role counter ((now.nanoseconds - newest.time.nanoseconds) / 1000000) ∈
          c.listener.membership.alive now
  unbroken : c.life ≤ 1 → ∀ before newest, c.heard = before ++ [newest] →
    ∀ life, timesHeard life before ≤ timesHeard newest.letter.life before

theorem peak_of_most {before : List Hearing} {newest : Hearing}
    (h : ∀ life, timesHeard life before ≤ timesHeard newest.letter.life before)
    : Peak (before ++ [newest]) newest := by
  refine ⟨before, [], rfl, h, ?_⟩
  intro life
  rw [timesHeard_append, timesHeard_cons]
  have := h life
  split
  next hlife => simp [timesHeard, hlife]
  next => simpa [timesHeard] using Nat.le_succ_of_le this

/--
The peer is listed by the node for whatever has happened to both.
-/
theorem lists_run (node : Text) (role : Role) (born : Instant) (id : Text) (events : List Event)
    (hid : id ≠ node) (hlength : (run node role born id events).heard.length < 2 ^ 64)
    : Lists id (run node role born id events) := by
  have hsound := sound_run hid role born events
  generalize run node role born id events = c at hsound hlength
  have hnumbered : Numbered id (c.heard.map Hearing.letter) := hsound.numbered.of_append
  have hremembers := Membership.remembers_of_registers hsound.distinct hsound.registers
  have hlisted : ∀ now role counter age,
      Member.mk id role counter age ∈ c.listener.membership.alive now ↔
        ∃ hearing, Peak c.heard hearing ∧
          Heartbeat.Carries hearing.letter.datagram ⟨id, role, counter⟩ ∧
          now.nanoseconds < hearing.time.nanoseconds + 5001 * 1000000 ∧
          age = (now.nanoseconds - hearing.time.nanoseconds) / 1000000 := by
    intro now role counter age
    have hshown := hremembers.shown now ⟨id, role, counter, age⟩
    simp only [and_true, Member.mk.injEq, true_and] at hshown
    rw [hshown]
    constructor
    . rintro ⟨state, hleads, hage, rfl, rfl, rfl⟩
      obtain ⟨hearing, hpeak, htime, hcarries⟩ := peak_of_leads hnumbered hlength hleads
      rw [← htime] at hage ⊢
      exact ⟨hearing, hpeak, hcarries, hage, rfl⟩
    . rintro ⟨hearing, hpeak, hcarries, hage, rfl⟩
      exact ⟨⟨role, counter, hearing.time⟩,
        leads_of_peak hnumbered hlength hpeak ⟨rfl, hcarries⟩, hage, rfl, rfl, rfl⟩
  refine ⟨hlisted, ?_, ?_⟩
  . intro before newest hheard hshort hmost now hage
    obtain ⟨state, -, hcarries⟩ := hnumbered.exists_brings (Nat.add_le_add_right hshort 11) hheard
    refine ⟨state.role, state.heartbeat, hcarries, (hlisted _ _ _ _).mpr ?_⟩
    exact ⟨newest, hheard ▸ peak_of_most hmost, hcarries, hage, rfl⟩
  . intro honce before newest hheard life
    have hlife : ∀ hearing ∈ c.heard, hearing.letter.life = 1 := by
      intro hearing hmem
      have := hsound.lives hearing.letter (List.mem_append_left _ (List.mem_map_of_mem hmem))
      omega
    by_cases hzero : timesHeard life before = 0
    . omega
    . obtain ⟨front, last, back, rfl, rfl, -⟩ := exists_last_hearing hzero
      have hsame : last.letter.life = newest.letter.life := by
        rw [hlife last (by simp [hheard]), hlife newest (by simp [hheard])]
      exact Nat.le_of_eq (by rw [hsame])

theorem lists_run_caught_up
    : let ms := Instant.ofMilliseconds
      let events : List Event :=
        [.create (ms 0) .server, .start, .speak (ms 500), .hear (ms 500), .stop, .drop,
          .create (ms 7000) .client, .start, .speak (ms 7500), .speak (ms 8000), .hear (ms 8000),
          .hear (ms 8100)]
      let c := run "n1" .server (ms 0) "n2" events
      ("n2" : Text) ≠ "n1" ∧ c.heard.length < 2 ^ 64 ∧
        c.listener.membership.alive (ms 8200) = [⟨"n2", .client, 2, 100⟩] ∧ Lists "n2" c := by
  intro ms events c
  have hid : ("n2" : Text) ≠ "n1" := by decide
  have hlength : c.heard.length < 2 ^ 64 := by decide
  exact ⟨hid, hlength, by decide, lists_run "n1" .server (ms 0) "n2" events hid hlength⟩

/--
A peer that was heard twice and then created again is not listed when its new process is heard for
the first time.
-/
theorem not_listed_of_restart
    : let ms := Instant.ofMilliseconds
      let events : List Event :=
        [.create (ms 0) .server, .start, .speak (ms 500), .hear (ms 500), .speak (ms 1000),
          .hear (ms 1000), .stop, .drop, .create (ms 6000) .server, .start, .speak (ms 6500),
          .hear (ms 6500)]
      let c := run "n1" .server (ms 0) "n2" events
      c.heard.getLast? = some ⟨ms 6500, ⟨2, (Heartbeat.mk "n2" .server 1).datagram⟩⟩ ∧
        ∀ member ∈ c.listener.membership.alive (ms 6500), member.id ≠ "n2" := by
  decide

end Conversation

end SnapshotAudit
