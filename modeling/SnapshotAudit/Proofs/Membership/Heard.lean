import Mathlib.Data.List.Nodup
import SnapshotAudit.Proofs.Membership.Datagrams

/-!
This module contains that what a node knows of another one depends neither on the order in which
heartbeats come nor on how often they come: it is the largest heartbeat that came, with the role and
the time of the first datagram that carried it, whatever else came in between.
-/

namespace SnapshotAudit

theorem Instant.since_le_patience_iff (now earlier : Instant)
    : now.millisecondsSince earlier ≤ Membership.patience ↔
        now.nanoseconds < earlier.nanoseconds + 5001 * 1000000 := by
  unfold millisecondsSince Membership.patience
  omega

structure Arrival where
  time : Instant
  datagram : Bytes
deriving DecidableEq

def Arrival.Brings (arrival : Arrival) (id : Text) (state : MemberState) : Prop :=
  arrival.time = state.lastSeen ∧
    Heartbeat.Carries arrival.datagram ⟨id, state.role, state.heartbeat⟩

/--
What the first of the arrivals with the largest counter makes known about an id.
-/
def Leads (arrivals : List Arrival) (id : Text) (state : MemberState) : Prop :=
  ∃ before arrival after, arrivals = before ++ arrival :: after ∧ arrival.Brings id state ∧
    (∀ earlier ∈ before, ∀ known, earlier.Brings id known → known.heartbeat < state.heartbeat) ∧
    ∀ later ∈ after, ∀ known, later.Brings id known → known.heartbeat ≤ state.heartbeat

def Offered (arrivals : List Arrival) (id : Text) (counter : UInt64) : Prop :=
  ∃ arrival ∈ arrivals, ∃ state, arrival.Brings id state ∧ state.heartbeat = counter

/--
An entry of a membership is what its arrivals make of it.
-/
def Registers (arrivals : List Arrival) (id : Text) (entry : Option MemberState) : Prop :=
  match entry with
  | none => ∀ arrival ∈ arrivals, ∀ state, ¬arrival.Brings id state
  | some state => Leads arrivals id state

section Arrivals

variable {arrivals : List Arrival} {arrival : Arrival} {id : Text} {state known : MemberState}

theorem Arrival.Brings.unique (h : arrival.Brings id state) (h' : arrival.Brings id known)
    : state = known := by
  have := h.2.unique h'.2
  simp only [Heartbeat.mk.injEq] at this
  cases state
  cases known
  simp_all [Arrival.Brings]

theorem Leads.brings (h : Leads arrivals id state)
    : ∃ arrival ∈ arrivals, arrival.Brings id state := by
  obtain ⟨before, arrival, after, rfl, hbrings, -, -⟩ := h
  exact ⟨arrival, by simp, hbrings⟩

theorem Leads.le (h : Leads arrivals id state) (hmem : arrival ∈ arrivals)
    (hbrings : arrival.Brings id known)
    : known.heartbeat ≤ state.heartbeat := by
  obtain ⟨before, leader, after, rfl, hleader, hearlier, hlater⟩ := h
  rcases List.mem_append.mp hmem with hmem | hmem
  . exact UInt64.le_of_lt (hearlier arrival hmem known hbrings)
  . rcases List.mem_cons.mp hmem with rfl | hmem
    . rw [hbrings.unique hleader]
      exact UInt64.le_refl _
    . exact hlater arrival hmem known hbrings

theorem Leads.unique (h : Leads arrivals id state) (h' : Leads arrivals id known)
    : state = known := by
  have heq : state.heartbeat = known.heartbeat := by
    obtain ⟨arrival, hmem, hbrings⟩ := h.brings
    obtain ⟨arrival', hmem', hbrings'⟩ := h'.brings
    exact UInt64.le_antisymm (h'.le hmem hbrings) (h.le hmem' hbrings')
  obtain ⟨before, leader, after, rfl, hleader, hearlier, -⟩ := h
  obtain ⟨before', leader', after', hsplit, hleader', hearlier', -⟩ := h'
  -- of two leads in different places the later one would be larger than the earlier one
  rcases List.append_eq_append_iff.mp hsplit with ⟨between, hbefore, hrest⟩ |
    ⟨between, hbefore, hrest⟩
  . cases between with
    | nil =>
      rw [(List.cons.inj hrest).1] at hleader
      exact hleader.unique hleader'
    | cons first between =>
      have hmem : leader ∈ before' := by simp [hbefore, (List.cons.inj hrest).1]
      have := hearlier' leader hmem state hleader
      exact absurd this (heq ▸ UInt64.lt_irrefl _)
  . cases between with
    | nil =>
      rw [(List.cons.inj hrest).1] at hleader'
      exact hleader.unique hleader'
    | cons first between =>
      have hmem : leader' ∈ before := by simp [hbefore, (List.cons.inj hrest).1]
      have := hearlier leader' hmem known hleader'
      exact absurd this (heq ▸ UInt64.lt_irrefl _)

theorem Leads.concat_of_le (h : Leads arrivals id state)
    (hle : ∀ known, arrival.Brings id known → known.heartbeat ≤ state.heartbeat)
    : Leads (arrivals ++ [arrival]) id state := by
  obtain ⟨before, leader, after, rfl, hleader, hearlier, hlater⟩ := h
  refine ⟨before, leader, after ++ [arrival], by simp, hleader, hearlier, ?_⟩
  intro later hmem known hbrings
  rcases List.mem_append.mp hmem with hmem | hmem
  . exact hlater later hmem known hbrings
  . rw [List.mem_singleton.mp hmem] at hbrings
    exact hle known hbrings

theorem Leads.concat_of_lt (hbrings : arrival.Brings id state)
    (hlt : ∀ earlier ∈ arrivals, ∀ known, earlier.Brings id known →
      known.heartbeat < state.heartbeat)
    : Leads (arrivals ++ [arrival]) id state :=
  ⟨arrivals, arrival, [], rfl, hbrings, hlt, by simp⟩

theorem Registers.concat_silent {entry : Option MemberState} (h : Registers arrivals id entry)
    (hsilent : ∀ state, ¬arrival.Brings id state)
    : Registers (arrivals ++ [arrival]) id entry := by
  cases entry with
  | none =>
    intro other hmem
    rcases List.mem_append.mp hmem with hmem | hmem
    . exact h other hmem
    . rwa [List.mem_singleton.mp hmem]
  | some state => exact h.concat_of_le fun known hbrings => absurd hbrings (hsilent known)

theorem Registers.isSome_iff {entry : Option MemberState} (h : Registers arrivals id entry)
    : entry.isSome ↔ ∃ arrival ∈ arrivals, ∃ state, arrival.Brings id state := by
  cases entry with
  | none => simpa [Registers] using h
  | some state =>
    obtain ⟨arrival, hmem, hbrings⟩ := Leads.brings h
    simp only [Option.isSome_some, true_iff]
    exact ⟨arrival, hmem, state, hbrings⟩

theorem Registers.eq_some_iff {entry : Option MemberState} (h : Registers arrivals id entry)
    (state : MemberState)
    : entry = some state ↔ Leads arrivals id state := by
  cases entry with
  | none =>
    simp only [reduceCtorEq, false_iff]
    intro hleads
    obtain ⟨arrival, hmem, hbrings⟩ := hleads.brings
    exact h arrival hmem state hbrings
  | some known =>
    rw [Option.some_inj]
    constructor
    . rintro rfl
      exact h
    . exact Leads.unique h

theorem Registers.heartbeat_eq_some_iff {entry : Option MemberState}
    (h : Registers arrivals id entry) (counter : UInt64)
    : entry.map MemberState.heartbeat = some counter ↔
        Offered arrivals id counter ∧ ∀ other, Offered arrivals id other → other ≤ counter := by
  cases entry with
  | none =>
    simp only [Option.map_none, reduceCtorEq, false_iff]
    rintro ⟨⟨arrival, hmem, state, hbrings, -⟩, -⟩
    exact h arrival hmem state hbrings
  | some state =>
    have hle : ∀ other, Offered arrivals id other → other ≤ state.heartbeat := by
      rintro _ ⟨arrival, hmem, known, hbrings, rfl⟩
      exact Leads.le h hmem hbrings
    obtain ⟨leader, hleader, hbrings⟩ := Leads.brings h
    have hoffered : Offered arrivals id state.heartbeat := ⟨leader, hleader, state, hbrings, rfl⟩
    rw [Option.map_some, Option.some_inj]
    constructor
    . rintro rfl
      exact ⟨hoffered, hle⟩
    . rintro ⟨hcounter, hlargest⟩
      exact UInt64.le_antisymm (hlargest _ hoffered) (hle _ hcounter)

end Arrivals

namespace Membership

inductive Happening where
  | came (arrival : Arrival)
  | ticked (now : Instant)
deriving DecidableEq

def Happening.arrival? (happening : Happening) : Option Arrival :=
  match happening with
  | came arrival => some arrival
  | ticked _ => none

def undergo (membership : Membership) (happening : Happening) : Membership :=
  match happening with
  | .came arrival => membership.receive arrival.time arrival.datagram
  | .ticked now => (membership.beat now).1

def after (self : Text) (role : Role) (born : Instant) (happenings : List Happening) : Membership :=
  happenings.foldl undergo (.start self role born)

theorem lookup_cons_eq_ite (key : Text) (m : Text × MemberState)
    (members : List (Text × MemberState))
    : (m :: members).lookup key = if key = m.1 then some m.2 else members.lookup key := by
  obtain ⟨id, state⟩ := m
  rw [List.lookup_cons]
  by_cases h : key = id
  . simp [h]
  . simp [h, beq_false_of_ne h]

theorem state?_put (membership : Membership) (id key : Text) (state : MemberState)
    : (membership.put id state).state? key =
        if key = id then (membership.state? id).map fun _ => state else membership.state? key := by
  simp only [state?, put]
  induction membership.members with
  | nil => simp
  | cons m rest ih =>
    by_cases hm : m.1 = id
    . simp only [List.map_cons, hm, if_true, lookup_cons_eq_ite, ih]
      by_cases hkey : key = id <;> simp [hkey]
    . simp only [List.map_cons, hm, if_false, lookup_cons_eq_ite, ih]
      by_cases hkey : key = id
      . simp [hkey, Ne.symm hm]
      . simp [hkey]

def heed (entry : Option MemberState) (news : MemberState) : MemberState :=
  match entry with
  | none => news
  | some known => if known.heartbeat < news.heartbeat then news else known

theorem state?_apply (membership : Membership) (now : Instant) (beat : Heartbeat) (id : Text)
    : (membership.apply now beat).state? id =
        if id = beat.id then
          some (heed (membership.state? id) ⟨beat.role, beat.counter, now⟩)
        else membership.state? id := by
  simp only [apply]
  split
  next hnone =>
    by_cases hid : id = beat.id
    . rw [hid, hnone]
      simp [state?, heed]
    . simp [state?, hid, lookup_cons_eq_ite]
  next known hknown =>
    split
    next hlt =>
      rw [state?_put]
      by_cases hid : id = beat.id
      . simp [heed, hid, hknown, hlt]
      . simp [hid]
    next hle =>
      by_cases hid : id = beat.id
      . simp [heed, hid, hknown, hle]
      . simp [hid]

theorem state?_beat (membership : Membership) (now : Instant) {id : Text} (h : id ≠ membership.self)
    : (membership.beat now).1.state? id = membership.state? id := by
  unfold beat
  rw [state?_put, if_neg h]
  rfl

@[simp]
theorem self_put (membership : Membership) (id : Text) (state : MemberState)
    : (membership.put id state).self = membership.self := rfl

@[simp]
theorem self_apply (membership : Membership) (now : Instant) (beat : Heartbeat)
    : (membership.apply now beat).self = membership.self := by
  simp only [apply]
  split
  . rfl
  . split <;> rfl

@[simp]
theorem self_undergo (membership : Membership) (happening : Happening)
    : (membership.undergo happening).self = membership.self := by
  cases happening with
  | came arrival =>
    simp only [undergo, receive]
    split
    . rfl
    . exact self_apply _ _ _
  | ticked now => rfl

theorem registers_receive {membership : Membership} {heard : List Arrival} {id : Text}
    (h : Registers heard id (membership.state? id)) (arrival : Arrival)
    : Registers (heard ++ [arrival]) id
        ((membership.receive arrival.time arrival.datagram).state? id) := by
  unfold receive
  split
  next hnone =>
    apply h.concat_silent
    rintro state ⟨-, hcarries⟩
    rw [← Heartbeat.ofDatagram?_eq_some_iff, hnone] at hcarries
    cases hcarries
  next beat hbeat =>
    have hcarries := (Heartbeat.ofDatagram?_eq_some_iff _ _).mp hbeat
    rw [state?_apply]
    split
    next hid =>
      subst hid
      have hbrings : arrival.Brings beat.id ⟨beat.role, beat.counter, arrival.time⟩ :=
        ⟨rfl, hcarries⟩
      cases hentry : membership.state? beat.id with
      | none =>
        rw [hentry] at h
        exact Leads.concat_of_lt hbrings fun earlier hmem known hknown =>
          absurd hknown (h earlier hmem known)
      | some known =>
        rw [hentry] at h
        simp only [heed]
        split
        next hlt =>
          exact Leads.concat_of_lt hbrings fun earlier hmem other hother =>
            UInt64.lt_of_le_of_lt (h.le hmem hother) hlt
        next hle =>
          apply Leads.concat_of_le h
          intro other hother
          rw [hother.unique hbrings]
          exact UInt64.not_lt.mp hle
    next hid =>
      apply h.concat_silent
      rintro state ⟨-, hother⟩
      exact hid (congrArg Heartbeat.id (hother.unique hcarries))

def arrivals (happenings : List Happening) : List Arrival :=
  happenings.filterMap Happening.arrival?

theorem registers_foldl (happenings : List Happening) {membership : Membership}
    {heard : List Arrival} {id : Text} (hid : id ≠ membership.self)
    (h : Registers heard id (membership.state? id))
    : Registers (heard ++ arrivals happenings) id
        ((happenings.foldl undergo membership).state? id) := by
  induction happenings generalizing membership heard with
  | nil => simpa [arrivals] using h
  | cons happening rest ih =>
    rw [List.foldl_cons]
    have hself : id ≠ (membership.undergo happening).self := by rwa [self_undergo]
    cases happening with
    | came arrival =>
      have := ih hself (registers_receive h arrival)
      rwa [List.append_assoc] at this
    | ticked now =>
      apply ih hself
      simp only [undergo]
      rwa [state?_beat _ _ hid]

theorem registers_after {self id : Text} (hid : id ≠ self) (role : Role) (born : Instant)
    (happenings : List Happening)
    : Registers (arrivals happenings) id ((after self role born happenings).state? id) := by
  have hstart : Registers [] id ((start self role born).state? id) := by
    simp [state?, start, lookup_cons_eq_ite, hid, Registers]
  exact registers_foldl happenings hid hstart

def Distinct (membership : Membership) : Prop :=
  (membership.members.map Prod.fst).Nodup

theorem map_fst_put (membership : Membership) (id : Text) (state : MemberState)
    : (membership.put id state).members.map Prod.fst = membership.members.map Prod.fst := by
  simp only [put, List.map_map]
  apply List.map_congr_left
  intro m _
  by_cases hm : m.1 = id <;> simp [hm]

theorem Distinct.apply {membership : Membership} (h : membership.Distinct) (now : Instant)
    (beat : Heartbeat)
    : (membership.apply now beat).Distinct := by
  simp only [Membership.apply]
  split
  next hnone =>
    simp only [Distinct, List.map_cons, List.nodup_cons]
    refine ⟨?_, h⟩
    intro hmem
    obtain ⟨m, hm, heq⟩ := List.mem_map.mp hmem
    have := List.lookup_eq_none_iff.mp hnone m hm
    simp [heq] at this
  next known _ =>
    split
    . rwa [Distinct, map_fst_put]
    . exact h

theorem Distinct.undergo {membership : Membership} (h : membership.Distinct)
    (happening : Happening)
    : (membership.undergo happening).Distinct := by
  cases happening with
  | came arrival =>
    simp only [Membership.undergo, receive]
    split
    . exact h
    . exact h.apply _ _
  | ticked now => rwa [Distinct, Membership.undergo, beat, map_fst_put]

theorem distinct_after (self : Text) (role : Role) (born : Instant) (happenings : List Happening)
    : (after self role born happenings).Distinct := by
  have : ∀ membership : Membership, membership.Distinct →
      (happenings.foldl undergo membership).Distinct := by
    induction happenings with
    | nil => exact fun _ h => h
    | cons happening rest ih => exact fun _ h => ih _ (h.undergo happening)
  exact this _ (by simp [Distinct, start])

theorem Distinct.state?_eq_some_iff {membership : Membership} (h : membership.Distinct)
    (id : Text) (state : MemberState)
    : membership.state? id = some state ↔ (id, state) ∈ membership.members := by
  unfold Distinct at h
  unfold state?
  generalize membership.members = members at h
  induction members with
  | nil => simp
  | cons m rest ih =>
    rw [List.map_cons, List.nodup_cons] at h
    rw [lookup_cons_eq_ite, List.mem_cons]
    split
    next hid =>
      subst hid
      have hrest : (m.1, state) ∉ rest := fun hmem =>
        h.1 (List.mem_map.mpr ⟨_, hmem, rfl⟩)
      simp [hrest, Prod.ext_iff, eq_comm]
    next hid => simp [ih h.2, Prod.ext_iff, hid]

theorem Distinct.mem_alive_iff {membership : Membership} (h : membership.Distinct) (now : Instant)
    (member : Member)
    : member ∈ membership.alive now ↔ ∃ state, membership.state? member.id = some state ∧
        now.millisecondsSince state.lastSeen ≤ patience ∧
        member = ⟨member.id, state.role, state.heartbeat,
          now.millisecondsSince state.lastSeen⟩ := by
  simp only [Membership.alive, List.mem_filter, List.mem_map, decide_eq_true_eq]
  constructor
  . rintro ⟨⟨⟨id, state⟩, hmem, rfl⟩, hage⟩
    exact ⟨state, (h.state?_eq_some_iff id state).mpr hmem, hage, rfl⟩
  . rintro ⟨state, hstate, hage, hmember⟩
    refine ⟨⟨(member.id, state), (h.state?_eq_some_iff _ _).mp hstate, hmember.symm⟩, ?_⟩
    rw [hmember]
    exact hage

theorem Distinct.alive {membership : Membership} (h : membership.Distinct) (now : Instant)
    : ((membership.alive now).map Member.id).Nodup := by
  have hids : membership.members.map Prod.fst =
      (membership.members.map fun m =>
        Member.mk m.1 m.2.role m.2.heartbeat (now.millisecondsSince m.2.lastSeen)).map
          Member.id := by
    simp [Function.comp_def]
  have hsub : ((membership.alive now).map Member.id).Sublist
      (membership.members.map Prod.fst) := by
    rw [hids]
    exact List.filter_sublist.map Member.id
  exact hsub.nodup h

/--
What a node knows and lists of another one, as the heartbeats of that one have it.
-/
structure Remembers (heard : List Arrival) (id : Text) (membership : Membership) : Prop where
  known : (membership.state? id).isSome ↔ ∃ arrival ∈ heard, ∃ state, arrival.Brings id state
  largest : ∀ counter, (membership.state? id).map MemberState.heartbeat = some counter ↔
    Offered heard id counter ∧ ∀ other, Offered heard id other → other ≤ counter
  first : ∀ state, membership.state? id = some state ↔ Leads heard id state
  listed : ∀ now, ((membership.alive now).map Member.id).count id = 1 ↔
    ∃ state, Leads heard id state ∧
      now.nanoseconds < state.lastSeen.nanoseconds + 5001 * 1000000
  once : ∀ now, ((membership.alive now).map Member.id).count id ≤ 1
  shown : ∀ now member, member ∈ membership.alive now ∧ member.id = id ↔
    ∃ state, Leads heard id state ∧
      now.nanoseconds < state.lastSeen.nanoseconds + 5001 * 1000000 ∧
      member = ⟨id, state.role, state.heartbeat,
        (now.nanoseconds - state.lastSeen.nanoseconds) / 1000000⟩

theorem remembers_of_registers {membership : Membership} {heard : List Arrival} {id : Text}
    (hdistinct : membership.Distinct) (h : Registers heard id (membership.state? id))
    : Remembers heard id membership := by
  have hshown : ∀ now member, member ∈ membership.alive now ∧ member.id = id ↔
      ∃ state, Leads heard id state ∧
        now.nanoseconds < state.lastSeen.nanoseconds + 5001 * 1000000 ∧
        member = ⟨id, state.role, state.heartbeat,
          (now.nanoseconds - state.lastSeen.nanoseconds) / 1000000⟩ := by
    intro now member
    simp only [hdistinct.mem_alive_iff, Instant.since_le_patience_iff]
    constructor
    . rintro ⟨⟨state, hstate, hage, hmember⟩, rfl⟩
      exact ⟨state, (h.eq_some_iff state).mp hstate, hage, hmember⟩
    . rintro ⟨state, hleads, hage, rfl⟩
      exact ⟨⟨state, (h.eq_some_iff state).mpr hleads, hage, rfl⟩, rfl⟩
  have honce : ∀ now, ((membership.alive now).map Member.id).count id ≤ 1 := fun now =>
    List.nodup_iff_count_le_one.mp (hdistinct.alive now) id
  refine ⟨h.isSome_iff, h.heartbeat_eq_some_iff, h.eq_some_iff, ?_, honce, hshown⟩
  intro now
  have hcount : ((membership.alive now).map Member.id).count id = 1 ↔
      id ∈ (membership.alive now).map Member.id := by
    rw [← List.count_pos_iff]
    have := honce now
    omega
  rw [hcount, List.mem_map]
  constructor
  . rintro ⟨member, hmember⟩
    obtain ⟨state, hleads, hage, -⟩ := (hshown now member).mp hmember
    exact ⟨state, hleads, hage⟩
  . rintro ⟨state, hleads, hage⟩
    exact ⟨_, (hshown now _).mpr ⟨state, hleads, hage, rfl⟩⟩

theorem undergo_malformed (membership : Membership) {arrival : Arrival}
    (h : Heartbeat.Malformed arrival.datagram)
    : membership.undergo (.came arrival) = membership := by
  rw [Heartbeat.malformed_iff] at h
  simp only [undergo, receive, h]

/--
A node remembers of another one the first of its largest heartbeats and lists it once for as long as
that one is not too old, whatever has happened. What is malformed changes nothing, and what is
recorded as the heartbeat depends on which heartbeats came, but neither on their order nor on how
often they came.
-/
theorem remembers_after (self : Text) (role : Role) (born : Instant) (happenings : List Happening)
    (id : Text) (hid : id ≠ self)
    : Remembers (arrivals happenings) id (after self role born happenings) ∧
        (∀ before arrival afterwards, Heartbeat.Malformed arrival.datagram →
          happenings = before ++ .came arrival :: afterwards →
          after self role born happenings = after self role born (before ++ afterwards)) ∧
        ∀ others, (∀ counter, Offered (arrivals others) id counter ↔
            Offered (arrivals happenings) id counter) →
          ((after self role born others).state? id).map MemberState.heartbeat =
            ((after self role born happenings).state? id).map MemberState.heartbeat := by
  have hregisters := registers_after hid role born
  refine ⟨remembers_of_registers (distinct_after self role born happenings)
    (hregisters happenings), ?_, ?_⟩
  . rintro before arrival afterwards hmalformed rfl
    simp only [after, List.foldl_append, List.foldl_cons, undergo_malformed _ hmalformed]
  . intro others hsame
    apply Option.ext
    intro counter
    rw [(hregisters others).heartbeat_eq_some_iff, (hregisters happenings).heartbeat_eq_some_iff]
    simp only [hsame]

theorem remembers_after_late_and_twice
    : let happenings : List Happening :=
        [.came ⟨.ofMilliseconds 100, (Heartbeat.mk "b" .server 3).datagram⟩,
          .came ⟨.ofMilliseconds 200, (Heartbeat.mk "b" .server 5).datagram⟩,
          .ticked (.ofMilliseconds 250),
          .came ⟨.ofMilliseconds 300, (Heartbeat.mk "b" .client 5).datagram⟩,
          .came ⟨.ofMilliseconds 400, (Heartbeat.mk "b" .server 4).datagram⟩,
          .came ⟨.ofMilliseconds 500, ((Heartbeat.mk "b" .server 6).datagram).take 11⟩]
      ("b" : Text) ≠ "a" ∧
        (after "a" .server ⟨0⟩ happenings).alive ⟨5200999999⟩ =
          [⟨"b", .server, 5, 5000⟩, ⟨"a", .server, 1, 4950⟩] ∧
        Remembers (arrivals happenings) "b" (after "a" .server ⟨0⟩ happenings) :=
  ⟨by decide, by decide, (remembers_after "a" .server ⟨0⟩ _ "b" (by decide)).1⟩

/--
A node is still listed 5000.9 milliseconds after its last heartbeat, and a heartbeat of 1026 bytes
that has room for its id and a role that is known makes nobody known.
-/
theorem listed_past_patience_and_cut_short
    : let beat : Arrival := ⟨⟨0⟩, (Heartbeat.mk "b" .server 1).datagram⟩
      let id : Text := List.replicate 1015 98
      let large : Bytes := [0xf7, 0x03] ++ id ++ [1, 0, 0, 0, 0, 0, 0, 0] ++ [1]
      ((after "a" .server ⟨0⟩ [.came beat]).alive ⟨5000900000⟩).map Member.id = ["b", "a"] ∧
        large = (Heartbeat.mk id .server 1).datagram ∧
        (after "a" .server ⟨0⟩ [.came ⟨⟨0⟩, large⟩]).state? id = none :=
  ⟨by decide, by decide +kernel, by decide +kernel⟩

end Membership

end SnapshotAudit
