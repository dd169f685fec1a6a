import SnapshotAudit.Proofs.Membership.Datagrams

/-!
This module contains how datagrams are received into memory that is used again and again. Behind a
short datagram there still are the bytes of longer ones from before, and a datagram says itself how
long its id is. No byte behind what was received is ever read.
-/

namespace SnapshotAudit

/--
A read that reaches behind what was received.
-/
structure Overrun where
  offset : Nat
  width : Nat
  count : Nat

structure ReceiveBuffer where
  bytes : Bytes
  length_eq : bytes.length = Heartbeat.maximumDatagram

inductive Finding where
  | short
  | unknownRole (id : Text) (code : UInt8)
  | heartbeat (beat : Heartbeat)

namespace ReceiveBuffer

/--
As much of a datagram as there is room for is put to the front. The result is the number of bytes
that were received.
-/
def fill (buffer : ReceiveBuffer) (datagram : Bytes) : ReceiveBuffer × Nat :=
  let front := datagram.take Heartbeat.maximumDatagram
  (⟨front ++ buffer.bytes.drop front.length, by
    have := buffer.length_eq
    simp only [front, List.length_append, List.length_take, List.length_drop]
    omega⟩, front.length)

def received (buffer : ReceiveBuffer) (count : Nat) : Bytes :=
  buffer.bytes.take count

def slice (buffer : ReceiveBuffer) (count offset width : Nat) : Except Overrun Bytes :=
  if offset + width ≤ count then .ok ((buffer.bytes.drop offset).take width)
  else .error ⟨offset, width, count⟩

def read (buffer : ReceiveBuffer) (count : Nat) : Except Overrun Finding := do
  if count < 11 then return .short
  let length := ofLittleEndian (← buffer.slice count 0 2)
  if count < 2 + length + 8 + 1 then return .short
  let id ← buffer.slice count 2 length
  let counter := (ofLittleEndian (← buffer.slice count (2 + length) 8)).toUInt64
  let code := (ofLittleEndian (← buffer.slice count (2 + length + 8) 1)).toUInt8
  match Role.ofCode? code with
  | none => return .unknownRole id code
  | some role => return .heartbeat ⟨id, role, counter⟩

end ReceiveBuffer

/--
The receiving side of a membership: its memory, and whether it waits for the next datagram.
-/
structure Receiver where
  gossip : Gossip
  buffer : ReceiveBuffer
  armed : Bool

namespace Receiver

def arm (receiver : Receiver) : Receiver :=
  { receiver with armed := true }

def apply (receiver : Receiver) (now : Instant) (beat : Heartbeat) : Receiver :=
  { receiver with gossip.membership := receiver.gossip.membership.apply now beat }

def complaint (receiver : Receiver) (id : Text) (code : UInt8) : Text :=
  .join ["[GossipCluster ", receiver.gossip.membership.self, "] dropping datagram from ", id,
    " with unknown role ", .decimal code.toNat]

def handle (receiver : Receiver) (now : Instant) (failed : Bool) (count : Nat)
    : Except Overrun (Receiver × Option Text) := do
  if failed || !receiver.gossip.active then return (receiver, none)
  match ← receiver.buffer.read count with
  | .short => return (receiver.arm, none)
  | .unknownRole id code => return (receiver.arm, some (receiver.complaint id code))
  | .heartbeat beat => return ((receiver.apply now beat).arm, none)

def deliver (receiver : Receiver) (now : Instant) (datagram : Bytes)
    : Except Overrun (Receiver × Option Text) :=
  if receiver.armed && receiver.gossip.bound then
    let (buffer, count) := receiver.buffer.fill datagram
    handle { receiver with buffer, armed := false } now false count
  else .ok (receiver, none)

def deliverAll (receiver : Receiver) (datagrams : List (Instant × Bytes))
    : Except Overrun Receiver :=
  match datagrams with
  | [] => .ok receiver
  | (now, datagram) :: rest => do (← receiver.deliver now datagram).1.deliverAll rest

end Receiver

/-!
Reading.
-/

namespace Finding

def ofParts (parts : Option (Text × UInt64 × UInt8)) : Finding :=
  match parts with
  | none => short
  | some (id, counter, code) =>
    match Role.ofCode? code with
    | none => unknownRole id code
    | some role => heartbeat ⟨id, role, counter⟩

end Finding

namespace ReceiveBuffer

variable {buffer : ReceiveBuffer} {count offset width : Nat}

theorem length_received (buffer : ReceiveBuffer) (h : count ≤ Heartbeat.maximumDatagram)
    : (buffer.received count).length = count := by
  rw [received, List.length_take, buffer.length_eq, Nat.min_eq_left h]

theorem slice_ok (h : offset + width ≤ count)
    : buffer.slice count offset width = .ok (((buffer.received count).drop offset).take width) := by
  rw [slice, if_pos h, received, List.drop_take, List.take_take, Nat.min_eq_left (by omega)]

theorem received_fill (buffer : ReceiveBuffer) (datagram : Bytes)
    : (buffer.fill datagram).1.received (buffer.fill datagram).2 = Heartbeat.received datagram := by
  simp [fill, received, Heartbeat.received_eq]

theorem count_fill_le (buffer : ReceiveBuffer) (datagram : Bytes)
    : (buffer.fill datagram).2 ≤ Heartbeat.maximumDatagram := by
  simp only [fill]
  exact List.length_take_le ..

theorem ofLittleEndian_take_one (bytes : Bytes)
    : (ofLittleEndian (bytes.take 1)).toUInt8 = bytes.head?.getD 0 := by
  cases bytes <;> simp [ofLittleEndian]

/--
Whatever the memory holds and whatever length the datagram announces, it is read without an overrun,
and what is found is what the received bytes say.
-/
theorem read_eq (h : count ≤ Heartbeat.maximumDatagram)
    : buffer.read count = .ok (.ofParts (Heartbeat.parts? (buffer.received count))) := by
  have hlength := buffer.length_received h
  have hwhole : (buffer.received count).take Heartbeat.maximumDatagram = buffer.received count :=
    List.take_of_length_le (by rwa [hlength])
  unfold read Heartbeat.parts?
  simp only [hwhole, hlength, List.length_drop]
  by_cases hheader : count < 11
  . simp [hheader, Finding.ofParts]
    rfl
  . rw [if_neg hheader, slice_ok (by omega)]
    simp only [bind, Except.bind, List.drop_zero]
    generalize ofLittleEndian ((buffer.received count).take 2) = length
    by_cases hid : count < 2 + length + 8 + 1
    . have hshort : count - 2 < length + 9 := by omega
      simp [hid, hshort, Finding.ofParts]
      rfl
    . have hroom : ¬count - 2 < length + 9 := by omega
      rw [if_neg hid, slice_ok (by omega), slice_ok (by omega), slice_ok (by omega)]
      simp only [ofLittleEndian_take_one, List.drop_drop, hheader, hroom, Finding.ofParts,
        Nat.add_assoc, decide_false, Bool.or_self, Bool.false_eq_true, if_false]
      split <;> rfl

end ReceiveBuffer

/-!
What arrives of a heartbeat.
-/

theorem Role.ofCode?_code (role : Role) : ofCode? role.code = some role :=
  (ofCode?_eq_some_iff ..).mpr rfl

namespace Heartbeat

theorem parts?_received (datagram : Bytes) : parts? (received datagram) = parts? datagram := by
  simp [parts?, received_eq, List.take_take]

theorem tooShort_datagram {beat : Heartbeat} (hid : beat.id.length < 65536)
    (hlong : maximumDatagram < beat.id.length + 11)
    : TooShort beat.datagram := by
  have hlength : beat.datagram.length = beat.id.length + 11 := by
    rw [datagram_eq_layout hid, length_layout]
  -- however little is received, it begins with the length that is announced
  have hfront : (received beat.datagram).take 2 = littleEndian 2 beat.id.length := by
    rw [datagram_eq_layout hid, received, List.take_take,
      Nat.min_eq_left (by decide), layout, List.take_left' (length_littleEndian ..)]
  rw [TooShort, announced, hfront, ofLittleEndian_littleEndian_of_lt hid,
    received_eq, List.length_take]
  omega

theorem parts?_datagram {beat : Heartbeat} (hid : beat.id.length < 65536)
    : parts? beat.datagram =
      if beat.id.length + 11 ≤ maximumDatagram then
        some (beat.id, beat.counter, beat.role.code)
      else none := by
  split
  next hroom =>
    have hcarries := (carries_datagram hroom).2
    rw [datagram_eq_layout hid] at hcarries ⊢
    exact parts?_of_layout hid hcarries
  next hroom =>
    exact (parts?_eq_none_iff _).mpr (tooShort_datagram hid (Nat.lt_of_not_le hroom))

end Heartbeat

namespace Membership

variable (membership : Membership) {beat : Heartbeat}

theorem receive_datagram (now : Instant) (hid : beat.id.length < 65536)
    : membership.receive now beat.datagram =
      if beat.id.length + 11 ≤ Heartbeat.maximumDatagram then membership.apply now beat
      else membership := by
  unfold receive Heartbeat.ofDatagram?
  rw [Heartbeat.parts?_datagram hid]
  by_cases hroom : beat.id.length + 11 ≤ Heartbeat.maximumDatagram
  . simp [hroom, Role.ofCode?_code]
  . simp [hroom]

theorem complaint?_datagram (hid : beat.id.length < 65536)
    : membership.complaint? beat.datagram = none := by
  unfold complaint?
  rw [Heartbeat.parts?_datagram hid]
  split <;> simp [Role.ofCode?_code]

end Membership

/-!
Receiving.
-/

namespace Receiver

variable {receiver : Receiver} {count : Nat}

structure Ready (receiver : Receiver) : Prop where
  active : receiver.gossip.active = true
  bound : receiver.gossip.bound = true
  armed : receiver.armed = true

theorem handle_eq (receiver : Receiver) (now : Instant) (active : receiver.gossip.active = true)
    (h : count ≤ Heartbeat.maximumDatagram)
    : receiver.handle now false count =
      .ok (⟨{ receiver.gossip with
          membership := receiver.gossip.membership.receive now (receiver.buffer.received count) },
          receiver.buffer, true⟩,
        receiver.gossip.membership.complaint? (receiver.buffer.received count)) := by
  have hwork : ¬(false || !receiver.gossip.active) = true := by simp [active]
  unfold handle
  rw [if_neg hwork, ReceiveBuffer.read_eq h]
  simp only [bind, Except.bind, Membership.receive, Membership.complaint?,
    Heartbeat.ofDatagram?, Finding.ofParts]
  cases Heartbeat.parts? (receiver.buffer.received count) with
  | none => rfl
  | some parts =>
    obtain ⟨id, counter, code⟩ := parts
    cases hrole : Role.ofCode? code with
    | none =>
      simp only [Option.bind_some, hrole, Option.bind_none, Option.isSome_none]
      rfl
    | some role =>
      simp only [Option.bind_some, hrole, Option.isSome_some, if_true]
      rfl

def after (receiver : Receiver) (now : Instant) (datagram : Bytes) : Receiver :=
  ⟨receiver.gossip.receive now datagram, (receiver.buffer.fill datagram).1, true⟩

theorem Ready.after (ready : receiver.Ready) (now : Instant) (datagram : Bytes)
    : (receiver.after now datagram).Ready := by
  constructor <;> simp [Receiver.after, Gossip.receive, ready.active, ready.bound]

theorem Ready.deliver_eq (ready : receiver.Ready) (now : Instant) (datagram : Bytes)
    : receiver.deliver now datagram =
      .ok (receiver.after now datagram, receiver.gossip.membership.complaint? datagram) := by
  have hwork : (receiver.armed && receiver.gossip.bound) = true := by
    simp [ready.armed, ready.bound]
  have hwork' : (receiver.gossip.active && receiver.gossip.bound) = true := by
    simp [ready.active, ready.bound]
  have hhandle := handle_eq ⟨receiver.gossip, (receiver.buffer.fill datagram).1, false⟩ now
    ready.active (receiver.buffer.count_fill_le datagram)
  unfold deliver
  rw [if_pos hwork]
  refine hhandle.trans ?_
  simp only [ReceiveBuffer.received_fill, Membership.receive, Membership.complaint?,
    Heartbeat.ofDatagram?, Heartbeat.parts?_received, Receiver.after, Gossip.receive]
  rw [if_pos hwork']

theorem Ready.deliverAll (ready : receiver.Ready) (datagrams : List (Instant × Bytes))
    : ∃ heard : Receiver, receiver.deliverAll datagrams = .ok heard ∧ heard.Ready ∧
        heard.gossip = datagrams.foldl (fun gossip (now, datagram) => gossip.receive now datagram)
          receiver.gossip := by
  induction datagrams generalizing receiver with
  | nil => exact ⟨receiver, rfl, ready, rfl⟩
  | cons first rest ih =>
    obtain ⟨now, datagram⟩ := first
    obtain ⟨heard, hheard, hready, hgossip⟩ := ih (ready.after now datagram)
    refine ⟨heard, ?_, hready, hgossip⟩
    rw [Receiver.deliverAll, ready.deliver_eq]
    exact hheard

/--
A node at work takes in exactly the heartbeats whose datagrams fit. Whatever comes, it reads nothing
but what was received, and it waits for the next datagram.
-/
theorem Ready.receives_exactly (ready : receiver.Ready)
    : (∀ (sender : Membership) (sent : Instant), (sender.beat sent).2 =
        (Heartbeat.mk sender.self sender.role (sender.beat sent).1.counter).datagram) ∧
      (∀ (beat : Heartbeat) (now : Instant), beat.id.length ≤ 65535 →
        ∃ heard, receiver.deliver now beat.datagram = .ok (heard, none) ∧ heard.Ready ∧
          heard.gossip =
            if beat.id.length ≤ 1013 then
              { receiver.gossip with membership := receiver.gossip.membership.apply now beat }
            else receiver.gossip) ∧
      (∀ (bytes : Bytes) (buffer : ReceiveBuffer) (now : Instant),
        bytes.length ≤ Heartbeat.maximumDatagram → buffer.received bytes.length = bytes →
          handle { receiver with buffer, armed := false } now false bytes.length =
            .ok (⟨receiver.gossip.receive now bytes, buffer, true⟩,
              receiver.gossip.membership.complaint? bytes)) ∧
      ∀ datagrams : List (Instant × Bytes), ∃ heard, receiver.deliverAll datagrams = .ok heard ∧
        heard.Ready ∧
        heard.gossip = datagrams.foldl (fun gossip (now, datagram) => gossip.receive now datagram)
          receiver.gossip := by
  have hwork : (receiver.gossip.active && receiver.gossip.bound) = true := by
    simp [ready.active, ready.bound]
  refine ⟨fun _ _ => rfl, ?_, ?_, ready.deliverAll⟩
  . intro beat now hid
    have hlt : beat.id.length < 65536 := Nat.lt_succ_of_le hid
    refine ⟨receiver.after now beat.datagram, ?_, ready.after now _, ?_⟩
    . rw [ready.deliver_eq, Membership.complaint?_datagram _ hlt]
    . have hfits : beat.id.length + 11 ≤ Heartbeat.maximumDatagram ↔ beat.id.length ≤ 1013 := by
        unfold Heartbeat.maximumDatagram
        omega
      rw [Receiver.after, Gossip.receive, if_pos hwork, Membership.receive_datagram _ _ hlt]
      simp only [hfits]
      split <;> rfl
  . intro bytes buffer now hlength hreceived
    have hhandle := handle_eq ⟨receiver.gossip, buffer, false⟩ now ready.active hlength
    rw [hreceived] at hhandle
    rw [hhandle, Gossip.receive, if_pos hwork]

theorem receives_exactly_after_long
    : let node := (Gossip.create "n1" .server ⟨0⟩).start
      let receiver := Receiver.mk node ⟨List.replicate 1024 7, List.length_replicate⟩ true
      let long := Heartbeat.mk (List.replicate 1014 65) .server 3
      let beat := Heartbeat.mk "n2" .client 4
      receiver.Ready ∧ ∃ heard, receiver.deliver ⟨5⟩ long.datagram = .ok (heard, none) ∧
        heard.gossip = node ∧
        ∃ heard', heard.deliver ⟨6⟩ beat.datagram = .ok (heard', none) ∧
          heard'.gossip.membership.state? "n2" = some ⟨.client, 4, ⟨6⟩⟩ := by
  intro node receiver long beat
  have ready : receiver.Ready := ⟨rfl, rfl, rfl⟩
  have hlong : long.id.length = 1014 := List.length_replicate
  obtain ⟨heard, hheard, ready', hgossip⟩ :=
    ready.receives_exactly.2.1 long ⟨5⟩ (by rw [hlong]; decide)
  obtain ⟨heard', hheard', -, hgossip'⟩ := ready'.receives_exactly.2.1 beat ⟨6⟩ (by decide)
  rw [if_neg (by rw [hlong]; decide)] at hgossip
  rw [if_pos (by decide), hgossip] at hgossip'
  refine ⟨ready, heard, hheard, hgossip, heard', hheard', ?_⟩
  rw [hgossip']
  decide

end Receiver

end SnapshotAudit
