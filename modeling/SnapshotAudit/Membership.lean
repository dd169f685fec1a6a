import SnapshotAudit.Endian

/-!
This module contains how a node learns which other nodes are alive. Every node sends heartbeats with
a counter that grows; a node that was not heard of for some time is no longer listed. Heartbeats may
be lost, repeated or late, so only a larger counter counts as news.
-/

namespace SnapshotAudit

inductive Role where
  | server
  | client
deriving DecidableEq

namespace Role

def code (role : Role) : UInt8 :=
  match role with
  | server => 1
  | client => 2

def ofCode? (code : UInt8) : Option Role :=
  match code with
  | 1 => some server
  | 2 => some client
  | _ => none

end Role

/--
A time on the clock of a node.
-/
structure Instant where
  nanoseconds : Nat
deriving DecidableEq

namespace Instant

def ofMilliseconds (milliseconds : Nat) : Instant :=
  ⟨milliseconds * 1000000⟩

/--
How many milliseconds have gone by since an earlier time. What is left of a millisecond does not
count.
-/
def millisecondsSince (now earlier : Instant) : Nat :=
  (now.nanoseconds - earlier.nanoseconds) / 1000000

end Instant

structure Member where
  id : Text
  role : Role
  heartbeat : UInt64
  age : Nat
deriving DecidableEq

structure Heartbeat where
  id : Text
  role : Role
  counter : UInt64
deriving DecidableEq

namespace Heartbeat

def maximumDatagram : Nat := 1024

/--
A datagram has the length of the id, the id, the counter and the role. Of an id whose length does
not fit sixteen bits only a part is sent.
-/
def datagram (beat : Heartbeat) : Bytes :=
  let length := beat.id.length % 65536
  littleEndian 2 length ++ beat.id.take length ++ littleEndian 8 beat.counter.toNat ++
    [beat.role.code]

/--
The parts of a datagram: the id, the counter and the code of the role. Bytes behind the role are not
looked at.
-/
def parts? (datagram : Bytes) : Option (Text × UInt64 × UInt8) :=
  let bytes := datagram.take maximumDatagram
  let length := ofLittleEndian (bytes.take 2)
  let rest := bytes.drop 2
  if bytes.length < 11 || rest.length < length + 9 then none
  else
    some (rest.take length, (ofLittleEndian ((rest.drop length).take 8)).toUInt64,
      (rest.drop (length + 8)).head?.getD 0)

def ofDatagram? (datagram : Bytes) : Option Heartbeat := do
  let (id, counter, code) ← parts? datagram
  let role ← Role.ofCode? code
  return ⟨id, role, counter⟩

end Heartbeat

/--
What is known about a member: its role, its largest counter and when that came in.
-/
structure MemberState where
  role : Role
  heartbeat : UInt64
  lastSeen : Instant
deriving DecidableEq

/--
The members that a node knows, those that it learnt of last in front, and its own counter.
-/
structure Membership where
  self : Text
  role : Role
  members : List (Text × MemberState)
  counter : UInt64
deriving DecidableEq

namespace Membership

def interval : Nat := 500

def patience : Nat := 5000

def start (self : Text) (role : Role) (now : Instant) : Membership :=
  ⟨self, role, [(self, ⟨role, 0, now⟩)], 0⟩

def state? (membership : Membership) (id : Text) : Option MemberState :=
  membership.members.lookup id

def put (membership : Membership) (id : Text) (state : MemberState) : Membership :=
  { membership with
    members := membership.members.map fun m => if m.1 = id then (id, state) else m }

/--
Take in a heartbeat. It counts when its member is unknown or when its counter is larger than before.
-/
def apply (membership : Membership) (now : Instant) (beat : Heartbeat) : Membership :=
  let state := ⟨beat.role, beat.counter, now⟩
  match membership.state? beat.id with
  | none => { membership with members := (beat.id, state) :: membership.members }
  | some known =>
    if known.heartbeat < beat.counter then membership.put beat.id state else membership

def receive (membership : Membership) (now : Instant) (datagram : Bytes) : Membership :=
  match Heartbeat.ofDatagram? datagram with
  | none => membership
  | some beat => membership.apply now beat

def complaint? (membership : Membership) (datagram : Bytes) : Option Text := do
  let (id, _, code) ← Heartbeat.parts? datagram
  if (Role.ofCode? code).isSome then none
  else
    some (.join ["[GossipCluster ", membership.self, "] dropping datagram from ", id,
      " with unknown role ", .decimal code.toNat])

/--
Give a sign of life: the own counter grows, and the datagram is what the other nodes are sent.
-/
def beat (membership : Membership) (now : Instant) : Membership × Bytes :=
  let counter := membership.counter + 1
  let membership := { membership with counter }
  (membership.put membership.self ⟨membership.role, counter, now⟩,
    (Heartbeat.mk membership.self membership.role counter).datagram)

def alive (membership : Membership) (now : Instant) : List Member :=
  (membership.members.map fun (id, state) =>
    Member.mk id state.role state.heartbeat (now.millisecondsSince state.lastSeen)).filter
      fun member => member.age ≤ patience

end Membership

/--
The membership of a node at work. It has its port from its creation until it is stopped or dropped
and never again after that, and it is active from a start to the next stop.
-/
structure Gossip where
  membership : Membership
  bound : Bool
  active : Bool
deriving DecidableEq

namespace Gossip

def create (self : Text) (role : Role) (now : Instant) : Gossip :=
  ⟨.start self role now, true, false⟩

def start (gossip : Gossip) : Gossip :=
  { gossip with active := true }

def close (gossip : Gossip) : Gossip :=
  { gossip with bound := false }

def stop (gossip : Gossip) : Gossip :=
  if gossip.active then { gossip.close with active := false } else gossip

def receive (gossip : Gossip) (now : Instant) (datagram : Bytes) : Gossip :=
  if gossip.active && gossip.bound then
    { gossip with membership := gossip.membership.receive now datagram }
  else gossip

def tick (gossip : Gossip) (now : Instant) : Gossip × Option Bytes :=
  if gossip.active then
    let (membership, datagram) := gossip.membership.beat now
    ({ gossip with membership }, if gossip.bound then some datagram else none)
  else (gossip, none)

end Gossip

end SnapshotAudit
