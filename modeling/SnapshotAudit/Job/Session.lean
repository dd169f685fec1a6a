import SnapshotAudit.Wire.Message

/-!
This module contains the serving side of a connection. Frames are taken from the stream one after
another, and the next one is looked at only after the one before it was answered. The first frame
that is not as it should be is answered by an error, and after that nothing more is read.
-/

namespace SnapshotAudit

inductive Demand where
  | verify (request : VerifyRequest)
  | cancel (job : UInt64)
  | describe (snapshot : Text)
  | reject (reason : Text)
deriving DecidableEq

inductive SessionPhase where
  | header
  | body (header : FrameHeader)
  | answering
  | over
deriving DecidableEq

/--
A session: the bytes that came in and were not read yet, and what it does.
-/
structure Session where
  inbox : Bytes
  phase : SessionPhase
deriving DecidableEq

namespace Session

def start : Session :=
  ⟨[], .header⟩

def receive (session : Session) (bytes : Bytes) : Session :=
  { session with inbox := session.inbox ++ bytes }

def demandOfBody (header : FrameHeader) (body : Bytes) : Demand :=
  match MessageType.ofCode? header.type with
  | some .verifyRequest =>
    match Message.VerifyRequest.decode? body with
    | some request => .verify request
    | none => .reject "malformed verify request"
  | some .cancelRequest =>
    match Message.CancelRequest.decode? body with
    | some job => .cancel job
    | none => .reject "malformed cancel request"
  | some .describeRequest =>
    match Message.DescribeRequest.decode? body with
    | some snapshot => .describe snapshot
    | none => .reject "malformed describe request"
  | _ => .reject (.join ["unexpected message type ", .decimal header.type.toNat])

def demandOf (header : FrameHeader) (body : Bytes) : Demand :=
  if header.matchesBody body then demandOfBody header body
  else .reject "frame checksum mismatch"

def raise (inbox : Bytes) (demand : Demand) : Session × Option Demand :=
  (⟨inbox, match demand with | .reject _ => .over | _ => .answering⟩, some demand)

def readBody (inbox : Bytes) (header : FrameHeader) : Session × Option Demand :=
  if header.length.toNat ≤ inbox.length then
    raise (inbox.drop header.length.toNat) (demandOf header (inbox.take header.length.toNat))
  else (⟨inbox, .body header⟩, none)

def read (session : Session) : Session × Option Demand :=
  match session.phase with
  | .header =>
    match FrameHeader.decoder session.inbox with
    | none => (session, none)
    | some (header, rest) =>
      if header.accepted then readBody rest header
      else raise rest (.reject "malformed frame header")
  | .body header => readBody session.inbox header
  | .answering | .over => (session, none)

def answered (session : Session) : Session :=
  if session.phase = .answering then { session with phase := .header } else session

def reading (session : Session) : Bool :=
  match session.phase with
  | .header | .body _ => true
  | .answering | .over => false

def ended (session : Session) : Session :=
  { session with phase := .over }

end Session

namespace Demand

/-!
The frames that answer demands.
-/

def verifyReply (outcome : NodeOutcome) : Bytes :=
  encodeFrame MessageType.verifyResponse.code (Message.Outcome.encode outcome)

def cancelReply (wasPending : Bool) : Bytes :=
  encodeFrame MessageType.cancelAck.code (Message.CancelAck.encode wasPending)

def describeReply (desc : Option SnapshotDescriptor) : Bytes :=
  encodeFrame MessageType.describeResponse.code (Message.DescribeResponse.encode desc)

def rejectReply (reason : Text) : Bytes :=
  encodeFrame MessageType.error.code (Message.Error.encode reason)

end Demand

end SnapshotAudit
