import SnapshotAudit.Job.Session
import SnapshotAudit.Proofs.Wire.Framing

/-!
This module contains what a session makes of the bytes in front of it: what a frame asks for, what
is wrong with one that asks for nothing, and how far a session reads when bytes are missing.
-/

namespace SnapshotAudit

def Demand.requests (demand : Demand) : List Demand :=
  match demand with
  | .reject _ => []
  | .verify _ | .cancel _ | .describe _ => [demand]

def MessageType.asks (type : MessageType) : Bool :=
  match type with
  | verifyRequest | cancelRequest | describeRequest => true
  | verifyResponse | cancelAck | error | describeResponse => false

inductive FrameHeader.Asks (header : FrameHeader) (body : Bytes) : Demand → Prop where
  | verify (request : VerifyRequest) (matched : header.matchesBody body = true)
    (type : header.type = MessageType.verifyRequest.code)
    (decodes : Message.VerifyRequest.decode? body = some request)
    : Asks header body (.verify request)
  | cancel (job : UInt64) (matched : header.matchesBody body = true)
    (type : header.type = MessageType.cancelRequest.code)
    (decodes : Message.CancelRequest.decode? body = some job) : Asks header body (.cancel job)
  | describe (snapshot : Text) (matched : header.matchesBody body = true)
    (type : header.type = MessageType.describeRequest.code)
    (decodes : Message.DescribeRequest.decode? body = some snapshot)
    : Asks header body (.describe snapshot)

inductive FrameHeader.Violates (header : FrameHeader) (body : Bytes) : Text → Prop where
  | checksum (differs : header.matchesBody body = false)
    : Violates header body "frame checksum mismatch"
  | type (type : MessageType) (matched : header.matchesBody body = true)
    (type_eq : header.type = type.code)
    (answers : type.asks = false)
    : Violates header body (.join ["unexpected message type ", .decimal header.type.toNat])
  | verify (matched : header.matchesBody body = true)
    (type : header.type = MessageType.verifyRequest.code)
    (malformed : Message.VerifyRequest.decode? body = none)
    : Violates header body "malformed verify request"
  | cancel (matched : header.matchesBody body = true)
    (type : header.type = MessageType.cancelRequest.code)
    (malformed : Message.CancelRequest.decode? body = none)
    : Violates header body "malformed cancel request"
  | describe (matched : header.matchesBody body = true)
    (type : header.type = MessageType.describeRequest.code)
    (malformed : Message.DescribeRequest.decode? body = none)
    : Violates header body "malformed describe request"

namespace FrameHeader

variable {header : FrameHeader} {body : Bytes} {demand : Demand} {reason : Text}

theorem exists_type (accepted : header.accepted = true)
    : ∃ type : MessageType, header.type = type.code := by
  simp only [FrameHeader.accepted, Bool.and_eq_true] at accepted
  obtain ⟨type, htype⟩ := Option.isSome_iff_exists.mp accepted.1.2
  exact ⟨type, (MessageType.code_of_ofCode? htype).symm⟩

theorem asks_or_violates (accepted : header.accepted = true) (body : Bytes)
    : (∃ demand, header.Asks body demand) ∨ ∃ reason, header.Violates body reason := by
  cases matched : header.matchesBody body with
  | false => exact .inr ⟨_, .checksum matched⟩
  | true =>
    obtain ⟨type, htype⟩ := exists_type accepted
    cases type with
    | verifyRequest =>
      cases hdecode : Message.VerifyRequest.decode? body with
      | none => exact .inr ⟨_, .verify matched htype hdecode⟩
      | some request => exact .inl ⟨_, .verify request matched htype hdecode⟩
    | cancelRequest =>
      cases hdecode : Message.CancelRequest.decode? body with
      | none => exact .inr ⟨_, .cancel matched htype hdecode⟩
      | some job => exact .inl ⟨_, .cancel job matched htype hdecode⟩
    | describeRequest =>
      cases hdecode : Message.DescribeRequest.decode? body with
      | none => exact .inr ⟨_, .describe matched htype hdecode⟩
      | some snapshot => exact .inl ⟨_, .describe snapshot matched htype hdecode⟩
    | verifyResponse | cancelAck | error | describeResponse =>
      exact .inr ⟨_, .type _ matched htype rfl⟩

theorem Asks.demandOf_eq (asks : header.Asks body demand)
    : Session.demandOf header body = demand := by
  cases asks with
  | verify request matched type decodes | cancel job matched type decodes
  | describe snapshot matched type decodes =>
    simp [Session.demandOf, Session.demandOfBody, matched, type, decodes]

theorem Asks.raise_eq (asks : header.Asks body demand) (rest : Bytes)
    : Session.raise rest demand = (⟨rest, .answering⟩, some demand) := by
  cases asks <;> rfl

theorem Asks.requests_eq (asks : header.Asks body demand) : demand.requests = [demand] := by
  cases asks <;> rfl

theorem Violates.demandOf_eq (violates : header.Violates body reason)
    : Session.demandOf header body = .reject reason := by
  cases violates with
  | checksum differs => simp [Session.demandOf, differs]
  | type type matched type_eq answers =>
    rw [Session.demandOf, if_pos matched, Session.demandOfBody, type_eq, MessageType.ofCode?_code]
    cases type with
    | verifyRequest | cancelRequest | describeRequest => cases answers
    | verifyResponse | cancelAck | error | describeResponse => rfl
  | verify matched type malformed | cancel matched type malformed
  | describe matched type malformed =>
    simp [Session.demandOf, Session.demandOfBody, matched, type, malformed]

end FrameHeader

namespace Session

variable {header : FrameHeader} {body front rest : Bytes}

theorem read_nil : (⟨[], .header⟩ : Session).read = (⟨[], .header⟩, none) := rfl

theorem read_of_short (hshort : front.length < FrameHeader.size)
    : (⟨front, .header⟩ : Session).read = (⟨front, .header⟩, none) := by
  simp [read, FrameHeader.decoder_of_short hshort]

theorem read_of_malformed (refused : header.accepted = false) (front : Bytes)
    : (⟨header.encode ++ front, .header⟩ : Session).read =
        (⟨front, .over⟩, some (.reject "malformed frame header")) := by
  simp [read, header.reads_encode.whole, refused, raise]

theorem read_of_header (accepted : header.accepted = true) (front : Bytes)
    : (⟨header.encode ++ front, .header⟩ : Session).read = readBody front header := by
  simp [read, header.reads_encode.whole, accepted]

theorem readBody_of_short (hshort : front.length < header.length.toNat)
    : readBody front header = (⟨front, .body header⟩, none) := by
  rw [readBody, if_neg (Nat.not_le.mpr hshort)]

theorem readBody_of_complete (complete : body.length = header.length.toNat) (rest : Bytes)
    : readBody (body ++ rest) header = raise rest (demandOf header body) := by
  rw [readBody, if_pos (by rw [← complete, List.length_append]; omega), ← complete,
    List.take_left, List.drop_left]

theorem read_of_not_reading {session : Session} (h : session.reading = false)
    : session.read = (session, none) := by
  cases hphase : session.phase with
  | header | body _ => simp [reading, hphase] at h
  | _ => simp [read, hphase]

end Session

end SnapshotAudit
