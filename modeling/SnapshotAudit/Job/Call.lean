import SnapshotAudit.Address
import SnapshotAudit.Dispatch
import SnapshotAudit.Ordered.Map
import SnapshotAudit.Wire.Message

/-!
This module contains the asking side of a connection: one request and its reply, bounded by a time.
Whatever decides a call first makes its result, and everything after that is ignored.
-/

namespace SnapshotAudit

inductive JobRequest where
  | execute (request : VerifyRequest)
  | cancel (job : UInt64)
  | describe (snapshot : Text)
deriving DecidableEq

namespace JobRequest

def type (request : JobRequest) : MessageType :=
  match request with
  | execute _ => .verifyRequest
  | cancel _ => .cancelRequest
  | describe _ => .describeRequest

def replyType (request : JobRequest) : MessageType :=
  match request with
  | execute _ => .verifyResponse
  | cancel _ => .cancelAck
  | describe _ => .describeResponse

def body (request : JobRequest) : Bytes :=
  match request with
  | execute request => Message.VerifyRequest.encode request
  | cancel job => Message.CancelRequest.encode job
  | describe snapshot => Message.DescribeRequest.encode snapshot

def frame (request : JobRequest) : Bytes :=
  encodeFrame request.type.code request.body

end JobRequest

inductive JobReply where
  | outcome (outcome : NodeOutcome)
  | wasPending (flag : Bool)
  | description (desc : Option SnapshotDescriptor)
deriving DecidableEq

namespace JobReply

def decode? (request : JobRequest) (body : Bytes) : Option JobReply :=
  match request with
  | .execute _ => (Message.Outcome.decode? body).map outcome
  | .cancel _ => (Message.CancelAck.decode? body).map wasPending
  | .describe _ => (Message.DescribeResponse.decode? body).map description

end JobReply

inductive CallError where
  | invalidHost (host : Text)
  | noReply (target : Text) (timeout : Nat)
  | transport (target reason : Text)
  | protocol (target reason : Text)
  | rejected (target reason : Text)
  | badReply (target type : Text)
deriving DecidableEq

namespace CallError

def fault (error : CallError) : Fault :=
  match error with
  | invalidHost host =>
    .audit .nodeUnreachable (.join ["JobClient invalid host ", host, ": ",
      HostAddress.invalidMessage])
  | noReply target timeout =>
    .audit .nodeTimedOut (.join ["No reply from ", target, " within ", .decimal timeout, " ms"])
  | transport target reason =>
    .audit .nodeUnreachable (.join ["JobClient transport error with ", target, ": ", reason])
  | protocol target reason =>
    .audit .nodeUnreachable (.join ["JobClient protocol error with ", target, ": ", reason])
  | rejected target reason =>
    .audit .internal (.join ["Node ", target, " rejected request: ", reason])
  | badReply target type =>
    .audit .nodeUnreachable (.join ["JobClient: bad ", type, " from ", target])

end CallError

inductive CallPhase where
  | connecting
  | sending
  | header
  | body (header : FrameHeader)
  | over
deriving DecidableEq

structure Call where
  host : Text
  port : UInt16
  request : JobRequest
  timeout : Nat
  phase : CallPhase
deriving DecidableEq

inductive CallEvent where
  | connected
  | sent
  | headerRead (bytes : Bytes)
  | bodyRead (bytes : Bytes)
  | failed (reason : Text)
  | expired
deriving DecidableEq

abbrev CallResult := Except CallError JobReply

namespace Call

def target (call : Call) : Text :=
  .join [call.host, ":", .decimal call.port.toNat]

def start (host : Text) (port : UInt16) (request : JobRequest) (timeout : Nat)
    : Except CallError Call :=
  if HostAddress.isValid host then .ok ⟨host, port, request, timeout, .connecting⟩
  else .error (.invalidHost host)

def replyName (request : JobRequest) : Text :=
  match request with
  | .execute _ => "VerifyResponse"
  | .cancel _ => "CancelAck"
  | .describe _ => "DescribeResponse"

def judge (call : Call) (header : FrameHeader) (body : Bytes) : CallResult :=
  if !header.matchesBody body then .error (.protocol call.target "reply checksum mismatch")
  else if header.type = MessageType.error.code then
    .error (.rejected call.target
      ((Message.Error.decode? body).getD "undecodable error reply"))
  else if header.type ≠ call.request.replyType.code then
    .error (.protocol call.target
      (.join ["unexpected reply type ", .decimal header.type.toNat]))
  else
    match JobReply.decode? call.request body with
    | some reply => .ok reply
    | none => .error (.badReply call.target (replyName call.request))

def finish (call : Call) (result : CallResult) : Call × Option CallResult :=
  ({ call with phase := .over }, some result)

def abandoned (call : Call) : Call :=
  { call with phase := .over }

/--
Something happens to a call. The first event that decides it comes with the result; an event that
the phase does not wait for changes nothing.
-/
def step (call : Call) (event : CallEvent) : Call × Option CallResult :=
  match call.phase, event with
  | .over, _ => (call, none)
  | _, .expired => call.finish (.error (.noReply call.target call.timeout))
  | _, .failed reason => call.finish (.error (.transport call.target reason))
  | .connecting, .connected => ({ call with phase := .sending }, none)
  | .sending, .sent => ({ call with phase := .header }, none)
  | .header, .headerRead bytes =>
    match FrameHeader.decoder.all bytes with
    | some header =>
      if header.accepted then ({ call with phase := .body header }, none)
      else call.finish (.error (.protocol call.target "malformed reply header"))
    | none => (call, none)
  | .body header, .bodyRead bytes => call.finish (call.judge header bytes)
  | _, _ => (call, none)

def wanted? (call : Call) : Option Nat :=
  match call.phase with
  | .header => some FrameHeader.size
  | .body header => some header.length.toNat
  | _ => none

def readEvent (call : Call) (bytes : Bytes) : CallEvent :=
  match call.phase with
  | .body _ => .bodyRead bytes
  | _ => .headerRead bytes

def dispatchResult (result : CallResult) : DispatchResult :=
  match result with
  | .ok (.outcome outcome) => .replied outcome
  | .ok _ => .failed []
  | .error error =>
    match error with
    | .noReply .. => .timedOut error.fault.message
    | _ => .failed error.fault.message

/--
The call that a job for a node of the network starts with. There is none when the node has no
address, or one whose host is no address.
-/
def dispatch (nodes : SortedMap Text NodeAddress) (node : Text) (request : VerifyRequest)
    (timeout : Nat) : Except DispatchResult Call :=
  match nodes.get? node with
  | none => .error (.noAddress node)
  | some address =>
    match start address.host address.jobPort (.execute request) timeout with
    | .ok call => .ok call
    | .error error => .error (dispatchResult (.error error))

def described (result : CallResult) : Option SnapshotDescriptor :=
  match result with
  | .ok (.description desc) => desc
  | _ => none

end Call

end SnapshotAudit
