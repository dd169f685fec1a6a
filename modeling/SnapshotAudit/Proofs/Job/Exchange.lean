import SnapshotAudit.Job.Call
import SnapshotAudit.Proofs.Job.Reading
import SnapshotAudit.Proofs.Progress
import SnapshotAudit.Proofs.Wire.Sizes

/-!
This module contains one call over a connection: both of its ends, and the bytes between them, which
arrive in order and in pieces of any size. Nothing runs out of time. Whatever the order in which
things happen, the call comes to what it makes of the reply to its request, or to a failure when the
node that it calls stops with a fault.
-/

namespace SnapshotAudit

/--
What the node at the serving end of a connection makes of the demands that reach it.
-/
structure Host where
  execute : VerifyRequest → NodeOutcome
  cancel : UInt64 → Bool
  describe : Text → Except Fault (Option SnapshotDescriptor)

/--
The frame that answers a demand. There is none when the search for a snapshot stops with a fault.
-/
def Host.reply? (host : Host) (demand : Demand) : Option Bytes :=
  match demand with
  | .verify request => some (Demand.verifyReply (host.execute request))
  | .cancel job => some (Demand.cancelReply (host.cancel job))
  | .describe snapshot =>
    match host.describe snapshot with
    | .ok desc => some (Demand.describeReply desc)
    | .error _ => none
  | .reject reason => some (Demand.rejectReply reason)

/--
A call, the bytes on their way to the node that it calls, the session there with the demand that is
being worked on, the bytes on their way back and those that have arrived, and what the call has come
to.
-/
structure Exchange where
  call : Call
  uplink : Bytes
  session : Session
  demand : Option Demand
  downlink : Bytes
  inbox : Bytes
  closed : Bool
  result : Option CallResult

namespace Exchange

def start (call : Call) : Exchange :=
  ⟨call, [], .start, none, [], [], false, none⟩

def take (exchange : Exchange) (event : CallEvent) : Exchange :=
  { exchange with
    call := (exchange.call.step event).1
    result := exchange.result.or (exchange.call.step event).2 }

inductive Step (host : Host) (exchange : Exchange) : Exchange → Prop where
  | connect (connecting : exchange.call.phase = .connecting)
    : Step host exchange (exchange.take .connected)
  | send (sending : exchange.call.phase = .sending)
    : Step host exchange { exchange.take .sent with
        uplink := exchange.uplink ++ exchange.call.request.frame }
  | carry (n : Nat) (pos : 0 < n) (there : n ≤ exchange.uplink.length)
    : Step host exchange { exchange with
        uplink := exchange.uplink.drop n
        session := exchange.session.receive (exchange.uplink.take n) }
  | read (goes_on : exchange.session.read ≠ (exchange.session, none))
    : Step host exchange { exchange with
        session := exchange.session.read.1
        demand := exchange.session.read.2 }
  | answer (demand : Demand) (frame : Bytes) (raised : exchange.demand = some demand)
    (answers : host.reply? demand = some frame)
    : Step host exchange { exchange with
        session := exchange.session.answered
        demand := none
        downlink := exchange.downlink ++ frame
        closed := exchange.session.phase = .over }
  | fault (demand : Demand) (raised : exchange.demand = some demand)
    (stops : host.reply? demand = none)
    : Step host exchange { exchange with
        session := exchange.session.ended
        demand := none
        closed := true }
  | bring (n : Nat) (pos : 0 < n) (there : n ≤ exchange.downlink.length)
    : Step host exchange { exchange with
        downlink := exchange.downlink.drop n
        inbox := exchange.inbox ++ exchange.downlink.take n }
  | hear (wanted : Nat) (wants : exchange.call.wanted? = some wanted)
    (there : wanted ≤ exchange.inbox.length)
    : Step host exchange
        { exchange.take (exchange.call.readEvent (exchange.inbox.take wanted)) with
          inbox := exchange.inbox.drop wanted }
  | lose (wanted : Nat) (wants : exchange.call.wanted? = some wanted)
    (missing : exchange.inbox.length < wanted) (closed : exchange.closed = true)
    (empty : exchange.downlink = [])
    : Step host exchange (exchange.take (.failed "End of file"))

end Exchange

/-!
A frame, as its receiver sees it.
-/

namespace FrameHeader

structure Announces (header : FrameHeader) (type : MessageType) (body : Bytes) : Prop where
  accepted : header.accepted = true
  type_eq : header.type = type.code
  length_eq : header.length.toNat = body.length
  matched : header.matchesBody body = true

theorem exists_announces (type : MessageType) {body : Bytes}
    (h : body.length ≤ maximumLength.toNat)
    : ∃ header, Announces header type body ∧
      encodeFrame type.code body = header.encode ++ body := by
  have received := received_encodeFrame type h
  have matched := received.matched
  rw [received.body_eq] at matched
  refine ⟨ofBody type.code body, ⟨received.accepted, rfl, ?_, matched⟩, rfl⟩
  have := matched
  simp only [matchesBody, Bool.and_eq_true, decide_eq_true_eq] at this
  exact this.1.symm

end FrameHeader

theorem exists_of_append_eq {front rest first second : Bytes}
    (h : front ++ rest = first ++ second) (hlength : first.length ≤ front.length)
    : ∃ more, front = first ++ more ∧ more ++ rest = second := by
  rcases List.append_eq_append_iff.mp h with ⟨lost, hfirst, hrest⟩ | ⟨more, hfront, hsecond⟩
  . have hnone : lost = [] := by
      apply List.eq_nil_of_length_eq_zero
      simp only [hfirst, List.length_append] at hlength
      omega
    exact ⟨[], by simp [hfirst, hnone], by simpa [hnone] using hrest⟩
  . exact ⟨more, hfront, hsecond.symm⟩

namespace Session

variable {header : FrameHeader} {type : MessageType} {body front rest : Bytes}

theorem readBody_of_whole (announces : header.Announces type body)
    : readBody body header = raise [] (demandOfBody header body) := by
  have hread := readBody_of_complete announces.length_eq.symm []
  rwa [List.append_nil, demandOf, if_pos announces.matched] at hread

end Session

/-!
The stages of an exchange, from the last one to the first.
-/

namespace Exchange

variable {host : Host} {call : Call} {header : FrameHeader} {type : MessageType}
variable {body front rest : Bytes} {demand : Demand} {goal : Exchange → Prop}

def replying (call : Call) (phase : CallPhase) (front rest : Bytes) : Exchange :=
  ⟨{ call with phase }, [], ⟨[], .header⟩, none, rest, front, false, none⟩

theorem comes_replying_body (announces : header.Announces type body)
    (h : front ++ rest = body)
    : Comes (Step host) (fun exchange => exchange.result = some (call.judge header body))
        (replying call (.body header) front rest) := by
  induction hn : rest.length using Nat.strong_induction_on generalizing front rest with
  | _ n ih =>
    have hlength : front.length + rest.length = header.length.toNat := by
      rw [announces.length_eq, ← h, List.length_append]
    refine .later ?_ ?_
    . cases rest with
      | nil => exact ⟨_, .hear header.length.toNat rfl (by simp [replying, ← hlength])⟩
      | cons b rest => exact ⟨_, .bring 1 (by simp) (by simp [replying])⟩
    . intro next hstep
      cases hstep with
      | connect connecting => cases connecting
      | send sending => cases sending
      | carry n pos there => simp [replying] at there; omega
      | read goes_on => exact absurd rfl goes_on
      | answer _ _ raised => cases raised
      | fault _ raised => cases raised
      | bring n pos there =>
        have there : n ≤ rest.length := there
        have hsplit : (front ++ rest.take n) ++ rest.drop n = body := by
          rw [List.append_assoc, List.take_append_drop, h]
        exact ih (rest.drop n).length (by rw [List.length_drop]; omega) hsplit rfl
      | hear wanted wants there =>
        obtain rfl : header.length.toNat = wanted := Option.some.inj wants
        have there : header.length.toNat ≤ front.length := there
        obtain rfl : rest = [] := List.eq_nil_of_length_eq_zero (by omega)
        rw [List.append_nil] at h
        subst h
        refine .now ?_
        simp [replying, take, Call.readEvent, Call.step, Call.finish, announces.length_eq,
          Call.judge, Call.target]
      | lose _ _ _ closed => cases closed

theorem comes_replying_header (h : front ++ rest = header.encode ++ body)
    (heard : ∀ more rest, more ++ rest = body → Comes (Step host) goal
      ((replying call .header more rest).take (.headerRead header.encode)))
    : Comes (Step host) goal (replying call .header front rest) := by
  induction hn : rest.length using Nat.strong_induction_on generalizing front rest with
  | _ n ih =>
    have hsize : header.encode.length = FrameHeader.size := header.length_encode
    have hlength : front.length + rest.length = FrameHeader.size + body.length := by
      rw [← hsize, ← List.length_append, ← List.length_append, h]
    refine .later ?_ ?_
    . cases rest with
      | nil =>
        refine ⟨_, .hear FrameHeader.size rfl ?_⟩
        simp only [List.length_nil] at hlength
        change FrameHeader.size ≤ front.length
        omega
      | cons b rest => exact ⟨_, .bring 1 (by simp) (by simp [replying])⟩
    . intro next hstep
      cases hstep with
      | connect connecting => cases connecting
      | send sending => cases sending
      | carry n pos there => simp [replying] at there; omega
      | read goes_on => exact absurd Session.read_nil goes_on
      | answer _ _ raised => cases raised
      | fault _ raised => cases raised
      | bring n pos there =>
        have there : n ≤ rest.length := there
        have hsplit : (front ++ rest.take n) ++ rest.drop n = header.encode ++ body := by
          rw [List.append_assoc, List.take_append_drop, h]
        exact ih (rest.drop n).length (by rw [List.length_drop]; omega) hsplit rfl
      | hear wanted wants there =>
        obtain rfl : FrameHeader.size = wanted := Option.some.inj wants
        obtain ⟨more, rfl, hmore⟩ := exists_of_append_eq h (hsize ▸ there)
        have htake : (header.encode ++ more).take FrameHeader.size = header.encode := by
          rw [← hsize, List.take_left]
        have hdrop : (header.encode ++ more).drop FrameHeader.size = more := by
          rw [← hsize, List.drop_left]
        simpa [replying, take, Call.readEvent, htake, hdrop] using heard more rest hmore
      | lose _ _ _ closed => cases closed

theorem comes_replying (announces : header.Announces type body)
    (h : front ++ rest = header.encode ++ body)
    : Comes (Step host) (fun exchange => exchange.result = some (call.judge header body))
        (replying call .header front rest) := by
  apply comes_replying_header h
  intro more rest hmore
  have hnext : Comes (Step host)
      (fun exchange => exchange.result = some (call.judge header body))
      (replying call (.body header) more rest) := comes_replying_body announces hmore
  simpa [replying, take, Call.step, header.reads_encode.exact.whole, announces.accepted]
    using hnext

theorem comes_replying_refused (refused : header.accepted = false)
    (h : front ++ rest = header.encode ++ body)
    : Comes (Step host)
        (fun exchange =>
          exchange.result = some (.error (.protocol call.target "malformed reply header")))
        (replying call .header front rest) := by
  apply comes_replying_header h
  intro more rest _
  refine .now ?_
  simp [replying, take, Call.step, Call.finish, Call.target, header.reads_encode.exact.whole,
    refused]

def serving (call : Call) (demand : Demand) : Exchange :=
  ⟨{ call with phase := .header }, [], ⟨[], .answering⟩, some demand, [], [], false, none⟩

theorem comes_serving {frame : Bytes} (answers : host.reply? demand = some frame)
    (h : Comes (Step host) goal (replying call .header [] frame))
    : Comes (Step host) goal (serving call demand) := by
  refine .later ⟨_, .answer demand frame rfl answers⟩ ?_
  intro next hstep
  cases hstep with
  | connect connecting => cases connecting
  | send sending => cases sending
  | carry n pos there => simp [serving] at there; omega
  | read goes_on => exact absurd rfl goes_on
  | answer other reply raised replies =>
    obtain rfl : demand = other := Option.some.inj raised
    obtain rfl : frame = reply := Option.some.inj (answers.symm.trans replies)
    exact h
  | fault other raised stops =>
    obtain rfl : demand = other := Option.some.inj raised
    rw [answers] at stops
    cases stops
  | bring n pos there => simp [serving] at there; omega
  | hear wanted wants there =>
    obtain rfl : FrameHeader.size = wanted := Option.some.inj wants
    simp [serving, FrameHeader.size] at there
  | lose _ _ _ closed => cases closed

def lost (call : Call) : Exchange :=
  ⟨{ call with phase := .header }, [], ⟨[], .over⟩, none, [], [], true, none⟩

theorem comes_lost
    : Comes (Step host)
        (fun exchange => exchange.result = some (.error (.transport call.target "End of file")))
        (lost call) := by
  refine .later ⟨_, .lose FrameHeader.size rfl (by simp [lost, FrameHeader.size]) rfl rfl⟩ ?_
  intro next hstep
  cases hstep with
  | connect connecting => cases connecting
  | send sending => cases sending
  | carry n pos there => simp [lost] at there; omega
  | read goes_on => exact absurd rfl goes_on
  | answer _ _ raised => cases raised
  | fault _ raised => cases raised
  | bring n pos there => simp [lost] at there; omega
  | hear wanted wants there =>
    obtain rfl : FrameHeader.size = wanted := Option.some.inj wants
    simp [lost, FrameHeader.size] at there
  | lose => exact .now rfl

theorem comes_serving_fault (stops : host.reply? demand = none)
    : Comes (Step host)
        (fun exchange => exchange.result = some (.error (.transport call.target "End of file")))
        (serving call demand) := by
  refine .later ⟨_, .fault demand rfl stops⟩ ?_
  intro next hstep
  cases hstep with
  | connect connecting => cases connecting
  | send sending => cases sending
  | carry n pos there => simp [serving] at there; omega
  | read goes_on => exact absurd rfl goes_on
  | answer other reply raised replies =>
    obtain rfl : demand = other := Option.some.inj raised
    rw [stops] at replies
    cases replies
  | fault => exact comes_lost
  | bring n pos there => simp [serving] at there; omega
  | hear wanted wants there =>
    obtain rfl : FrameHeader.size = wanted := Option.some.inj wants
    simp [serving, FrameHeader.size] at there
  | lose _ _ _ closed => cases closed

def asking (call : Call) (phase : SessionPhase) (front rest : Bytes) : Exchange :=
  ⟨{ call with phase := .header }, rest, ⟨front, phase⟩, none, [], [], false, none⟩

section Asking

variable (announces : header.Announces type body)
variable (raises : Session.raise [] (Session.demandOfBody header body)
  = (⟨[], .answering⟩, some demand))
variable (h : Comes (Step host) goal (serving call demand))

include announces raises h

theorem comes_asking_body (hbody : front ++ rest = body)
    : Comes (Step host) goal (asking call (.body header) front rest) := by
  induction hn : rest.length using Nat.strong_induction_on generalizing front rest with
  | _ n ih =>
    have hwhole (hrest : rest = []) : (⟨front, .body header⟩ : Session).read =
        (⟨[], .answering⟩, some demand) := by
      obtain rfl : front = body := by simpa [hrest] using hbody
      rw [← raises, ← Session.readBody_of_whole announces]
      rfl
    have hshort (hrest : rest ≠ []) : (⟨front, .body header⟩ : Session).read =
        (⟨front, .body header⟩, none) := by
      have hlength : front.length < body.length := by
        have := List.length_pos_iff.mpr hrest
        rw [← hbody, List.length_append]
        omega
      exact Session.readBody_of_short (announces.length_eq ▸ hlength)
    refine .later ?_ ?_
    . by_cases hrest : rest = []
      . refine ⟨_, .read ?_⟩
        simp [asking, hwhole hrest]
      . have := List.length_pos_iff.mpr hrest
        exact ⟨_, .carry 1 (by simp) this⟩
    . intro next hstep
      cases hstep with
      | connect connecting => cases connecting
      | send sending => cases sending
      | carry n pos there =>
        have there : n ≤ rest.length := there
        have hsplit : (front ++ rest.take n) ++ rest.drop n = body := by
          rw [List.append_assoc, List.take_append_drop, hbody]
        exact ih (rest.drop n).length (by rw [List.length_drop]; omega) hsplit rfl
      | read goes_on =>
        by_cases hrest : rest = []
        . simpa [asking, serving, hwhole hrest, hrest] using h
        . exact absurd (hshort hrest) goes_on
      | answer _ _ raised => cases raised
      | fault _ raised => cases raised
      | bring n pos there => simp [asking] at there; omega
      | hear wanted wants there =>
        obtain rfl : FrameHeader.size = wanted := Option.some.inj wants
        simp [asking, FrameHeader.size] at there
      | lose _ _ _ closed => cases closed

theorem comes_asking (hframe : front ++ rest = header.encode ++ body)
    : Comes (Step host) goal (asking call .header front rest) := by
  induction hn : rest.length using Nat.strong_induction_on generalizing front rest with
  | _ n ih =>
    have hsize : header.encode.length = FrameHeader.size := header.length_encode
    have hlength : front.length + rest.length = FrameHeader.size + body.length := by
      rw [← hsize, ← List.length_append, ← List.length_append, hframe]
    -- the session reads on when the header is there, and comes to the body or to the demand
    have hread (hthere : FrameHeader.size ≤ front.length) : ∃ more, more ++ rest = body ∧
        (⟨front, .header⟩ : Session).read = Session.readBody more header ∧
        front = header.encode ++ more := by
      obtain ⟨more, hfront, hmore⟩ := exists_of_append_eq hframe (hsize ▸ hthere)
      refine ⟨more, hmore, ?_, hfront⟩
      rw [hfront]
      exact Session.read_of_header announces.accepted more
    refine .later ?_ ?_
    . by_cases hrest : rest = []
      . obtain ⟨more, hmore, hreads, _⟩ := hread (by
          simp only [hrest, List.length_nil] at hlength
          omega)
        obtain rfl : more = body := by simpa [hrest] using hmore
        refine ⟨_, .read ?_⟩
        change (⟨front, .header⟩ : Session).read ≠ _
        rw [hreads, Session.readBody_of_whole announces, raises]
        simp
      . have := List.length_pos_iff.mpr hrest
        exact ⟨_, .carry 1 (by simp) this⟩
    . intro next hstep
      cases hstep with
      | connect connecting => cases connecting
      | send sending => cases sending
      | carry n pos there =>
        have there : n ≤ rest.length := there
        have hsplit : (front ++ rest.take n) ++ rest.drop n = header.encode ++ body := by
          rw [List.append_assoc, List.take_append_drop, hframe]
        exact ih (rest.drop n).length (by rw [List.length_drop]; omega) hsplit rfl
      | read goes_on =>
        cases Nat.lt_or_ge front.length FrameHeader.size with
        | inl hshort => exact absurd (Session.read_of_short hshort) goes_on
        | inr hthere =>
          obtain ⟨more, hmore, hreads, _⟩ := hread hthere
          by_cases hrest : rest = []
          . obtain rfl : more = body := by simpa [hrest] using hmore
            rw [Session.readBody_of_whole announces, raises] at hreads
            simpa [asking, serving, hreads, hrest] using h
          . have hshort : more.length < body.length := by
              have := List.length_pos_iff.mpr hrest
              rw [← hmore, List.length_append]
              omega
            rw [Session.readBody_of_short (announces.length_eq ▸ hshort)] at hreads
            have hnext := comes_asking_body announces raises h hmore
            simpa [asking, hreads] using hnext
      | answer _ _ raised => cases raised
      | fault _ raised => cases raised
      | bring n pos there => simp [asking] at there; omega
      | hear wanted wants there =>
        obtain rfl : FrameHeader.size = wanted := Option.some.inj wants
        simp [asking, FrameHeader.size] at there
      | lose _ _ _ closed => cases closed

end Asking

def sending (call : Call) : Exchange :=
  start { call with phase := .sending }

theorem comes_sending (h : Comes (Step host) goal (asking call .header [] call.request.frame))
    : Comes (Step host) goal (sending call) := by
  refine .later ⟨_, .send rfl⟩ ?_
  intro next hstep
  cases hstep with
  | connect connecting => cases connecting
  | send => exact h
  | carry n pos there => simp [sending, start] at there; omega
  | read goes_on => exact absurd Session.read_nil goes_on
  | answer _ _ raised => cases raised
  | fault _ raised => cases raised
  | bring n pos there => simp [sending, start] at there; omega
  | hear wanted wants => cases wants
  | lose _ _ _ closed => cases closed

theorem comes_start (hphase : call.phase = .connecting)
    (h : Comes (Step host) goal (asking call .header [] call.request.frame))
    : Comes (Step host) goal (start call) := by
  obtain ⟨address, port, request, timeout, phase⟩ := call
  obtain rfl : phase = .connecting := hphase
  refine .later ⟨_, .connect rfl⟩ ?_
  intro next hstep
  cases hstep with
  | connect => exact comes_sending h
  | send sending => cases sending
  | carry n pos there => simp [start] at there; omega
  | read goes_on => exact absurd Session.read_nil goes_on
  | answer _ _ raised => cases raised
  | fault _ raised => cases raised
  | bring n pos there => simp [start] at there; omega
  | hear wanted wants => cases wants
  | lose _ _ _ closed => cases closed

end Exchange

end SnapshotAudit
