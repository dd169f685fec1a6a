import SnapshotAudit.Catalog
import SnapshotAudit.Layout.Snapshot
import SnapshotAudit.Proofs.Job.Transcript

/-!
This module contains a connection on which a client writes bytes that arrive in pieces of any size,
and the session that reads them. Whatever the order in which things happen, the session answers what
the stream says, frame by frame, and nothing else.
-/

namespace SnapshotAudit

def Demand.isVerify (demand : Demand) : Bool :=
  match demand with
  | .verify _ => true
  | .cancel _ | .describe _ | .reject _ => false

/--
A connection: the bytes that have not arrived, the session with the demand that is being worked on,
the requests that have reached the node, the frames that were sent back, how many jobs were counted,
and whether the connection is closed.
-/
structure Dialogue where
  coming : Bytes
  session : Session
  demand : Option Demand
  asked : List Demand
  replies : List Bytes
  jobs : Nat
  closed : Bool

namespace Dialogue

def start (stream : Bytes) : Dialogue :=
  ⟨stream, .start, none, [], [], 0, false⟩

def heard (demand : Option Demand) : List Demand :=
  (demand.map Demand.requests).getD []

inductive Step (host : Nat → Host) (dialogue : Dialogue) : Dialogue → Prop where
  | arrive (n : Nat) (pos : 0 < n) (there : n ≤ dialogue.coming.length)
    : Step host dialogue { dialogue with
        coming := dialogue.coming.drop n
        session := if dialogue.closed then dialogue.session
          else dialogue.session.receive (dialogue.coming.take n) }
  | read (goes_on : dialogue.session.read ≠ (dialogue.session, none))
    : Step host dialogue { dialogue with
        session := dialogue.session.read.1
        demand := dialogue.session.read.2
        asked := dialogue.asked ++ heard dialogue.session.read.2
        jobs := dialogue.jobs + (heard dialogue.session.read.2).countP Demand.isVerify }
  | answer (demand : Demand) (frame : Bytes) (raised : dialogue.demand = some demand)
    (answers : (host dialogue.replies.length).reply? demand = some frame)
    : Step host dialogue { dialogue with
        session := dialogue.session.answered
        demand := none
        replies := dialogue.replies ++ [frame]
        closed := dialogue.session.phase = .over }
  | fault (demand : Demand) (raised : dialogue.demand = some demand)
    (stops : (host dialogue.replies.length).reply? demand = none)
    : Step host dialogue { dialogue with
        session := dialogue.session.ended
        demand := none
        closed := true }
  | lose (all : dialogue.coming = []) (reading : dialogue.session.reading = true)
    (waits : dialogue.session.read = (dialogue.session, none))
    : Step host dialogue { dialogue with session := dialogue.session.ended, closed := true }

inductive Reached (host : Nat → Host) (stream : Bytes) : Dialogue → Prop where
  | start : Reached host stream (start stream)
  | step {dialogue next : Dialogue} (reached : Reached host stream dialogue)
    (step : Step host dialogue next) : Reached host stream next

variable {host : Nat → Host} {stream : Bytes} {dialogue next : Dialogue}
variable {requests : List Demand} {replies : List Bytes} {ending : Ending}

inductive Standing (host : Nat → Host) (requests : List Demand) (replies : List Bytes)
    (ending : Ending) (dialogue : Dialogue) : Prop where
  | reading (laterRequests : List Demand) (laterReplies : List Bytes)
    (expects : dialogue.session.Expects) (raised : dialogue.demand = none)
    (closed : dialogue.closed = false)
    (later : Transcript host dialogue.replies.length
      (dialogue.session.unread ++ dialogue.coming) laterRequests laterReplies ending)
    (requests_eq : requests = dialogue.asked ++ laterRequests)
    (replies_eq : replies = dialogue.replies ++ laterReplies)
  | answering (demand : Demand) (reply : Bytes) (laterRequests : List Demand)
    (laterReplies : List Bytes) (phase : dialogue.session.phase = .answering)
    (raised : dialogue.demand = some demand) (closed : dialogue.closed = false)
    (answers : (host dialogue.replies.length).reply? demand = some reply)
    (later : Transcript host (dialogue.replies.length + 1)
      (dialogue.session.inbox ++ dialogue.coming) laterRequests laterReplies ending)
    (requests_eq : requests = dialogue.asked ++ laterRequests)
    (replies_eq : replies = dialogue.replies ++ reply :: laterReplies)
  | stopping (demand : Demand) (phase : dialogue.session.phase = .answering)
    (raised : dialogue.demand = some demand) (closed : dialogue.closed = false)
    (stops : (host dialogue.replies.length).reply? demand = none)
    (requests_eq : requests = dialogue.asked) (replies_eq : replies = dialogue.replies)
    (ending_eq : ending = .stops)
  | refusing (reason : Text) (phase : dialogue.session.phase = .over)
    (raised : dialogue.demand = some (.reject reason)) (closed : dialogue.closed = false)
    (requests_eq : requests = dialogue.asked)
    (replies_eq : replies = dialogue.replies ++ [Demand.rejectReply reason])
    (ending_eq : ending = .refuses)
  | gone (phase : dialogue.session.phase = .over) (raised : dialogue.demand = none)
    (closed : dialogue.closed = true) (requests_eq : requests = dialogue.asked)
    (replies_eq : replies = dialogue.replies)

theorem standing_start (h : Transcript host 0 stream requests replies ending)
    : Standing host requests replies ending (start stream) :=
  .reading requests replies trivial rfl rfl h rfl rfl

namespace Standing

theorem read {laterRequests : List Demand} {laterReplies : List Bytes}
    (closed : dialogue.closed = false)
    (later : Transcript host dialogue.replies.length
      (dialogue.session.unread ++ dialogue.coming) laterRequests laterReplies ending)
    (requests_eq : requests = dialogue.asked ++ laterRequests)
    (replies_eq : replies = dialogue.replies ++ laterReplies) {result : Session × Option Demand}
    (goes : Session.GoesOn host dialogue.replies.length dialogue.session.unread dialogue.coming
      laterRequests laterReplies ending result)
    : Standing host requests replies ending { dialogue with
        session := result.1
        demand := result.2
        asked := dialogue.asked ++ heard result.2
        jobs := dialogue.jobs + (heard result.2).countP Demand.isVerify } := by
  cases goes with
  | waits session expects unread last =>
    rw [← unread] at later
    exact .reading laterRequests laterReplies expects rfl closed later
      (by simp [heard, requests_eq]) replies_eq
  | answers rest demand reply behind behindReplies request split_requests split_replies answers
      goes_on =>
    refine .answering demand reply behind behindReplies rfl rfl closed answers goes_on ?_ ?_
    . simp [heard, request, requests_eq, split_requests]
    . rw [replies_eq, split_replies]
  | stops rest demand request split_requests split_replies ending_eq stops =>
    refine .stopping demand rfl rfl closed stops ?_ ?_ ending_eq
    . simp [heard, request, requests_eq, split_requests]
    . simp [replies_eq, split_replies]
  | refuses rest reason split_requests split_replies ending_eq =>
    refine .refusing reason rfl rfl closed ?_ ?_ ending_eq
    . simp [heard, Demand.requests, requests_eq, split_requests]
    . rw [replies_eq, split_replies]

variable (h : Standing host requests replies ending dialogue)

include h

theorem of_reading (reading : dialogue.session.reading = true)
    : ∃ laterRequests laterReplies, dialogue.session.Expects ∧ dialogue.demand = none ∧
        dialogue.closed = false ∧
        Transcript host dialogue.replies.length (dialogue.session.unread ++ dialogue.coming)
          laterRequests laterReplies ending ∧
        requests = dialogue.asked ++ laterRequests ∧
        replies = dialogue.replies ++ laterReplies := by
  cases h with
  | reading laterRequests laterReplies expects raised closed later requests_eq replies_eq =>
    exact ⟨laterRequests, laterReplies, expects, raised, closed, later, requests_eq, replies_eq⟩
  | answering _ _ _ _ phase | stopping _ phase | refusing _ phase | gone phase =>
    simp [Session.reading, phase] at reading

theorem arrive (n : Nat)
    : Standing host requests replies ending { dialogue with
        coming := dialogue.coming.drop n
        session := if dialogue.closed then dialogue.session
          else dialogue.session.receive (dialogue.coming.take n) } := by
  cases h with
  | reading laterRequests laterReplies expects raised closed later requests_eq replies_eq =>
    refine .reading laterRequests laterReplies ?_ raised closed ?_ requests_eq replies_eq
    . rw [closed]
      exact expects.receive _
    . simp only [closed, Bool.false_eq_true, if_false, Session.unread_receive, List.append_assoc,
        List.take_append_drop]
      exact later
  | answering demand reply laterRequests laterReplies phase raised closed answers later requests_eq
      replies_eq =>
    refine .answering demand reply laterRequests laterReplies ?_ raised closed answers ?_
      requests_eq replies_eq
    . simp [closed, Session.receive, phase]
    . simp only [closed, Bool.false_eq_true, if_false, Session.receive, List.append_assoc,
        List.take_append_drop]
      exact later
  | stopping demand phase raised closed stops requests_eq replies_eq ending_eq =>
    refine .stopping demand ?_ raised closed stops requests_eq replies_eq ending_eq
    simp [closed, Session.receive, phase]
  | refusing reason phase raised closed requests_eq replies_eq ending_eq =>
    refine .refusing reason ?_ raised closed requests_eq replies_eq ending_eq
    simp [closed, Session.receive, phase]
  | gone phase raised closed requests_eq replies_eq =>
    refine .gone ?_ raised closed requests_eq replies_eq
    simp [closed, phase]

theorem answer {demand : Demand} {frame : Bytes} (is_raised : dialogue.demand = some demand)
    (is_answer : (host dialogue.replies.length).reply? demand = some frame)
    : Standing host requests replies ending { dialogue with
        session := dialogue.session.answered
        demand := none
        replies := dialogue.replies ++ [frame]
        closed := dialogue.session.phase = .over } := by
  cases h with
  | answering other reply laterRequests laterReplies phase raised closed answers later requests_eq
      replies_eq =>
    obtain rfl := Option.some.inj (raised.symm.trans is_raised)
    obtain rfl := Option.some.inj (answers.symm.trans is_answer)
    have hanswered : dialogue.session.answered = ⟨dialogue.session.inbox, .header⟩ := by
      simp [Session.answered, phase]
    refine .reading laterRequests laterReplies ?_ rfl (by simp [phase]) ?_ requests_eq ?_
    . rw [hanswered]
      exact trivial
    . rw [hanswered, List.length_append, List.length_singleton]
      exact later
    . rw [replies_eq, List.append_assoc, List.singleton_append]
  | refusing reason phase raised closed requests_eq replies_eq ending_eq =>
    obtain rfl := Option.some.inj (raised.symm.trans is_raised)
    obtain rfl := Option.some.inj is_answer
    refine .gone ?_ rfl (by simp [phase]) requests_eq replies_eq
    simp [Session.answered, phase]
  | stopping other phase raised closed stops requests_eq replies_eq ending_eq =>
    obtain rfl := Option.some.inj (raised.symm.trans is_raised)
    rw [stops] at is_answer
    cases is_answer
  | reading _ _ _ raised | gone _ raised =>
    rw [raised] at is_raised
    cases is_raised

theorem fault {demand : Demand} (is_raised : dialogue.demand = some demand)
    (is_fault : (host dialogue.replies.length).reply? demand = none)
    : ending = .stops ∧ Standing host requests replies ending { dialogue with
        session := dialogue.session.ended
        demand := none
        closed := true } := by
  cases h with
  | stopping other phase raised closed stops requests_eq replies_eq ending_eq =>
    exact ⟨ending_eq, .gone rfl rfl rfl requests_eq replies_eq⟩
  | answering other reply laterRequests laterReplies phase raised closed answers later requests_eq
      replies_eq =>
    obtain rfl := Option.some.inj (raised.symm.trans is_raised)
    rw [answers] at is_fault
    cases is_fault
  | refusing reason phase raised closed requests_eq replies_eq ending_eq =>
    obtain rfl := Option.some.inj (raised.symm.trans is_raised)
    cases is_fault
  | reading _ _ _ raised | gone _ raised =>
    rw [raised] at is_raised
    cases is_raised

theorem refuses {demand : Demand} (is_raised : dialogue.demand = some demand)
    (is_over : dialogue.session.phase = .over) : ending = .refuses := by
  cases h with
  | refusing _ _ _ _ _ _ ending_eq => exact ending_eq
  | answering _ _ _ _ phase | stopping _ phase =>
    rw [phase] at is_over
    cases is_over
  | reading _ _ _ raised | gone _ raised =>
    rw [raised] at is_raised
    cases is_raised

theorem ends (all : dialogue.coming = []) (reading : dialogue.session.reading = true)
    (waits : dialogue.session.read = (dialogue.session, none))
    : dialogue.asked = requests ∧ dialogue.replies = replies ∧ ending = .waits := by
  obtain ⟨_, _, expects, -, -, later, requests_eq, replies_eq⟩ := h.of_reading reading
  have goes := expects.goesOn later
  rw [waits, all] at goes
  obtain ⟨rfl, rfl, ending_eq⟩ := goes.ends
  exact ⟨by simp [requests_eq], by simp [replies_eq], ending_eq⟩

theorem step (step : Step host dialogue next) : Standing host requests replies ending next := by
  cases step with
  | arrive n pos there => exact h.arrive n
  | read goes_on =>
    have reading : dialogue.session.reading = true := by
      cases hreading : dialogue.session.reading with
      | true => rfl
      | false => exact absurd (Session.read_of_not_reading hreading) goes_on
    obtain ⟨_, _, expects, raised, closed, later, requests_eq, replies_eq⟩ := h.of_reading reading
    exact read closed later requests_eq replies_eq (expects.goesOn later)
  | answer demand frame raised answers => exact h.answer raised answers
  | fault demand raised stops => exact (h.fault raised stops).2
  | lose all reading waits =>
    obtain ⟨requests_eq, replies_eq, -⟩ := h.ends all reading waits
    obtain ⟨_, _, -, raised, -, -, -, -⟩ := h.of_reading reading
    exact .gone rfl raised rfl requests_eq.symm replies_eq.symm

end Standing

/-!
A dialogue comes to an end.
-/

def weigh (session : Session) (demand : Option Demand) : Nat :=
  3 * session.inbox.length + (match session.phase with | .body _ => 3 | _ => 0) +
    if demand.isSome then 2 else 0

def load (dialogue : Dialogue) : Nat :=
  4 * dialogue.coming.length + weigh dialogue.session dialogue.demand +
    if dialogue.closed then 0 else 1

theorem weigh_raise (inbox : Bytes) (demand : Demand)
    : weigh (Session.raise inbox demand).1 (Session.raise inbox demand).2 =
        3 * inbox.length + 2 := by
  cases demand <;> simp [Session.raise, weigh]

theorem weigh_readBody_le (inbox : Bytes) (header : FrameHeader)
    : weigh (Session.readBody inbox header).1 (Session.readBody inbox header).2 ≤
        3 * inbox.length + 3 := by
  unfold Session.readBody
  split
  next =>
    rw [weigh_raise, List.length_drop]
    omega
  next => simp [weigh]

theorem weigh_read_lt {session : Session} (goes_on : session.read ≠ (session, none))
    : weigh session.read.1 session.read.2 < weigh session none := by
  obtain ⟨inbox, phase⟩ := session
  cases phase with
  | header =>
    cases hread : FrameHeader.decoder inbox with
    | none => exact absurd (by simp [Session.read, hread]) goes_on
    | some result =>
      obtain ⟨header, rest⟩ := result
      obtain ⟨_, rfl, rfl⟩ := FrameHeader.accepts_encode inbox header rest hread
      have hbefore : weigh ⟨header.encode ++ rest, .header⟩ none =
          3 * (FrameHeader.size + rest.length) := by
        simp [weigh]
      rw [hbefore]
      cases accepted : header.accepted with
      | true =>
        rw [Session.read_of_header accepted]
        have := weigh_readBody_le rest header
        simp only [FrameHeader.size]
        omega
      | false =>
        rw [Session.read_of_malformed accepted]
        simp only [weigh, FrameHeader.size, Option.isSome_some, if_true]
        omega
  | body header =>
    cases Nat.lt_or_ge inbox.length header.length.toNat with
    | inl hshort => exact absurd (Session.readBody_of_short hshort) goes_on
    | inr hwhole =>
      have hread : (⟨inbox, .body header⟩ : Session).read =
          Session.raise (inbox.drop header.length.toNat)
            (Session.demandOf header (inbox.take header.length.toNat)) := by
        simp [Session.read, Session.readBody, hwhole]
      rw [hread, weigh_raise, List.length_drop]
      simp only [weigh, Option.isSome_none, Bool.false_eq_true, if_false]
      omega
  | _ => exact absurd rfl goes_on

theorem weigh_answered_lt (session : Session) (demand : Demand)
    : weigh session.answered none + 1 < weigh session (some demand) := by
  obtain ⟨inbox, phase⟩ := session
  cases phase <;> simp [weigh, Session.answered]

theorem weigh_ended_lt (session : Session) (demand : Demand)
    : weigh session.ended none + 1 < weigh session (some demand) := by
  obtain ⟨inbox, phase⟩ := session
  cases phase <;> simp [weigh, Session.ended]

def Settled (dialogue : Dialogue) : Prop :=
  dialogue.coming = [] ∧ dialogue.demand = none ∧
    dialogue.session.read = (dialogue.session, none)

/--
All that the stream asks for was asked and answered, every job was counted, and the connection is
closed unless the stream ends where more could follow.
-/
structure Finished (requests : List Demand) (replies : List Bytes) (ending : Ending)
    (dialogue : Dialogue) : Prop where
  settled : dialogue.Settled
  asked : dialogue.asked = requests
  replies : dialogue.replies = replies
  jobs : dialogue.jobs = requests.countP Demand.isVerify
  closed : dialogue.closed = true ↔ ending ≠ .waits

def Counted (dialogue : Dialogue) : Prop :=
  dialogue.jobs = dialogue.asked.countP Demand.isVerify

theorem Step.counted (step : Step host dialogue next) (h : dialogue.Counted) : next.Counted := by
  cases step with
  | read goes_on => simp only [Counted, List.countP_append, h.symm]
  | arrive _ _ _ | answer _ _ _ _ | fault _ _ _ | lose _ _ _ => exact h

namespace Standing

variable (h : Standing host requests replies ending dialogue)

include h

theorem finished_or_step (counted : dialogue.Counted)
    (closes : dialogue.closed = true → ending ≠ .waits)
    : Finished requests replies ending dialogue ∨ ∃ next, Step host dialogue next := by
  by_cases all : dialogue.coming = []
  . cases h with
    | reading laterRequests laterReplies expects raised closed later requests_eq replies_eq =>
      by_cases waits : dialogue.session.read = (dialogue.session, none)
      . -- who cannot read on although everything has come is at the end of the stream
        have h : Standing host requests replies ending dialogue :=
          .reading laterRequests laterReplies expects raised closed later requests_eq replies_eq
        obtain ⟨asked, replied, ending_eq⟩ := h.ends all expects.reading waits
        exact .inl ⟨⟨all, raised, waits⟩, asked, replied, asked ▸ counted, by
          simp [closed, ending_eq]⟩
      . exact .inr ⟨_, .read waits⟩
    | answering demand reply _ _ _ raised _ answers =>
      exact .inr ⟨_, .answer demand reply raised answers⟩
    | stopping demand _ raised _ stops => exact .inr ⟨_, .fault demand raised stops⟩
    | refusing reason _ raised => exact .inr ⟨_, .answer _ _ raised rfl⟩
    | gone phase raised closed requests_eq replies_eq =>
      have waits : dialogue.session.read = (dialogue.session, none) :=
        Session.read_of_not_reading (by simp [Session.reading, phase])
      exact .inl ⟨⟨all, raised, waits⟩, requests_eq.symm, replies_eq.symm, requests_eq ▸ counted,
        fun _ => closes closed, fun _ => closed⟩
  . exact .inr ⟨_, .arrive 1 Nat.one_pos (List.length_pos_iff.mpr all)⟩

theorem load_lt (counted : dialogue.Counted) (closes : dialogue.closed = true → ending ≠ .waits)
    (unfinished : ¬Finished requests replies ending dialogue) (step : Step host dialogue next)
    : (next.closed = true → ending ≠ .waits) ∧ next.load < dialogue.load := by
  cases step with
  | arrive n pos there =>
    refine ⟨closes, ?_⟩
    simp only [load, List.length_drop]
    cases hclosed : dialogue.closed with
    | true => simp only [if_true]; omega
    | false =>
      simp only [weigh, Session.receive, List.length_append, List.length_take, Bool.false_eq_true,
        if_false]
      omega
  | read goes_on =>
    refine ⟨closes, ?_⟩
    have hless := weigh_read_lt goes_on
    have hnone : weigh dialogue.session none ≤ weigh dialogue.session dialogue.demand := by
      simp [weigh]
    simp only [load]
    omega
  | answer demand frame raised answers =>
    constructor
    . -- only the answer to a frame that is refused closes the connection
      intro is_over
      rw [h.refuses raised (of_decide_eq_true is_over)]
      decide
    . have hless := weigh_answered_lt dialogue.session demand
      simp only [load, raised]
      split <;> split <;> omega
  | fault demand raised stops =>
    constructor
    . rintro -
      rw [(h.fault raised stops).1]
      decide
    . have hless := weigh_ended_lt dialogue.session demand
      simp only [load, raised, if_true]
      split <;> omega
  | lose all reading waits =>
    -- the client goes only when everything was read, and then all is done already
    obtain ⟨asked, replied, ending_eq⟩ := h.ends all reading waits
    obtain ⟨_, _, -, raised, closed, -, -, -⟩ := h.of_reading reading
    exact absurd ⟨⟨all, raised, waits⟩, asked, replied, asked ▸ counted, by
      simp [closed, ending_eq]⟩ unfinished

end Standing

theorem comes_finished (h : Transcript host 0 stream requests replies ending)
    : Comes (Step host) (Finished requests replies ending) (start stream) := by
  apply Comes.of_measure (fun dialogue => Standing host requests replies ending dialogue ∧
    dialogue.Counted ∧ (dialogue.closed = true → ending ≠ .waits)) load ?_ ?_
    ⟨standing_start h, rfl, by simp [start]⟩
  . rintro dialogue ⟨standing, counted, closes⟩
    exact standing.finished_or_step counted closes
  . rintro dialogue next ⟨standing, counted, closes⟩ unfinished step
    obtain ⟨still_closes, hless⟩ := standing.load_lt counted closes unfinished step
    exact ⟨⟨standing.step step, step.counted counted, still_closes⟩, hless⟩

theorem Reached.standing (reached : Reached host stream dialogue)
    (h : Transcript host 0 stream requests replies ending)
    : Standing host requests replies ending dialogue ∧ dialogue.Counted := by
  induction reached with
  | start => exact ⟨standing_start h, rfl⟩
  | step _ step ih => exact ⟨ih.1.step step, step.counted ih.2⟩

namespace Standing

variable (h : Standing host requests replies ending dialogue)

include h

theorem asked_and_replied : dialogue.asked <+: requests ∧ dialogue.replies <+: replies := by
  cases h with
  | reading laterRequests laterReplies _ _ _ _ requests_eq replies_eq =>
    exact ⟨⟨laterRequests, requests_eq.symm⟩, laterReplies, replies_eq.symm⟩
  | answering _ reply laterRequests laterReplies _ _ _ _ _ requests_eq replies_eq =>
    exact ⟨⟨laterRequests, requests_eq.symm⟩, reply :: laterReplies, replies_eq.symm⟩
  | stopping _ _ _ _ _ requests_eq replies_eq | gone _ _ _ requests_eq replies_eq =>
    exact ⟨⟨[], by simp [requests_eq]⟩, [], by simp [replies_eq]⟩
  | refusing reason _ _ _ requests_eq replies_eq =>
    exact ⟨⟨[], by simp [requests_eq]⟩, [Demand.rejectReply reason], replies_eq.symm⟩

theorem read_of_raised (raised : dialogue.demand ≠ none)
    : dialogue.session.read = (dialogue.session, none) := by
  cases hreading : dialogue.session.reading with
  | false => exact Session.read_of_not_reading hreading
  | true =>
    obtain ⟨_, _, -, is_none, -, -, -, -⟩ := h.of_reading hreading
    exact absurd is_none raised

theorem step_of_closed (closed : dialogue.closed = true) (step : Step host dialogue next)
    : ∃ n, next = { dialogue with coming := dialogue.coming.drop n } := by
  cases h with
  | gone phase raised _ _ _ =>
    have idle : dialogue.session.reading = false := by simp [Session.reading, phase]
    cases step with
    | arrive n pos there => exact ⟨n, by simp [closed]⟩
    | read goes_on => exact absurd (Session.read_of_not_reading idle) goes_on
    | answer demand frame is_raised _ | fault demand is_raised _ =>
      rw [raised] at is_raised
      cases is_raised
    | lose all reading waits =>
      rw [idle] at reading
      cases reading
  | reading _ _ _ _ is_open | answering _ _ _ _ _ _ is_open | stopping _ _ _ is_open
  | refusing _ _ _ is_open =>
    rw [is_open] at closed
    cases closed

end Standing

/--
Every stream has a transcript, and however it is cut into pieces the session does what that says: in
the end all its requests have reached the node, they are answered in order, and the first frame that
asks for nothing is answered by an error and closes the connection. Until then nothing else has been
asked or answered, as many jobs are counted as have been asked for, nothing is read while a request
is being worked on, and nothing matters that comes in after the connection was closed.
-/
theorem follows_transcript (host : Nat → Host) (stream : Bytes)
    : (∃ requests replies ending, Transcript host 0 stream requests replies ending) ∧
      ∀ requests replies ending, Transcript host 0 stream requests replies ending →
        Comes (Step host) (Finished requests replies ending) (start stream) ∧
        ∀ dialogue, Reached host stream dialogue →
          dialogue.asked <+: requests ∧ dialogue.replies <+: replies ∧
          dialogue.jobs = dialogue.asked.countP Demand.isVerify ∧
          (dialogue.demand ≠ none → dialogue.session.read = (dialogue.session, none)) ∧
          (dialogue.closed = true → ∀ next, Step host dialogue next →
            ∃ n, next = { dialogue with coming := dialogue.coming.drop n }) := by
  refine ⟨exists_transcript host 0 stream, ?_⟩
  intro requests replies ending h
  refine ⟨comes_finished h, ?_⟩
  intro dialogue reached
  obtain ⟨standing, counted⟩ := reached.standing h
  obtain ⟨asked, replied⟩ := standing.asked_and_replied
  refine ⟨asked, replied, counted, standing.read_of_raised, ?_⟩
  intro closed next step
  exact standing.step_of_closed closed step

theorem follows_transcript_three
    : let host : Host := ⟨fun request => .failedWith "a" (.single .internal request.snapshot),
        fun _ => true, fun _ => .ok none⟩
      let stream := encodeFrame MessageType.cancelRequest.code (Message.CancelRequest.encode 7) ++
        encodeFrame MessageType.describeRequest.code (Message.DescribeRequest.encode "s") ++
          List.replicate 12 0
      let replies :=
        [encodeFrame MessageType.cancelAck.code (Message.CancelAck.encode true),
          encodeFrame MessageType.describeResponse.code (Message.DescribeResponse.encode none),
          encodeFrame MessageType.error.code (Message.Error.encode "malformed frame header")]
      Transcript (fun _ => host) 0 stream [.cancel 7, .describe "s"] replies .refuses ∧
        Comes (Step fun _ => host) (Finished [.cancel 7, .describe "s"] replies .refuses)
          (start stream) := by
  intro host stream replies
  have cancels : (FrameHeader.ofBody MessageType.cancelRequest.code
      (Message.CancelRequest.encode 7)).Asks (Message.CancelRequest.encode 7) (.cancel 7) :=
    .cancel 7 (by decide +kernel) rfl (by decide +kernel)
  have describes : (FrameHeader.ofBody MessageType.describeRequest.code
      (Message.DescribeRequest.encode "s")).Asks (Message.DescribeRequest.encode "s")
        (.describe "s") :=
    .describe "s" (by decide +kernel) rfl (by decide +kernel)
  have h : Transcript (fun _ => host) 0 stream [.cancel 7, .describe "s"] replies .refuses := by
    simp only [stream, encodeFrame, List.append_assoc]
    refine .answers _ _ _ _ _ _ _ (by decide +kernel) (by decide +kernel) cancels (.cancel 7) ?_
    refine .answers _ _ _ _ _ _ _ (by decide +kernel) (by decide +kernel) describes
      (.describe "s" none rfl) ?_
    exact .malformed ⟨0, 0, 0, 0, 0⟩ [] (by decide)
  exact ⟨h, ((follows_transcript (fun _ => host) stream).2 _ _ _ h).1⟩

set_option maxRecDepth 100000 in
/--
A directory stands where a node keeps its own description of a snapshot. Who asks for the snapshot
over a connection gets no answer, and the connection is closed.
-/
theorem unanswered_of_directory
    : let tree := (FileTree.createDirectories .empty "data/a/snapshots/s/a.smf").1
      let host : Host :=
        ⟨fun request => .failedWith "a" (.single .internal request.snapshot), fun _ => false,
          Catalog.find ⟨Layout.snapshotRoot "a", "a"⟩ tree⟩
      let body := Message.DescribeRequest.encode "s"
      (FrameHeader.ofBody MessageType.describeRequest.code body).Asks body (.describe "s") ∧
        Comes (Step fun _ => host)
          (fun dialogue => dialogue.Settled ∧ dialogue.asked = [.describe "s"] ∧
            dialogue.replies = [] ∧ dialogue.closed = true)
          (start (encodeFrame MessageType.describeRequest.code body)) := by
  intro tree host body
  have asks : (FrameHeader.ofBody MessageType.describeRequest.code body).Asks body
      (.describe "s") := .describe "s" (by decide +kernel) rfl (by decide +kernel)
  have hfault : host.describe "s" =
      .error (.system "basic_filebuf::underflow error reading the file: Is a directory") := by
    decide +kernel
  have h : Transcript (fun _ => host) 0 (encodeFrame MessageType.describeRequest.code body)
      [.describe "s"] [] .stops := by
    rw [encodeFrame, ← List.append_nil body]
    refine .stops _ _ _ _ (by decide +kernel) (by decide +kernel) ?_ ?_
    . rw [List.append_nil]
      exact asks
    . exact ⟨"s", _, rfl, hfault⟩
  refine ⟨asks, (comes_finished h).mono ?_⟩
  intro dialogue finished
  exact ⟨finished.settled, finished.asked, finished.replies, finished.closed.mpr (by decide)⟩

end Dialogue

end SnapshotAudit
