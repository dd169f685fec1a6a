import SnapshotAudit.Proofs.Job.Exchange

/-!
This module contains how a stream of bytes is read that a client writes on a connection: frame by
frame up to the first one that asks for nothing, and how it all is answered. A session reads on as
this says, wherever the stream is cut into pieces.
-/

namespace SnapshotAudit

inductive Ending where
  | waits
  | refuses
  | stops
deriving DecidableEq

namespace Host

/--
The frame that answers a request. Its type goes with that of the request, and its body says what the
node makes of that.
-/
inductive Answers (host : Host) : Demand → Bytes → Prop where
  | verify (request : VerifyRequest)
    : Answers host (.verify request) (encodeFrame MessageType.verifyResponse.code
      (Message.Outcome.encode (host.execute request)))
  | cancel (job : UInt64)
    : Answers host (.cancel job) (encodeFrame MessageType.cancelAck.code
      (Message.CancelAck.encode (host.cancel job)))
  | describe (snapshot : Text) (desc : Option SnapshotDescriptor)
    (found : host.describe snapshot = .ok desc)
    : Answers host (.describe snapshot) (encodeFrame MessageType.describeResponse.code
      (Message.DescribeResponse.encode desc))

def Stops (host : Host) (demand : Demand) : Prop :=
  ∃ snapshot fault, demand = .describe snapshot ∧ host.describe snapshot = .error fault

variable {host : Host} {demand : Demand} {reply : Bytes}

theorem Answers.reply?_eq (h : host.Answers demand reply) : host.reply? demand = some reply := by
  cases h with
  | verify request => rfl
  | cancel job => rfl
  | describe snapshot desc found =>
    rw [reply?, found]
    rfl

theorem Stops.reply?_eq (h : host.Stops demand) : host.reply? demand = none := by
  obtain ⟨snapshot, fault, rfl, hfault⟩ := h
  rw [reply?, hfault]

theorem answers_or_stops (host : Host) (asked : demand.requests = [demand])
    : (∃ reply, host.Answers demand reply) ∨ host.Stops demand := by
  cases demand with
  | verify request => exact .inl ⟨_, .verify request⟩
  | cancel job => exact .inl ⟨_, .cancel job⟩
  | describe snapshot =>
    cases found : host.describe snapshot with
    | ok desc => exact .inl ⟨_, .describe snapshot desc found⟩
    | error fault => exact .inr ⟨snapshot, fault, rfl, found⟩
  | reject reason => cases asked

end Host

/--
What is to be made of a stream when some requests were answered before, by a node that may have
changed each time: the requests in it, the frames that answer it, and how it ends.
-/
inductive Transcript (host : Nat → Host) : Nat → Bytes → List Demand → List Bytes → Ending → Prop
    where
  | short {n : Nat} {stream : Bytes} (short : stream.length < FrameHeader.size)
    : Transcript host n stream [] [] .waits
  | malformed {n : Nat} (header : FrameHeader) (rest : Bytes) (refused : header.accepted = false)
    : Transcript host n (header.encode ++ rest) []
        [encodeFrame MessageType.error.code (Message.Error.encode "malformed frame header")]
        .refuses
  | cut {n : Nat} (header : FrameHeader) (front : Bytes) (accepted : header.accepted = true)
    (cut : front.length < header.length.toNat)
    : Transcript host n (header.encode ++ front) [] [] .waits
  | violates {n : Nat} (header : FrameHeader) (body rest : Bytes) (reason : Text)
    (accepted : header.accepted = true) (complete : body.length = header.length.toNat)
    (violates : header.Violates body reason)
    : Transcript host n (header.encode ++ (body ++ rest)) []
        [encodeFrame MessageType.error.code (Message.Error.encode reason)] .refuses
  | stops {n : Nat} (header : FrameHeader) (body rest : Bytes) (demand : Demand)
    (accepted : header.accepted = true) (complete : body.length = header.length.toNat)
    (asks : header.Asks body demand) (stops : (host n).Stops demand)
    : Transcript host n (header.encode ++ (body ++ rest)) [demand] [] .stops
  | answers {n : Nat} {ending : Ending} (header : FrameHeader) (body rest : Bytes)
    (demand : Demand) (reply : Bytes) (requests : List Demand) (replies : List Bytes)
    (accepted : header.accepted = true) (complete : body.length = header.length.toNat)
    (asks : header.Asks body demand) (answers : (host n).Answers demand reply)
    (later : Transcript host (n + 1) rest requests replies ending)
    : Transcript host n (header.encode ++ (body ++ rest)) (demand :: requests) (reply :: replies)
        ending

theorem exists_transcript (host : Nat → Host) (n : Nat) (stream : Bytes)
    : ∃ requests replies ending, Transcript host n stream requests replies ending := by
  -- behind a frame that is answered a shorter stream is left, and one more request was answered
  induction hlength : stream.length using Nat.strong_induction_on generalizing n stream with
  | _ length ih =>
    cases Nat.lt_or_ge stream.length FrameHeader.size with
    | inl hshort => exact ⟨_, _, _, .short hshort⟩
    | inr hsize =>
      obtain ⟨header, tail, rfl⟩ := FrameHeader.exists_encode hsize
      cases accepted : header.accepted with
      | false => exact ⟨_, _, _, .malformed header tail accepted⟩
      | true =>
        cases Nat.lt_or_ge tail.length header.length.toNat with
        | inl hcut => exact ⟨_, _, _, .cut header tail accepted hcut⟩
        | inr hwhole =>
          have complete := List.length_take_of_le hwhole
          rw [← List.take_append_drop header.length.toNat tail]
          rcases header.asks_or_violates accepted (tail.take header.length.toNat) with
            ⟨demand, asks⟩ | ⟨reason, violates⟩
          . rcases (host n).answers_or_stops asks.requests_eq with ⟨reply, answers⟩ | stops
            . have hless : (tail.drop header.length.toNat).length < length := by
                rw [← hlength, List.length_append, header.length_encode, List.length_drop,
                  FrameHeader.size]
                omega
              obtain ⟨requests, replies, ending, later⟩ := ih _ hless (n + 1) _ rfl
              exact ⟨_, _, _, .answers header _ _ demand reply requests replies accepted complete
                asks answers later⟩
            . exact ⟨_, _, _, .stops header _ _ demand accepted complete asks stops⟩
          . exact ⟨_, _, _, .violates header _ _ reason accepted complete violates⟩

/-!
How a session reads a stream.
-/

namespace Session

/--
Whether a session reads, and if it waits for a body, whether it is for one that may come.
-/
def Expects (session : Session) : Prop :=
  match session.phase with
  | .header => True
  | .body header => header.accepted = true
  | .answering | .over => False

/--
The bytes that came in and that no demand was made of, from a header on.
-/
def unread (session : Session) : Bytes :=
  match session.phase with
  | .body header => header.encode ++ session.inbox
  | .header | .answering | .over => session.inbox

variable {session : Session} {front coming : Bytes} {host : Nat → Host} {n : Nat}
variable {requests : List Demand} {replies : List Bytes} {ending : Ending}

@[simp]
theorem unread_receive (session : Session) (bytes : Bytes)
    : (session.receive bytes).unread = session.unread ++ bytes := by
  cases hphase : session.phase <;> simp [unread, receive, hphase]

theorem Expects.receive (expects : session.Expects) (bytes : Bytes)
    : (session.receive bytes).Expects := expects

theorem read_eq_of_expects (expects : session.Expects)
    : session.read = (⟨session.unread, .header⟩ : Session).read := by
  obtain ⟨inbox, phase⟩ := session
  cases phase with
  | header => rfl
  | body header => exact (read_of_header expects inbox).symm
  | _ => exact absurd expects id

/--
What a session comes to that reads the front of a stream, the rest of which is still coming. It
waits only for bytes that are coming, unless the stream ends in the middle of a frame.
-/
inductive GoesOn (host : Nat → Host) (n : Nat) (front coming : Bytes) (requests : List Demand)
    (replies : List Bytes) (ending : Ending) : Session × Option Demand → Prop where
  | waits (session : Session) (expects : session.Expects) (unread : session.unread = front)
    (last : coming = [] → requests = [] ∧ replies = [] ∧ ending = .waits)
    : GoesOn host n front coming requests replies ending (session, none)
  | answers (rest : Bytes) (demand : Demand) (reply : Bytes) (laterRequests : List Demand)
    (laterReplies : List Bytes) (request : demand.requests = [demand])
    (requests_eq : requests = demand :: laterRequests)
    (replies_eq : replies = reply :: laterReplies)
    (answers : (host n).reply? demand = some reply)
    (later : Transcript host (n + 1) (rest ++ coming) laterRequests laterReplies ending)
    : GoesOn host n front coming requests replies ending (⟨rest, .answering⟩, some demand)
  | stops (rest : Bytes) (demand : Demand) (request : demand.requests = [demand])
    (requests_eq : requests = [demand]) (replies_eq : replies = []) (ending_eq : ending = .stops)
    (stops : (host n).reply? demand = none)
    : GoesOn host n front coming requests replies ending (⟨rest, .answering⟩, some demand)
  | refuses (rest : Bytes) (reason : Text) (requests_eq : requests = [])
    (replies_eq : replies = [Demand.rejectReply reason]) (ending_eq : ending = .refuses)
    : GoesOn host n front coming requests replies ending (⟨rest, .over⟩, some (.reject reason))

theorem goesOn_of_header {header : FrameHeader} {tail : Bytes}
    (h : front ++ coming = header.encode ++ tail)
    (hgoes : ∀ more, more ++ coming = tail →
      GoesOn host n (header.encode ++ more) coming requests replies ending
        (⟨header.encode ++ more, .header⟩ : Session).read)
    : GoesOn host n front coming requests replies ending (⟨front, .header⟩ : Session).read := by
  cases Nat.lt_or_ge front.length FrameHeader.size with
  | inl hshort =>
    rw [read_of_short hshort]
    refine .waits _ trivial rfl ?_
    rintro rfl
    have hlength := congrArg List.length h
    rw [List.append_nil, List.length_append, header.length_encode] at hlength
    omega
  | inr hsize =>
    obtain ⟨more, rfl, hmore⟩ := exists_of_append_eq h (header.length_encode ▸ hsize)
    exact hgoes more hmore

theorem goesOn_of_body {header : FrameHeader} {body rest more : Bytes}
    (accepted : header.accepted = true) (complete : body.length = header.length.toNat)
    (h : more ++ coming = body ++ rest)
    (hgoes : ∀ behind, behind ++ coming = rest →
      GoesOn host n (header.encode ++ (body ++ behind)) coming requests replies ending
        (raise behind (demandOf header body)))
    : GoesOn host n (header.encode ++ more) coming requests replies ending
        (⟨header.encode ++ more, .header⟩ : Session).read := by
  rw [read_of_header accepted]
  cases Nat.lt_or_ge more.length header.length.toNat with
  | inl hshort =>
    rw [readBody_of_short hshort]
    refine .waits _ accepted rfl ?_
    rintro rfl
    have hlength := congrArg List.length h
    rw [List.append_nil, List.length_append] at hlength
    omega
  | inr hwhole =>
    obtain ⟨behind, rfl, hbehind⟩ := exists_of_append_eq h (complete ▸ hwhole)
    rw [readBody_of_complete complete]
    exact hgoes behind hbehind

theorem goesOn_of_transcript (h : Transcript host n (front ++ coming) requests replies ending)
    : GoesOn host n front coming requests replies ending (⟨front, .header⟩ : Session).read := by
  -- the stream is given by its frames, and only then is it said how much of it has come
  generalize hstream : front ++ coming = stream at h
  cases h with
  | short short =>
    have hshort : front.length < FrameHeader.size := by
      rw [← hstream, List.length_append] at short
      omega
    rw [read_of_short hshort]
    exact .waits _ trivial rfl fun _ => ⟨rfl, rfl, rfl⟩
  | malformed header rest refused =>
    apply goesOn_of_header hstream
    intro more _
    rw [read_of_malformed refused]
    exact .refuses more _ rfl rfl rfl
  | cut header tail accepted cut =>
    apply goesOn_of_header hstream
    intro more hmore
    have hshort : more.length < header.length.toNat := by
      rw [← hmore, List.length_append] at cut
      omega
    rw [read_of_header accepted, readBody_of_short hshort]
    exact .waits _ accepted rfl fun _ => ⟨rfl, rfl, rfl⟩
  | violates header body rest reason accepted complete violates =>
    apply goesOn_of_header hstream
    intro more hmore
    apply goesOn_of_body accepted complete hmore
    intro behind _
    rw [violates.demandOf_eq]
    exact .refuses behind reason rfl rfl rfl
  | stops header body rest demand accepted complete asks stops =>
    apply goesOn_of_header hstream
    intro more hmore
    apply goesOn_of_body accepted complete hmore
    intro behind _
    rw [asks.demandOf_eq, asks.raise_eq]
    exact .stops behind demand asks.requests_eq rfl rfl rfl stops.reply?_eq
  | answers header body rest demand reply laterRequests laterReplies accepted complete asks
      answers later =>
    apply goesOn_of_header hstream
    intro more hmore
    apply goesOn_of_body accepted complete hmore
    rintro behind rfl
    rw [asks.demandOf_eq, asks.raise_eq]
    exact .answers behind demand reply laterRequests laterReplies asks.requests_eq rfl rfl
      answers.reply?_eq later

theorem Expects.goesOn (expects : session.Expects)
    (h : Transcript host n (session.unread ++ coming) requests replies ending)
    : GoesOn host n session.unread coming requests replies ending session.read := by
  rw [read_eq_of_expects expects]
  exact goesOn_of_transcript h

theorem GoesOn.ends (goes : GoesOn host n front [] requests replies ending (session, none))
    : requests = [] ∧ replies = [] ∧ ending = .waits := by
  generalize hresult : (session, (none : Option Demand)) = result at goes
  cases goes with
  | waits session expects unread last => exact last rfl
  | answers rest demand _ _ _ _ _ _ _ _ | stops rest demand _ _ _ _ _ | refuses rest reason _ _ _ =>
    cases congrArg Prod.snd hresult

theorem Expects.reading (expects : session.Expects) : session.reading = true := by
  obtain ⟨inbox, phase⟩ := session
  cases phase with
  | header | body _ => rfl
  | _ => exact absurd expects id

end Session

end SnapshotAudit
