import SnapshotAudit.Job.Call
import SnapshotAudit.Proofs.Progress
import SnapshotAudit.Proofs.Wire.Framing

/-!
This module contains a job that is sent over the network and everything that can happen to it, in
every order: steps of its connection that succeed or fail, its time limit, and what was already on
its way when the call was over. The first thing that decides the call is what the one who sent the
job is told.
-/

namespace SnapshotAudit

namespace CallEvent

def header? (event : CallEvent) : Option FrameHeader :=
  match event with
  | headerRead bytes => FrameHeader.decoder.all bytes
  | _ => none

/--
Whether an event decides a call that is not decided yet. An accepted header does not: the body
behind it does.
-/
def decides (event : CallEvent) : Bool :=
  match event with
  | connected | sent => false
  | headerRead bytes => !(FrameHeader.decoder.all bytes).any FrameHeader.accepted
  | bodyRead _ | failed _ | expired => true

end CallEvent

structure FrameHeader.Replies (header : FrameHeader) (body : Bytes) (outcome : NodeOutcome)
    : Prop where
  matched : header.matchesBody body = true
  type_eq : header.type = MessageType.verifyResponse.code
  decoded : Message.Outcome.decode? body = some outcome

/--
What a call may wait for. A connection hands over as many bytes as were asked for. When a call is
over, anything may still be on its way.
-/
inductive Call.Awaits (call : Call) : CallEvent → Prop where
  | connected (phase : call.phase = .connecting) : Awaits call .connected
  | sent (phase : call.phase = .sending) : Awaits call .sent
  | headerRead (bytes : Bytes) (phase : call.phase = .header)
    (whole : bytes.length = FrameHeader.size) : Awaits call (.headerRead bytes)
  | bodyRead (header : FrameHeader) (bytes : Bytes) (phase : call.phase = .body header)
    (whole : bytes.length = header.length.toNat) : Awaits call (.bodyRead bytes)
  | failed (reason : Text) : Awaits call (.failed reason)
  | expired : Awaits call .expired
  | late (event : CallEvent) (ended : call.phase = .over) : Awaits call event

namespace CallPhase

def header? (phase : CallPhase) : Option FrameHeader :=
  match phase with
  | body read => some read
  | _ => none

def rank (phase : CallPhase) : Nat :=
  match phase with
  | connecting => 4
  | sending => 3
  | header => 2
  | body _ => 1
  | .over => 0

theorem rank_pos {phase : CallPhase} (going : phase ≠ .over) : 0 < phase.rank := by
  cases phase with
  | connecting | sending | header | body _ => simp [rank]
  | _ => exact absurd rfl going

end CallPhase

/--
A job that was sent over the network: a result that is about to be told because there is no call,
the call, what has happened to it, and the results that the one who sent the job was told.
-/
structure NetworkErrand where
  posted : Option DispatchResult
  call : Option Call
  past : List CallEvent
  told : List DispatchResult
deriving DecidableEq

namespace NetworkErrand

def start (nodes : SortedMap Text NodeAddress) (node : Text) (request : VerifyRequest)
    (timeout : Nat) : NetworkErrand :=
  match Call.dispatch nodes node request timeout with
  | .error result => ⟨some result, none, [], []⟩
  | .ok call => ⟨none, some call, [], []⟩

def take (errand : NetworkErrand) (call : Call) (event : CallEvent) : NetworkErrand :=
  { errand with
    call := some (call.step event).1
    past := errand.past ++ [event]
    told := errand.told ++ ((call.step event).2.map Call.dispatchResult).toList }

inductive Step (errand : NetworkErrand) : NetworkErrand → Prop where
  | refuse (result : DispatchResult) (posted : errand.posted = some result)
    : Step errand { errand with posted := none, told := errand.told ++ [result] }
  | happen (call : Call) (event : CallEvent) (sent : errand.call = some call)
    (awaited : call.Awaits event) : Step errand (errand.take call event)

inductive Reached (nodes : SortedMap Text NodeAddress) (node : Text) (request : VerifyRequest)
    (timeout : Nat) : NetworkErrand → Prop where
  | start : Reached nodes node request timeout (start nodes node request timeout)
  | step {errand next : NetworkErrand} (reached : Reached nodes node request timeout errand)
    (step : Step errand next) : Reached nodes node request timeout next

def decisive? (errand : NetworkErrand) : Option CallEvent :=
  errand.past.find? CallEvent.decides

def header? (errand : NetworkErrand) : Option FrameHeader :=
  errand.past.findSome? CallEvent.header?

inductive Answers (header : Option FrameHeader) : CallEvent → DispatchResult → Prop where
  | timedOut (error : Text) : Answers header .expired (.timedOut error)
  | broken (reason error : Text) : Answers header (.failed reason) (.failed error)
  | malformed (bytes : Bytes) (error : Text) : Answers header (.headerRead bytes) (.failed error)
  | replied (read : FrameHeader) (body : Bytes) (outcome : NodeOutcome)
    (before : header = some read) (replies : read.Replies body outcome)
    : Answers header (.bodyRead body) (.replied outcome)
  | useless (read : FrameHeader) (body : Bytes) (error : Text) (before : header = some read)
    (unusable : ∀ outcome, ¬read.Replies body outcome)
    : Answers header (.bodyRead body) (.failed error)

theorem Answers.mono {header other : Option FrameHeader} {event : CallEvent}
    {result : DispatchResult} (h : Answers header event result)
    (hmono : ∀ read, header = some read → other = some read) : Answers other event result := by
  cases h with
  | timedOut error => exact .timedOut error
  | broken reason error => exact .broken reason error
  | malformed bytes error => exact .malformed bytes error
  | replied read body outcome before replies =>
    exact .replied read body outcome (hmono read before) replies
  | useless read body error before unusable =>
    exact .useless read body error (hmono read before) unusable

variable {errand next : NetworkErrand} {call : Call} {event : CallEvent}

inductive Standing (errand : NetworkErrand) : Prop where
  | turnedAway (error : Text) (posted : errand.posted = some (.failed error))
    (refused : errand.call = none) (past : errand.past = []) (told : errand.told = [])
  | sentBack (error : Text) (posted : errand.posted = none) (refused : errand.call = none)
    (past : errand.past = []) (told : errand.told = [.failed error])
  | going (call : Call) (request : VerifyRequest) (posted : errand.posted = none)
    (sent : errand.call = some call) (asks : call.request = .execute request)
    (going : call.phase ≠ .over) (undecided : errand.decisive? = none)
    (read : errand.header? = call.phase.header?)
    (told : errand.told = [])
  | decided (call : Call) (event : CallEvent) (result : DispatchResult)
    (posted : errand.posted = none) (sent : errand.call = some call) (ended : call.phase = .over)
    (decisive : errand.decisive? = some event) (answers : Answers errand.header? event result)
    (told : errand.told = [result])

theorem dispatch_error {nodes : SortedMap Text NodeAddress} {node : Text} {request : VerifyRequest}
    {timeout : Nat} {result : DispatchResult}
    (h : Call.dispatch nodes node request timeout = .error result)
    : ∃ error, result = .failed error := by
  unfold Call.dispatch at h
  split at h
  next =>
    cases h
    exact ⟨_, rfl⟩
  next address _ =>
    split at h
    next => cases h
    next error hstart =>
      unfold Call.start at hstart
      split at hstart
      next => cases hstart
      next =>
        cases hstart
        cases h
        exact ⟨_, rfl⟩

theorem dispatch_ok {nodes : SortedMap Text NodeAddress} {node : Text} {request : VerifyRequest}
    {timeout : Nat} (h : Call.dispatch nodes node request timeout = .ok call)
    : call.request = .execute request ∧ call.phase = .connecting := by
  unfold Call.dispatch at h
  split at h
  next => cases h
  next address _ =>
    split at h
    next other hstart =>
      cases h
      unfold Call.start at hstart
      split at hstart
      next =>
        cases hstart
        exact ⟨rfl, rfl⟩
      next => cases hstart
    next => cases h

theorem standing_start (nodes : SortedMap Text NodeAddress) (node : Text)
    (request : VerifyRequest) (timeout : Nat)
    : Standing (start nodes node request timeout) := by
  unfold start
  split
  next result hdispatch =>
    obtain ⟨error, rfl⟩ := dispatch_error hdispatch
    exact .turnedAway error rfl rfl rfl rfl
  next call hdispatch =>
    obtain ⟨asks, hphase⟩ := dispatch_ok hdispatch
    apply Standing.going call request rfl rfl asks
    . simp [hphase]
    . rfl
    . rw [hphase]
      rfl
    . rfl

theorem answers_judge (call : Call) {request : VerifyRequest} {header : FrameHeader}
    (asks : call.request = .execute request) (body : Bytes)
    : Answers (some header) (.bodyRead body) (Call.dispatchResult (call.judge header body)) := by
  have hdecode : JobReply.decode? call.request body =
      (Message.Outcome.decode? body).map JobReply.outcome := by
    rw [asks]
    rfl
  have htype : call.request.replyType = .verifyResponse := by
    rw [asks]
    rfl
  unfold Call.judge
  rw [hdecode, htype]
  split
  next hmatch =>
    apply Answers.useless header body _ rfl
    intro outcome replies
    simp [replies.matched] at hmatch
  next hmatch =>
    split
    next herror =>
      apply Answers.useless header body _ rfl
      intro outcome replies
      simp [replies.type_eq, MessageType.code] at herror
    next =>
      split
      next hother =>
        apply Answers.useless header body _ rfl
        intro outcome replies
        exact hother replies.type_eq
      next hsame =>
        cases houtcome : Message.Outcome.decode? body with
        | none =>
          apply Answers.useless header body _ rfl
          intro outcome replies
          simp [replies.decoded] at houtcome
        | some outcome =>
          apply Answers.replied header body outcome rfl
          exact ⟨by simpa using hmatch, by simpa using hsame, houtcome⟩

theorem decisive?_take
    : (errand.take call event).decisive? =
      errand.decisive?.or (if event.decides then some event else none) := by
  simp only [decisive?, take, List.find?_append, List.find?_singleton]

theorem header?_take
    : (errand.take call event).header? = errand.header?.or event.header? := by
  simp only [header?, take, List.findSome?_append, List.findSome?_singleton]

inductive Outcome (call : Call) (event : CallEvent) : Prop where
  | going (undecided : event.decides = false) (silent : (call.step event).2 = none)
    (asks : (call.step event).1.request = call.request)
    (going : (call.step event).1.phase ≠ .over)
    (read : call.phase.header?.or event.header? = (call.step event).1.phase.header?)
    (less : (call.step event).1.phase.rank < call.phase.rank)
  | ends (result : CallResult) (decisive : event.decides = true)
    (ended : (call.step event).1.phase = .over) (tells : (call.step event).2 = some result)
    (answers : Answers call.phase.header? event (Call.dispatchResult result))

theorem outcome_of_goes {phase : CallPhase} (hstep : call.step event = ({ call with phase }, none))
    (undecided : event.decides = false) (going : phase ≠ .over)
    (read : call.phase.header?.or event.header? = phase.header?)
    (less : phase.rank < call.phase.rank) : Outcome call event := by
  apply Outcome.going undecided <;> rw [hstep] <;> assumption

theorem outcome_of_finish {result : CallResult} (hstep : call.step event = call.finish result)
    (decisive : event.decides = true)
    (answers : Answers call.phase.header? event (Call.dispatchResult result))
    : Outcome call event := by
  apply Outcome.ends result decisive ?_ ?_ answers <;> rw [hstep] <;> rfl

theorem outcome_headerRead {bytes : Bytes} (phase : call.phase = .header)
    (whole : bytes.length = FrameHeader.size) : Outcome call (.headerRead bytes) := by
  -- as many bytes as a header has are the encoding of one
  obtain ⟨header, rest, rfl⟩ := FrameHeader.exists_encode (Nat.le_of_eq whole.symm)
  rw [List.length_append, FrameHeader.length_encode, Nat.add_eq_left] at whole
  obtain rfl := List.eq_nil_of_length_eq_zero whole
  rw [List.append_nil]
  have hread : FrameHeader.decoder.all header.encode = some header :=
    header.reads_encode.exact.whole
  cases haccepted : header.accepted with
  | true =>
    have hstep : call.step (.headerRead header.encode) =
        ({ call with phase := .body header }, none) := by
      simp only [Call.step, phase, hread, haccepted, if_true]
    apply outcome_of_goes hstep
    . simp [CallEvent.decides, hread, haccepted]
    . simp
    . rw [phase]
      exact hread
    . simp [phase, CallPhase.rank]
  | false =>
    have hstep : call.step (.headerRead header.encode) =
        call.finish (.error (.protocol call.target "malformed reply header")) := by
      simp only [Call.step, phase, hread, haccepted, Bool.false_eq_true, if_false]
    apply outcome_of_finish hstep
    . simp [CallEvent.decides, hread, haccepted]
    . exact .malformed _ _

theorem outcome_of_awaits {request : VerifyRequest} (asks : call.request = .execute request)
    (going : call.phase ≠ .over) (awaited : call.Awaits event) : Outcome call event := by
  cases awaited with
  | connected phase =>
    have hstep : call.step .connected = ({ call with phase := .sending }, none) := by
      simp [Call.step, phase]
    exact outcome_of_goes hstep rfl (by simp)
      (by simp [phase, CallPhase.header?, CallEvent.header?]) (by simp [phase, CallPhase.rank])
  | sent phase =>
    have hstep : call.step .sent = ({ call with phase := .header }, none) := by
      simp [Call.step, phase]
    exact outcome_of_goes hstep rfl (by simp)
      (by simp [phase, CallPhase.header?, CallEvent.header?]) (by simp [phase, CallPhase.rank])
  | headerRead bytes phase whole => exact outcome_headerRead phase whole
  | bodyRead header bytes phase whole =>
    have hstep : call.step (.bodyRead bytes) = call.finish (call.judge header bytes) := by
      simp [Call.step, phase]
    apply outcome_of_finish hstep rfl
    rw [phase]
    exact answers_judge call asks bytes
  | failed reason =>
    have hstep : call.step (.failed reason) =
        call.finish (.error (.transport call.target reason)) := by
      cases hphase : call.phase <;> simp_all [Call.step]
    exact outcome_of_finish hstep rfl (.broken reason _)
  | expired =>
    have hstep : call.step .expired =
        call.finish (.error (.noReply call.target call.timeout)) := by
      cases hphase : call.phase <;> simp_all [Call.step]
    exact outcome_of_finish hstep rfl (.timedOut _)
  | late event ended => exact absurd ended going

theorem step_of_over (ended : call.phase = .over) : call.step event = (call, none) := by
  simp [Call.step, ended]

theorem Standing.step (h : Standing errand) (step : Step errand next) : Standing next := by
  cases step with
  | refuse result posted =>
    cases h with
    | turnedAway error hposted refused past told =>
      obtain rfl := Option.some.inj (posted.symm.trans hposted)
      exact .sentBack error rfl refused past (by simp [told])
    | sentBack _ hposted | going _ _ hposted | decided _ _ _ hposted =>
      simp [posted] at hposted
  | happen call event sent awaited =>
    have hcall : (errand.take call event).call = some (call.step event).1 := rfl
    cases h with
    | turnedAway _ _ refused | sentBack _ _ refused => simp [sent] at refused
    | going other request posted hsent asks going undecided read told =>
      obtain rfl : call = other := Option.some.inj (sent.symm.trans hsent)
      cases outcome_of_awaits asks going awaited with
      | going hundecided silent hasks hgoing hread less =>
        refine .going _ request posted hcall (hasks.trans asks) hgoing ?_ ?_ ?_
        . rw [decisive?_take, undecided, hundecided]
          rfl
        . rw [header?_take, read, hread]
        . simp [take, told, silent]
      | ends result decisive ended tells answers =>
        refine .decided _ event (Call.dispatchResult result) posted hcall ended ?_ ?_ ?_
        . rw [decisive?_take, undecided, decisive]
          rfl
        . apply answers.mono
          intro header hheader
          rw [header?_take, read, hheader]
          rfl
        . simp [take, told, tells]
    | decided other first result posted hsent ended decisive answers told =>
      obtain rfl : call = other := Option.some.inj (sent.symm.trans hsent)
      -- what comes late is noted, but the first that decided stays the first
      have hstep : call.step event = (call, none) := step_of_over ended
      refine .decided call first result posted (by rw [hcall, hstep]) ended ?_ ?_ ?_
      . rw [decisive?_take, decisive]
        rfl
      . apply answers.mono
        intro header hheader
        rw [header?_take, hheader]
        rfl
      . simp [take, told, hstep]

/--
What is true at every time. At most one result was told: that the time was over exactly when that
came first, an outcome exactly when a reply that carries it came first, and a failure exactly when
the first thing was another one or there was no call.
-/
structure Truthful (errand : NetworkErrand) : Prop where
  once : errand.told.length ≤ 1
  timedOut : (∃ error, .timedOut error ∈ errand.told) ↔ errand.decisive? = some .expired
  replied : ∀ outcome, .replied outcome ∈ errand.told ↔
    ∃ header body, errand.decisive? = some (.bodyRead body) ∧ errand.header? = some header ∧
      header.Replies body outcome
  failed : (∃ error, .failed error ∈ errand.told) ↔
    (errand.call = none ∧ errand.posted = none) ∨
      ∃ event, errand.decisive? = some event ∧ event ≠ .expired ∧
        ∀ header body outcome, event = .bodyRead body → errand.header? = some header →
          ¬header.Replies body outcome

theorem Standing.truthful (h : Standing errand) : errand.Truthful := by
  cases h with
  | turnedAway error posted refused past told =>
    constructor <;> simp [told, posted, decisive?, past]
  | sentBack error posted refused past told =>
    constructor <;> simp [told, posted, refused, decisive?, past]
  | going call request posted sent asks going undecided read told =>
    constructor <;> simp [told, sent, undecided]
  | decided call event result posted sent ended decisive answers told =>
    cases answers with
    | timedOut error => constructor <;> simp [told, sent, decisive]
    | broken reason error => constructor <;> simp [told, sent, decisive]
    | malformed bytes error => constructor <;> simp [told, sent, decisive]
    | replied header body outcome before replies =>
      constructor
      . simp [told]
      . simp [told, decisive]
      . intro other
        simp only [told, List.mem_singleton, DispatchResult.replied.injEq, decisive, before,
          Option.some.injEq, CallEvent.bodyRead.injEq]
        constructor
        . rintro rfl
          exact ⟨header, body, rfl, rfl, replies⟩
        . rintro ⟨_, _, rfl, rfl, hother⟩
          exact Option.some.inj (hother.decoded.symm.trans replies.decoded)
      . simp only [told, List.mem_singleton, reduceCtorEq, exists_false, sent, false_and, false_or,
          decisive, Option.some.injEq, exists_eq_left', before, false_iff, not_and, not_forall,
          not_not]
        intro _
        exact ⟨header, body, outcome, rfl, rfl, replies⟩
    | useless header body error before unusable =>
      constructor
      . simp [told]
      . simp [told, decisive]
      . intro outcome
        simp only [told, List.mem_singleton, reduceCtorEq, decisive, before, Option.some.injEq,
          CallEvent.bodyRead.injEq, false_iff, not_exists, not_and]
        rintro _ _ rfl rfl
        exact unusable outcome
      . simp only [told, List.mem_singleton, DispatchResult.failed.injEq, exists_eq, sent,
          reduceCtorEq, false_and, false_or, decisive, Option.some.injEq, exists_eq_left', before,
          true_iff]
        refine ⟨by simp, ?_⟩
        rintro _ _ outcome hbody rfl
        obtain rfl := CallEvent.bodyRead.inj hbody
        exact unusable outcome

/--
How much is left to happen until the one who sent a job is told a result.
-/
def load (errand : NetworkErrand) : Nat :=
  match errand.call with
  | none => errand.posted.toList.length
  | some call => call.phase.rank

theorem Standing.load_lt (h : Standing errand) (untold : errand.told.length ≠ 1)
    (step : Step errand next) : next.load < errand.load := by
  cases h with
  | turnedAway error posted refused =>
    cases step with
    | refuse => simp [load, refused, posted]
    | happen call event sent => simp [sent] at refused
  | sentBack _ _ _ _ told => simp [told] at untold
  | decided _ _ _ _ _ _ _ _ told => simp [told] at untold
  | going call request posted sent asks going =>
    cases step with
    | refuse result hposted => simp [posted] at hposted
    | happen other event hsent awaited =>
      obtain rfl : call = other := Option.some.inj (sent.symm.trans hsent)
      have hload : (errand.take call event).load = (call.step event).1.phase.rank := rfl
      rw [hload, load, sent]
      cases outcome_of_awaits asks going awaited with
      | going _ _ _ _ _ less => exact less
      | ends _ _ ended =>
        rw [ended]
        exact CallPhase.rank_pos going

end NetworkErrand

end SnapshotAudit
