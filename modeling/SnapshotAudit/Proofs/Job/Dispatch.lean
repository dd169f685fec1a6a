import SnapshotAudit.Catalog
import SnapshotAudit.Job.LocalCall
import SnapshotAudit.Layout.Snapshot
import SnapshotAudit.Proofs.Job.Exchange
import SnapshotAudit.Proofs.Service.Answers

/-!
This module contains that it makes no difference to a job whether the service it is for is reached
over a connection or is a part of the same process. It does make one to a question for a snapshot
when the search for it stops with a fault: in the same process the one who asks gets the fault, and
over a connection it looks as if there was no such snapshot.
-/

namespace SnapshotAudit

/--
A job for a service of the same process, the question that the service was handed, and what the one
who sent the job was told.
-/
structure LocalExchange where
  call : LocalCall
  handed : Option VerifyRequest
  told : Option DispatchResult

namespace LocalExchange

def start (node : Text) (request : VerifyRequest) (timeout : Nat) : LocalExchange :=
  ⟨.start node request timeout, none, none⟩

def follow (exchange : LocalExchange) (effect : Option LocalEffect) : LocalExchange :=
  match effect with
  | none => exchange
  | some (.handOver request) => { exchange with handed := some request }
  | some (.answer result) => { exchange with told := exchange.told.or (some result) }

def take (exchange : LocalExchange) (event : LocalEvent) : LocalExchange :=
  { exchange with call := (exchange.call.step event).1 }.follow (exchange.call.step event).2

inductive Step (host : Host) (exchange : LocalExchange) : LocalExchange → Prop where
  | due (delayed : exchange.call.phase = .delayed) : Step host exchange (exchange.take .due)
  | execute (request : VerifyRequest) (handed : exchange.handed = some request)
    : Step host exchange
        { exchange.take (.returned (host.execute request)) with handed := none }

theorem comes_start (host : Host) (node : Text) (request : VerifyRequest) (timeout : Nat)
    : Comes (Step host)
        (fun exchange => exchange.told = some (.replied (host.execute request)))
        (start node request timeout) := by
  refine .later ⟨_, .due rfl⟩ ?_
  intro next hstep
  cases hstep with
  | execute _ handed => cases handed
  | due =>
    refine .later ⟨_, .execute request rfl⟩ ?_
    intro next hstep
    cases hstep with
    | due delayed => cases delayed
    | execute other handed =>
      obtain rfl : request = other := Option.some.inj handed
      exact .now rfl

end LocalExchange

/-!
Over a connection.
-/

theorem Call.judge_of_announces {call : Call} {header : FrameHeader} {body : Bytes}
    {reply : JobReply} (announces : header.Announces call.request.replyType body)
    (decodes : JobReply.decode? call.request body = some reply)
    : call.judge header body = .ok reply := by
  have hother : call.request.replyType.code ≠ MessageType.error.code := by
    cases call.request <;> simp [JobRequest.replyType, MessageType.code]
  rw [judge, announces.matched, announces.type_eq, decodes]
  simp [hother]

def JobRequest.demand (request : JobRequest) : Demand :=
  match request with
  | execute request => .verify request
  | cancel job => .cancel job
  | describe snapshot => .describe snapshot

theorem Session.raise_of_announces {header : FrameHeader} {request : JobRequest}
    (announces : header.Announces request.type request.body)
    (h : request.body.length ≤ FrameHeader.maximumLength.toNat)
    : raise [] (demandOfBody header request.body) = (⟨[], .answering⟩, some request.demand) := by
  have htype : MessageType.ofCode? header.type = some request.type := by
    rw [announces.type_eq, MessageType.ofCode?_code]
  have hfits : Encode.Fits request.body.length := Encode.fits_of_frame h
  cases request with
  | execute request =>
    have hdecode := (Message.VerifyRequest.reads_encode
      (Message.VerifyRequest.fits_of_length hfits)).exact.whole
    simp only [demandOfBody, htype, JobRequest.type, JobRequest.body, Message.VerifyRequest.decode?,
      hdecode]
    rfl
  | cancel job =>
    have hdecode := (Decoder.reads_u64 job).exact.whole
    simp only [demandOfBody, htype, JobRequest.type, JobRequest.body, Message.CancelRequest.encode,
      Message.CancelRequest.decode?, hdecode]
    rfl
  | describe snapshot =>
    have hsnapshot : Encode.Fits snapshot.length := by
      apply hfits.of_le
      simp only [JobRequest.body, Message.DescribeRequest.encode, Encode.length_text]
      omega
    have hdecode := (Decoder.reads_text hsnapshot).exact.whole
    simp only [demandOfBody, htype, JobRequest.type, JobRequest.body,
      Message.DescribeRequest.encode, Message.DescribeRequest.decode?, hdecode]
    rfl

namespace Exchange

variable {host : Host} {body : Bytes} {reply : JobReply}

theorem comes_of_serving {goal : Exchange → Prop} (call : Call) (hphase : call.phase = .connecting)
    (request : call.request.body.length ≤ FrameHeader.maximumLength.toNat)
    (h : Comes (Step host) goal (serving call call.request.demand))
    : Comes (Step host) goal (start call) := by
  obtain ⟨_, asking, hasks⟩ := FrameHeader.exists_announces call.request.type request
  apply comes_start hphase
  exact comes_asking asking (Session.raise_of_announces asking request) h hasks

theorem comes_of_reply (call : Call) (hphase : call.phase = .connecting)
    (request : call.request.body.length ≤ FrameHeader.maximumLength.toNat)
    (answers : host.reply? call.request.demand =
      some (encodeFrame call.request.replyType.code body))
    (hbody : body.length ≤ FrameHeader.maximumLength.toNat)
    (decodes : JobReply.decode? call.request body = some reply)
    : Comes (Step host) (fun exchange => exchange.result = some (.ok reply)) (start call) := by
  obtain ⟨header, announces, hreply⟩ :=
    FrameHeader.exists_announces call.request.replyType hbody
  apply comes_of_serving call hphase request
  apply comes_serving answers
  rw [← Call.judge_of_announces announces decodes]
  exact comes_replying announces hreply

theorem comes_of_fault (call : Call) (hphase : call.phase = .connecting)
    (request : call.request.body.length ≤ FrameHeader.maximumLength.toNat)
    (stops : host.reply? call.request.demand = none)
    : Comes (Step host)
        (fun exchange => exchange.result = some (.error (.transport call.target "End of file")))
        (start call) :=
  comes_of_serving call hphase request (comes_serving_fault stops)

theorem comes_of_refused (call : Call) (hphase : call.phase = .connecting)
    (request : call.request.body.length ≤ FrameHeader.maximumLength.toNat)
    (answers : host.reply? call.request.demand =
      some (encodeFrame call.request.replyType.code body))
    (refused : (FrameHeader.ofBody call.request.replyType.code body).accepted = false)
    : Comes (Step host)
        (fun exchange =>
          exchange.result = some (.error (.protocol call.target "malformed reply header")))
        (start call) :=
  comes_of_serving call hphase request
    (comes_serving answers (comes_replying_refused refused rfl))

end Exchange

/--
An outcome that a service has for a question: one that a job with it may return.
-/
def Inspector.Answers (inspector : Inspector) (tree : FileTree) (request : VerifyRequest)
    (outcome : NodeOutcome) : Prop :=
  ∃ steps, ⟨request, .returned outcome⟩ ∈
    ((Serving.start inspector.node).run inspector tree steps).jobs

theorem Inspector.Answers.decode?_encode {inspector : Inspector} {tree : FileTree}
    {request : VerifyRequest} {outcome : NodeOutcome} (h : inspector.Answers tree request outcome)
    (hlength : (Message.Outcome.encode outcome).length ≤ FrameHeader.maximumLength.toNat)
    : Message.Outcome.decode? (Message.Outcome.encode outcome) = some outcome := by
  obtain ⟨steps, returned⟩ := h
  have hfits := Message.Outcome.fits_of_length (Encode.fits_of_frame hlength)
    (Serving.meaningful_of_run returned)
  exact (Message.Outcome.reads_encode hfits).exact.whole

theorem Message.DescribeResponse.decode?_encode {desc : Option SnapshotDescriptor}
    (h : (encode desc).length ≤ FrameHeader.maximumLength.toNat)
    : decode? (encode desc) = some desc := by
  cases desc with
  | none => exact reads_none.exact.whole
  | some desc =>
    obtain ⟨fits, metafile⟩ := fits_of_length (Encode.fits_of_frame h)
    exact (reads_some fits metafile).exact.whole

/--
A job comes to the same result over a connection as in the same process: the outcome that the
service has for it. A question for a snapshot comes to what the search for the snapshot finds; when
the search stops with a fault, it comes to nothing.
-/
theorem Exchange.comes_of_dispatch {inspector : Inspector} {tree : FileTree} {host : Host}
    (describes : host.describe = Catalog.find ⟨inspector.root, inspector.node⟩ tree)
    {address : Text} (valid : HostAddress.isValid address) (node : Text) (port : UInt16)
    (timeout : Nat)
    : (∀ request, inspector.Answers tree request (host.execute request) →
        (Message.VerifyRequest.encode request).length ≤ FrameHeader.maximumLength.toNat →
        (Message.Outcome.encode (host.execute request)).length ≤ FrameHeader.maximumLength.toNat →
        ∃ call, Call.start address port (.execute request) timeout = .ok call ∧
          Comes (Step host)
            (fun exchange => exchange.result.map Call.dispatchResult =
              some (.replied (host.execute request)))
            (start call) ∧
          Comes (LocalExchange.Step host)
            (fun exchange => exchange.told = some (.replied (host.execute request)))
            (.start node request timeout)) ∧
      (∀ snapshot,
        (Message.DescribeRequest.encode snapshot).length ≤ FrameHeader.maximumLength.toNat →
        ∃ call, Call.start address port (.describe snapshot) timeout = .ok call ∧
          match Catalog.find ⟨inspector.root, inspector.node⟩ tree snapshot with
          | .ok desc =>
            (Message.DescribeResponse.encode desc).length ≤ FrameHeader.maximumLength.toNat →
              Comes (Step host) (fun exchange => exchange.result.map Call.described = some desc)
                (start call)
          | .error _ =>
            Comes (Step host) (fun exchange => exchange.result.map Call.described = some none)
              (start call)) := by
  refine ⟨?_, ?_⟩
  . intro request answers hrequest houtcome
    let call : Call := ⟨address, port, .execute request, timeout, .connecting⟩
    refine ⟨call, if_pos valid, ?_, LocalExchange.comes_start host node request timeout⟩
    have hdecode : JobReply.decode? (.execute request)
        (Message.Outcome.encode (host.execute request)) =
          some (.outcome (host.execute request)) := by
      rw [JobReply.decode?, answers.decode?_encode houtcome]
      rfl
    refine (comes_of_reply call rfl hrequest rfl houtcome hdecode).mono ?_
    intro exchange hresult
    rw [hresult]
    rfl
  . intro snapshot hrequest
    let call : Call := ⟨address, port, .describe snapshot, timeout, .connecting⟩
    refine ⟨call, if_pos valid, ?_⟩
    split
    next desc hfind =>
      intro hdesc
      have hdecode : JobReply.decode? (.describe snapshot)
          (Message.DescribeResponse.encode desc) = some (.description desc) := by
        rw [JobReply.decode?, Message.DescribeResponse.decode?_encode hdesc]
        rfl
      have hreply : host.reply? (.describe snapshot) = some (Demand.describeReply desc) := by
        rw [Host.reply?, describes, hfind]
      refine (comes_of_reply call rfl hrequest hreply hdesc hdecode).mono ?_
      intro exchange hresult
      rw [hresult]
      rfl
    next fault hfind =>
      have hnone : host.reply? (.describe snapshot) = none := by
        rw [Host.reply?, describes, hfind]
      refine (comes_of_fault call rfl hrequest hnone).mono ?_
      intro exchange hresult
      rw [hresult]
      rfl

set_option maxRecDepth 100000 in
theorem Exchange.comes_of_dispatch_single
    : let desc : SnapshotDescriptor := ⟨"s", 1, 64, ["a"], [⟨1, "g", 1, 0, ["a"]⟩]⟩
      let tree := (Layout.laySnapshot .empty desc).1
      let inspector : Inspector := ⟨"a", Layout.snapshotRoot "a"⟩
      let request : VerifyRequest := ⟨1, "s", 64, [⟨1, "g", [0, 1]⟩]⟩
      let outcome : NodeOutcome := ⟨"a", none, [⟨⟨1, 0⟩, 100, true, true, 3⟩], [], [⟨1, 1⟩], []⟩
      let host : Host :=
        ⟨fun _ => outcome, fun _ => false, Catalog.find ⟨inspector.root, inspector.node⟩ tree⟩
      let call (request : JobRequest) : Call := ⟨"127.0.0.1", 6001, request, 1000, .connecting⟩
      inspector.Answers tree request outcome ∧
        Comes (Step host)
          (fun exchange => exchange.result.map Call.dispatchResult = some (.replied outcome))
          (start (call (.execute request))) ∧
        Comes (LocalExchange.Step host) (fun exchange => exchange.told = some (.replied outcome))
          (.start "a" request 1000) ∧
        Comes (Step host) (fun exchange => exchange.result.map Call.described = some (some desc))
          (start (call (.describe "s"))) ∧
        Comes (Step host) (fun exchange => exchange.result.map Call.described = some none)
          (start (call (.describe "t"))) := by
  intro desc tree inspector request outcome host call
  let steps : List ServingStep := [.enter request, .ask 0, .ask 0, .ask 0, .release 0, .announce 0,
    .publish 0, .collect 0]
  have hjobs : ((Serving.start inspector.node).run inspector tree steps).jobs =
      [⟨request, .returned outcome⟩] := by decide +kernel
  have answers : inspector.Answers tree request outcome := by
    refine ⟨steps, ?_⟩
    rw [hjobs]
    exact List.mem_cons_self
  have valid : HostAddress.isValid "127.0.0.1" := by decide +kernel
  obtain ⟨hexecute, hdescribe⟩ := comes_of_dispatch
    (show host.describe = Catalog.find ⟨inspector.root, inspector.node⟩ tree from rfl)
    valid "a" 6001 1000
  have hstart {request : JobRequest} {other : Call}
      (h : Call.start "127.0.0.1" 6001 request 1000 = .ok other) : other = call request :=
    (Except.ok.inj ((if_pos valid).symm.trans h)).symm
  have hknown : Catalog.find ⟨inspector.root, inspector.node⟩ tree "s" = .ok (some desc) := by
    decide +kernel
  have hunknown : Catalog.find ⟨inspector.root, inspector.node⟩ tree "t" = .ok none := by
    decide +kernel
  obtain ⟨_, hcall, hover, hwithin⟩ :=
    hexecute request answers (by decide +kernel) (by decide +kernel)
  have hsearched := hdescribe "s" (by decide +kernel)
  have hmissed := hdescribe "t" (by decide +kernel)
  rw [hknown] at hsearched
  rw [hunknown] at hmissed
  obtain ⟨_, hcallKnown, hsome⟩ := hsearched
  obtain ⟨_, hcallUnknown, hnone⟩ := hmissed
  obtain rfl := hstart hcall
  obtain rfl := hstart hcallKnown
  obtain rfl := hstart hcallUnknown
  exact ⟨answers, hover, hwithin, hsome (by decide +kernel), hnone (by decide +kernel)⟩

set_option maxRecDepth 100000 in
/--
A directory stands where a node keeps its own description of a snapshot. Who asks for the snapshot
in the same process gets a fault, and who asks over a connection is told that there is none.
-/
theorem Exchange.described_of_directory
    : let inspector : Inspector := ⟨"a", Layout.snapshotRoot "a"⟩
      let tree := (FileTree.createDirectories .empty "data/a/snapshots/s/a.smf").1
      let host : Host :=
        ⟨fun request => .failedWith "a" (.single .internal request.snapshot), fun _ => false,
          Catalog.find ⟨inspector.root, inspector.node⟩ tree⟩
      Catalog.find ⟨inspector.root, inspector.node⟩ tree "s" =
          .error (.system "basic_filebuf::underflow error reading the file: Is a directory") ∧
        Comes (Step host) (fun exchange => exchange.result.map Call.described = some none)
          (start ⟨"127.0.0.1", 6001, .describe "s", 1000, .connecting⟩) := by
  intro inspector tree host
  have hfault : Catalog.find ⟨inspector.root, inspector.node⟩ tree "s" =
      .error (.system "basic_filebuf::underflow error reading the file: Is a directory") := by
    decide +kernel
  refine ⟨hfault, (comes_of_fault _ rfl ?_ ?_).mono ?_⟩
  . decide +kernel
  . change Host.reply? host (.describe "s") = none
    rw [Host.reply?, show host.describe "s" = _ from hfault]
  . intro exchange hresult
    rw [hresult]
    rfl

end SnapshotAudit
