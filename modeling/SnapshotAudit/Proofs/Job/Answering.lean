import SnapshotAudit.Proofs.Inspection.Sizes
import SnapshotAudit.Proofs.Job.Dispatch
import SnapshotAudit.Proofs.Job.Reading
import SnapshotAudit.Proofs.Layout.Snapshot

/-!
This module contains whose questions get an answer that can be read. A node sends whatever it has to
say, and the one who asked refuses a body that is longer than a frame may have: the answer is read
exactly when it is short enough, and it is short enough when the request is.
-/

namespace SnapshotAudit

/-!
The frame of an answer, as its receiver sees it.
-/

def ReadsOutcome (reply : Bytes) (outcome : NodeOutcome) : Prop :=
  ∃ header, FrameHeader.decoder.all (reply.take FrameHeader.size) = some header ∧
    header.accepted = true ∧ header.matchesBody (reply.drop FrameHeader.size) = true ∧
    Message.Outcome.decode? (reply.drop FrameHeader.size) = some outcome

theorem FrameHeader.length_of_matchesBody {body : Bytes} {header : FrameHeader}
    (accepted : header.accepted = true) (matched : header.matchesBody body = true)
    : body.length ≤ maximumLength.toNat := by
  simp only [FrameHeader.accepted, Bool.and_eq_true, decide_eq_true_eq,
    UInt32.le_iff_toNat_le] at accepted
  simp only [matchesBody, Bool.and_eq_true, decide_eq_true_eq] at matched
  rw [matched.1]
  exact accepted.2

theorem FrameHeader.refused_of_long {type : UInt8} {body : Bytes}
    (long : maximumLength.toNat < body.length) (word : body.length < UInt32.size)
    : (ofBody type body).accepted = false := by
  have hlength : (ofBody type body).length.toNat = body.length := UInt32.toNat_ofNat_of_lt' word
  have hlong : ¬(ofBody type body).length ≤ maximumLength := by
    rw [UInt32.le_iff_toNat_le, hlength]
    omega
  simp [FrameHeader.accepted, hlong]

namespace Inspector

variable {inspector : Inspector} {tree : FileTree} {request : VerifyRequest}
variable {outcome : NodeOutcome}

theorem Answers.readsOutcome_iff (answers : inspector.Answers tree request outcome)
    (found : NodeOutcome)
    : ReadsOutcome (Demand.verifyReply outcome) found ↔
      found = outcome ∧
        (Message.Outcome.encode outcome).length ≤ FrameHeader.maximumLength.toNat := by
  have hbody : (Demand.verifyReply outcome).drop FrameHeader.size =
      Message.Outcome.encode outcome := FrameHeader.drop_encodeFrame ..
  constructor
  . rintro ⟨header, _, accepted, matched, decodes⟩
    rw [hbody] at matched decodes
    have hlength := FrameHeader.length_of_matchesBody accepted matched
    rw [answers.decode?_encode hlength] at decodes
    exact ⟨(Option.some.inj decodes).symm, hlength⟩
  . rintro ⟨rfl, hlength⟩
    have received := FrameHeader.received_encodeFrame .verifyResponse hlength
    refine ⟨_, received.decoded, received.accepted, received.matched, ?_⟩
    rw [hbody]
    exact answers.decode?_encode hlength

/-!
How long an answer can be.
-/

theorem length_encode_cancelledOutcome {service : VerifyService} {job : UInt64}
    (refused : Serving.SaysCancelled service job outcome)
    : (Message.Outcome.encode outcome).length ≤ 2 * service.node.length + 200 := by
  obtain ⟨moment, hmoment, rfl⟩ := refused
  have hjob := Text.length_decimal_of_u64 job
  have hshort : moment.utf8ByteSize ≤ 20 := by rcases hmoment with rfl | rfl | rfl <;> decide
  rw [length_encode_outcome]
  simp only [VerifyService.cancelledOutcome, NodeOutcome.failedWith, NodeOutcome.blank, weight,
    length_encodeFailure, NodeFailure.single, List.map_cons, List.map_nil, List.sum_cons,
    List.sum_nil, List.length_nil]
  calc 20 + service.node.length +
      (5 + (5 + (Text.join ["Snapshot check job ", .decimal job.toNat, " was cancelled ", moment,
        " on node ", service.node]).length + 0)) + (22 * 0 + 4 * 0 + 8 * 0 + 0)
    _ ≤ (Text.decimal job.toNat).length + moment.utf8ByteSize + 2 * service.node.length + 100 := by
      simp +arith +decide
    _ ≤ 2 * service.node.length + 200 := by omega

theorem Answers.length_le (answers : inspector.Answers tree request outcome)
    (small : ∀ path bytes, tree.read path = .ok bytes → bytes.length < 2 ^ 64)
    : (Message.Outcome.encode outcome).length ≤
      6 * (Message.VerifyRequest.encode request).length + 2 * inspector.root.length +
        3 * inspector.node.length + inspector.metafileSize tree request + 520 := by
  obtain ⟨steps, returned⟩ := answers
  rcases Serving.reported_of_run inspector tree steps returned with
    ⟨service, hnode, refused⟩ | ⟨question, told, hsame, rfl⟩
  . have hlength := length_encode_cancelledOutcome refused
    rw [hnode] at hlength
    omega
  . obtain ⟨job, snapshot, pageSize, groups⟩ := question
    obtain ⟨rfl, rfl, rfl⟩ := (VerifyRequest.sameQuestion_eq_true_iff ..).mp hsame
    have hlength := inspector.length_encode_inspect
      ⟨job, request.snapshot, request.pageSize, request.groups⟩ small
      fun n => told.getD (n - 1) false
    rw [Message.VerifyRequest.length_encode] at hlength ⊢
    exact hlength

/-!
A job that comes alone.
-/

section Alone

variable (inspector tree request)

def attended : VerifyService :=
  (((VerifyService.start inspector.node).recorded request.job).opened request).attach request.job 0

def alone (service : VerifyService) (phase : ServingPhase) : Serving :=
  ⟨service, [⟨request, phase⟩], 0⟩

theorem get?_attended
    : (attended inspector request).inspections.get? 0 =
      some ⟨request, SortedSet.add .empty request.job, none⟩ := by
  unfold attended VerifyService.attach
  dsimp only
  rw [SortedMap.get?_modify, if_pos rfl]
  unfold VerifyService.opened
  dsimp only [VerifyService.recorded, VerifyService.start]
  rw [SortedMap.get?_insert_self]
  rfl

theorem step_enter
    : (Serving.start inspector.node).step inspector tree (.enter request) =
      alone request (attended inspector request) (.inspecting 0 []) := by
  have hpending : ((VerifyService.start inspector.node).recorded request.job).pending.contains
      request.job = true := (VerifyService.contains_pending_recorded ..).mpr (.inl rfl)
  have harrive : (VerifyService.start inspector.node).arrive request =
      (attended inspector request, .owns 0) := by
    rw [VerifyService.arrive_of_unknown rfl, VerifyService.advance_of_free hpending rfl]
    rfl
  simp only [Serving.step, Serving.start, harrive]
  rfl

theorem inspection_undisturbed (n : Nat)
    : Serving.inspection inspector tree request (List.replicate n false) =
      (inspector.inspect tree request fun _ => false).1 := by
  have htold : (fun k => (List.replicate n false).getD (k - 1) false) = fun _ => false := by
    funext k
    rw [List.getD_eq_getElem?_getD, List.getElem?_replicate]
    split <;> rfl
  rw [Serving.inspection, htold]

theorem run_ask {n : Nat} (h : n ≤ (inspector.inspect tree request fun _ => false).1.polls)
    : (alone request (attended inspector request) (.inspecting 0 [])).run inspector tree
        (List.replicate n (.ask 0)) =
      alone request (attended inspector request) (.inspecting 0 (List.replicate n false)) := by
  have hgoes : (attended inspector request).stopped 0 = false := by
    rw [VerifyService.stopped, get?_attended]
    rfl
  induction n with
  | zero => rfl
  | succ n ih =>
    rw [List.replicate_succ', Serving.run, List.foldl_append]
    change Serving.step inspector tree (Serving.run inspector tree _ _) (.ask 0) = _
    rw [ih (Nat.le_of_succ_le h), List.replicate_succ']
    have hpolls : n <
        (Serving.inspection inspector tree request (List.replicate n false)).polls := by
      rw [inspection_undisturbed]
      exact h
    simp [Serving.step, Serving.act, alone, hpolls, hgoes]

end Alone

theorem answers_alone (inspector : Inspector) (tree : FileTree) (request : VerifyRequest)
    : inspector.Answers tree request
        (inspector.inspect tree request fun _ => false).1.outcome := by
  let polls := (inspector.inspect tree request fun _ => false).1.polls
  let outcome := (inspector.inspect tree request fun _ => false).1.outcome
  let released := (attended inspector request).release 0
  let published := released.publish 0 outcome
  have hinspection : Serving.inspection inspector tree request (List.replicate polls false) =
      (inspector.inspect tree request fun _ => false).1 := inspection_undisturbed ..
  have hrelease : (alone request (attended inspector request)
      (.inspecting 0 (List.replicate polls false))).step inspector tree (.release 0) =
        alone request released (.released 0 outcome) := by
    simp [Serving.step, Serving.act, alone, hinspection, released, polls, outcome]
  have hannounce : (alone request released (.released 0 outcome)).step inspector tree
      (.announce 0) = alone request released (.announced 0 outcome) := rfl
  have hpublish : (alone request released (.announced 0 outcome)).step inspector tree
      (.publish 0) = alone request published (.attached 0) := rfl
  have hresult : (published.inspections.get? 0).bind SharedInspection.result = some outcome := by
    simp only [published, released, VerifyService.publish, VerifyService.inspections_release]
    rw [SortedMap.get?_modify, if_pos rfl, get?_attended]
    rfl
  have hpending : published.pending.contains request.job = true := by
    simp only [published, released, VerifyService.publish, VerifyService.pending_release]
    rw [SortedMap.contains, attended, VerifyService.get?_pending_attach, if_pos rfl]
    rfl
  have hcollect : (alone request published (.attached 0)).step inspector tree (.collect 0) =
      alone request (published.leave request.job 0 outcome).1 (.returned outcome) := by
    simp [Serving.step, Serving.act, alone, hresult, VerifyService.leave, hpending]
  refine ⟨.enter request :: (List.replicate polls (.ask 0) ++
    [.release 0, .announce 0, .publish 0, .collect 0]), ?_⟩
  rw [Serving.run, List.foldl_cons, List.foldl_append, step_enter]
  have hasked := run_ask inspector tree request (Nat.le_refl polls)
  rw [Serving.run] at hasked
  rw [hasked, List.foldl_cons, hrelease, List.foldl_cons, hannounce, List.foldl_cons, hpublish,
    List.foldl_cons, hcollect]
  exact List.mem_singleton.mpr rfl

theorem length_of_read {n : Nat} (pos : 0 < n)
    (h : ∀ bytes ∈ tree.contents.values, bytes.length < n) {path : Text} {bytes : Bytes}
    (read : tree.read path = .ok bytes) : bytes.length < n := by
  obtain ⟨id, _, rfl⟩ := read_eq_ok_iff.mp read
  unfold FileTree.bytesOf SortedMap.getD
  cases hget : tree.contents.get? id with
  | none => exact pos
  | some bytes => exact h bytes (SortedMap.mem_values.mpr ⟨id, hget⟩)

/-!
A snapshot whose name is so long that there can be no directory for it.
-/

theorem outcome_of_absent (cancelled : Nat → Bool)
    (absent : tree.isDirectory (inspector.directory request) = false)
    : (inspector.inspect tree request cancelled).1.outcome =
      .failedWith inspector.node (.single .snapshotNotFound (InspectionError.snapshotNotFound
        request.snapshot inspector.node (inspector.directory request)).message.beforeZero) := by
  simp only [inspect, walk, absent, Bool.not_false, Bool.or_true, if_true]
  rfl

theorem length_encode_of_long (root : inspector.root = Layout.snapshotRoot inspector.node)
    (hnode : Path.IsName inspector.node) (hsnapshot : Path.IsName request.snapshot)
    (long : FileTree.maximumPath ≤ request.snapshot.length) (cancelled : Nat → Bool)
    : (Message.Outcome.encode (inspector.inspect tree request cancelled).1.outcome).length =
      2 * request.snapshot.length + 3 * inspector.node.length + 78 := by
  have hplain : Path.Plain inspector.root [Layout.base, inspector.node, FileName.snapshots] :=
    root ▸ Layout.plain_snapshotRoot hnode
  have hclean : 0 ∉ inspector.directory request := (hplain.join hsnapshot).clean
  have hlength : (inspector.directory request).length =
      request.snapshot.length + inspector.node.length + 16 := by
    rw [directory, hplain.join_eq hsnapshot, root, List.length_append, List.length_cons,
      Layout.length_snapshotRoot hnode]
    omega
  have absent : tree.isDirectory (inspector.directory request) = false := by
    apply FileTree.isDirectory_of_long
    rw [Text.beforeZero_eq_self hclean, hlength]
    omega
  have hmessage : 0 ∉ (InspectionError.snapshotNotFound request.snapshot inspector.node
      (inspector.directory request)).message := by
    simp +decide [InspectionError.message, hsnapshot.clean, hnode.clean, hclean]
  have hwords : List.length ("Snapshot \"" : Text) = 10 ∧
      List.length ("\" not found on node " : Text) = 20 ∧ List.length (": " : Text) = 2 := by
    decide
  rw [outcome_of_absent cancelled absent, length_encode_outcome, Text.beforeZero_eq_self hmessage]
  simp only [NodeOutcome.failedWith, NodeOutcome.blank, weight, length_encodeFailure,
    NodeFailure.single, InspectionError.message, Text.length_join, List.map_cons, List.map_nil,
    List.sum_cons, List.sum_nil, List.length_nil, hlength, hwords]
  omega

theorem asks_of_request
    (h : (Message.VerifyRequest.encode request).length ≤ FrameHeader.maximumLength.toNat)
    : let body := Message.VerifyRequest.encode request
      let header := FrameHeader.ofBody MessageType.verifyRequest.code body
      header.accepted = true ∧ header.Asks body (.verify request) := by
  intro body header
  have received := FrameHeader.received_encodeFrame .verifyRequest h
  have matched := received.matched
  rw [received.body_eq] at matched
  have fits := Message.VerifyRequest.fits_of_length (Encode.fits_of_frame h)
  exact ⟨received.accepted, .verify request matched rfl
    (Message.VerifyRequest.reads_encode fits).exact.whole⟩

theorem isName_replicate {n : Nat} (pos : 0 < n) : Path.IsName (List.replicate n 115) where
  nonempty := by
    rw [ne_eq, List.replicate_eq_nil_iff]
    omega
  whole hmem := absurd (List.eq_of_mem_replicate hmem) (by decide)
  clean hmem := absurd (List.eq_of_mem_replicate hmem) (by decide)

theorem length_encode_replicate (n : Nat)
    : (Message.VerifyRequest.encode ⟨1, List.replicate n 115, 64, []⟩).length = n + 20 := by
  rw [Message.VerifyRequest.length_encode, Encode.length_list, List.length_replicate,
    List.map_nil, List.sum_nil]
  omega

theorem exists_answer_replicate (tree : FileTree) {n : Nat} (long : FileTree.maximumPath ≤ n)
    : ∃ outcome, Answers ⟨"n1", Layout.snapshotRoot "n1"⟩ tree ⟨1, List.replicate n 115, 64, []⟩
        outcome ∧ (Message.Outcome.encode outcome).length = 2 * n + 84 := by
  have hpos : 0 < n := Nat.lt_of_lt_of_le (by decide) long
  have hnode : List.length ("n1" : Text) = 2 := by decide
  refine ⟨_, answers_alone .., ?_⟩
  rw [length_encode_of_long rfl (by decide) (isName_replicate hpos)
    (by rwa [List.length_replicate]), List.length_replicate, hnode]

/--
Whoever may ask is answered as far as the answer fits into a frame. The one who asked then reads the
outcome that was sent; otherwise it gives up at the header of the reply, as if the node could not be
reached. An answer fits when the request and the metafile of the node are short enough, and the
limit for a request alone does not make it so.
-/
theorem answered_of_asks {header : FrameHeader} {body : Bytes} (accepted : header.accepted = true)
    (asks : header.Asks body (.verify request)) (answers : inspector.Answers tree request outcome)
    : (∀ found, ReadsOutcome (Demand.verifyReply outcome) found ↔
        found = outcome ∧
          (Message.Outcome.encode outcome).length ≤ FrameHeader.maximumLength.toNat) ∧
      ((∀ path bytes, tree.read path = .ok bytes → bytes.length < 2 ^ 64) →
        6 * body.length + 2 * inspector.root.length + 3 * inspector.node.length +
          inspector.metafileSize tree request + 520 ≤ FrameHeader.maximumLength.toNat →
        ReadsOutcome (Demand.verifyReply outcome) outcome) ∧
      (FrameHeader.maximumLength.toNat < (Message.Outcome.encode outcome).length →
        (Message.Outcome.encode outcome).length < UInt32.size →
        ∀ (host : Host) (call : Call), host.execute request = outcome →
          call.request = .execute request → call.phase = .connecting →
          Comes (Exchange.Step host)
            (fun exchange =>
              exchange.result = some (.error (.protocol call.target "malformed reply header")))
            (.start call)) := by
  obtain ⟨hmatched, hdecodes⟩ : header.matchesBody body = true ∧
      Message.VerifyRequest.decode? body = some request := by
    cases asks with
    | verify _ matched _ decodes => exact ⟨matched, decodes⟩
  obtain rfl : Message.VerifyRequest.encode request = body :=
    Message.VerifyRequest.accepts_encode.canonical body request hdecodes
  refine ⟨answers.readsOutcome_iff, ?_, ?_⟩
  . intro small hshort
    exact (answers.readsOutcome_iff outcome).mpr
      ⟨rfl, Nat.le_trans (answers.length_le small) hshort⟩
  . intro hlong hword host call hexecute hcall hphase
    obtain ⟨address, port, asked, timeout, phase⟩ := call
    obtain rfl : asked = .execute request := hcall
    refine Exchange.comes_of_refused _ hphase
      (FrameHeader.length_of_matchesBody accepted hmatched) ?_
      (FrameHeader.refused_of_long hlong hword)
    change some (Demand.verifyReply (host.execute request)) = _
    rw [hexecute]
    rfl

theorem answered_of_asks_short_and_long
    : let inspector : Inspector := ⟨"n1", Layout.snapshotRoot "n1"⟩
      let desc : SnapshotDescriptor := ⟨"s", 1, 64, ["n1"], [⟨1, "g", 1, 0, ["n1"]⟩]⟩
      let tree := (Layout.laySnapshot .empty desc).1
      let short : VerifyRequest := ⟨1, "s", 64, [⟨1, "g", [0, 1]⟩]⟩
      let long : VerifyRequest := ⟨1, List.replicate 33554432 115, 64, []⟩
      let call : Call := ⟨"127.0.0.1", 6001, .execute long, 1000, .connecting⟩
      (∃ outcome, inspector.Answers tree short outcome ∧
          ReadsOutcome (Demand.verifyReply outcome) outcome) ∧
        ∃ outcome, inspector.Answers tree long outcome ∧
          Comes (Exchange.Step ⟨fun _ => outcome, fun _ => false, fun _ => .ok none⟩)
            (fun exchange =>
              exchange.result = some (.error (.protocol call.target "malformed reply header")))
            (.start call) := by
  intro inspector desc tree short long call
  have hmaximum : FrameHeader.maximumLength.toNat = 67108864 := by decide
  have hfiles : ∀ bytes ∈ tree.contents.values, bytes.length < 2 ^ 64 := by decide +kernel
  have hshort : (Message.VerifyRequest.encode short).length ≤ FrameHeader.maximumLength.toNat := by
    decide +kernel
  have hlong : (Message.VerifyRequest.encode long).length ≤ FrameHeader.maximumLength.toNat := by
    have hlength : (Message.VerifyRequest.encode long).length = 33554452 :=
      length_encode_replicate 33554432
    omega
  obtain ⟨acceptedShort, asksShort⟩ := asks_of_request hshort
  obtain ⟨acceptedLong, asksLong⟩ := asks_of_request hlong
  have answersShort := answers_alone inspector tree short
  obtain ⟨_, answered, _⟩ := answered_of_asks acceptedShort asksShort answersShort
  obtain ⟨outcome, answersLong, hlength⟩ :=
    exists_answer_replicate tree (n := 33554432) (by simp [FileTree.maximumPath])
  obtain ⟨_, _, refused⟩ := answered_of_asks acceptedLong asksLong answersLong
  refine ⟨⟨_, answersShort, answered ?_ (by decide +kernel)⟩, outcome, answersLong, ?_⟩
  . intro path bytes read
    exact length_of_read (by decide) hfiles read
  . exact refused (by omega) (by rw [hlength]; decide) _ _ rfl rfl rfl

/--
A request for a snapshot with a long name is accepted. The answer has the name in it twice, and
nobody can read it.
-/
theorem unread_of_long_name
    : let inspector : Inspector := ⟨"n1", Layout.snapshotRoot "n1"⟩
      let request : VerifyRequest := ⟨1, List.replicate 33554432 115, 64, []⟩
      let body := Message.VerifyRequest.encode request
      let header := FrameHeader.ofBody MessageType.verifyRequest.code body
      header.accepted = true ∧ header.Asks body (.verify request) ∧
        ∃ outcome, inspector.Answers .empty request outcome ∧
          ¬∃ found, ReadsOutcome (Demand.verifyReply outcome) found := by
  intro inspector request body header
  have hmaximum : FrameHeader.maximumLength.toNat = 67108864 := by decide
  have hrequest : (Message.VerifyRequest.encode request).length ≤
      FrameHeader.maximumLength.toNat := by
    have hlength : (Message.VerifyRequest.encode request).length = 33554452 :=
      length_encode_replicate 33554432
    omega
  obtain ⟨accepted, asks⟩ := asks_of_request hrequest
  obtain ⟨outcome, answers, hanswer⟩ :=
    exists_answer_replicate .empty (n := 33554432) (by simp [FileTree.maximumPath])
  refine ⟨accepted, asks, outcome, answers, ?_⟩
  rintro ⟨found, reads⟩
  obtain ⟨_, hlength⟩ := (answers.readsOutcome_iff found).mp reads
  omega

end Inspector

end SnapshotAudit
