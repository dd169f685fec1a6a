import SnapshotAudit.Proofs.Wire.Reading
import SnapshotAudit.Wire.Message

/-!
This module contains that every message and every file that describes a snapshot is read back as it
was written, and that none of them is accepted when its end is missing or when anything follows it.
For a file with a checksum this does not depend on the checksum: what stands in front of it is cut
short or extended as well.
-/

namespace SnapshotAudit

open Decoder

/-!
Files that are sealed with a checksum.
-/

namespace Metafile

@[simp]
theorem length_sealed (content : Bytes) : (sealed content).length = content.length + 4 := by
  simp [sealed, Encode.u32]

theorem unsealed?_sealed (content : Bytes) : unsealed? (sealed content) = some content := by
  have hcrc : ofBigEndian (bigEndian 4 (crc32 content).toNat) = (crc32 content).toNat := by
    rw [ofBigEndian_bigEndian]
    exact Nat.mod_eq_of_lt (crc32 content).toNat_lt
  simp [unsealed?, sealed, Encode.u32, hcrc]

theorem eq_take_of_unsealed? {file content : Bytes} (h : unsealed? file = some content)
    : 4 ≤ file.length ∧ content = file.take (file.length - 4) := by
  unfold unsealed? at h
  split at h
  next hlength =>
    dsimp only at h
    split at h
    next => exact ⟨hlength, (Option.some.inj h).symm⟩
    next => cases h
  next => cases h

theorem take_of_cut {front missing content : Bytes} (h : front ++ missing = sealed content)
    (hmissing : missing ≠ []) (hlength : 4 ≤ front.length)
    : ∃ lost, lost ≠ [] ∧ front.take (front.length - 4) ++ lost = content := by
  have hmissing := List.length_pos_iff.mpr hmissing
  have htotal : front.length + missing.length = content.length + 4 := by
    rw [← length_sealed, ← h, List.length_append]
  refine ⟨content.drop (front.length - 4), ?_, ?_⟩
  . rw [ne_eq, List.drop_eq_nil_iff]
    omega
  . have hfront : front.take (front.length - 4) = content.take (front.length - 4) := by
      calc front.take (front.length - 4)
        _ = (front ++ missing).take (front.length - 4) :=
          (List.take_append_of_le_length (by omega)).symm
        _ = (sealed content).take (front.length - 4) := by rw [h]
        _ = content.take (front.length - 4) := List.take_append_of_le_length (by omega)
    rw [hfront, List.take_append_drop]

theorem take_of_extended (content : Bytes) {more : Bytes} (hmore : more ≠ [])
    : ∃ gained, gained ≠ [] ∧
      (sealed content ++ more).take ((sealed content ++ more).length - 4) = content ++ gained := by
  have hmore := List.length_pos_iff.mpr hmore
  refine ⟨(Encode.u32 (crc32 content) ++ more).take more.length, ?_, ?_⟩
  . rw [ne_eq, List.take_eq_nil_iff, List.append_eq_nil_iff]
    rintro (hnone | ⟨_, rfl⟩)
    . omega
    . simp at hmore
  . have hlength : (sealed content ++ more).length - 4 = content.length + more.length := by
      rw [List.length_append, length_sealed]
      omega
    rw [hlength, sealed, List.append_assoc, List.take_length_add_append]

/--
What is written in front of a checksum is read back, whatever the checksums of other contents are.
-/
theorem exact_sealed {α : Type} {decoder : Decoder α} {content : Bytes} {v : α}
    (h : decoder.Reads content v)
    : Exact (fun file => do decoder.all (← unsealed? file)) (sealed content) v where
  whole := by
    simp [unsealed?_sealed, h.exact.whole]
  cut front missing hfront hmissing := by
    cases hunsealed : unsealed? front with
    | none => rfl
    | some found =>
      obtain ⟨hlength, rfl⟩ := eq_take_of_unsealed? hunsealed
      obtain ⟨lost, hlost, heq⟩ := take_of_cut hfront hmissing hlength
      exact h.exact.cut _ lost heq hlost
  extended more hmore := by
    cases hunsealed : unsealed? (sealed content ++ more) with
    | none => rfl
    | some found =>
      obtain ⟨_, rfl⟩ := eq_take_of_unsealed? hunsealed
      obtain ⟨gained, hgained, heq⟩ := take_of_extended content hmore
      rw [heq]
      exact h.exact.extended gained hgained

end Metafile

/-!
What a snapshot consists of, and the two files that describe it.
-/

namespace SnapshotMetadata

structure Fits (metadata : SnapshotMetadata) : Prop where
  name : Encode.Fits metadata.descriptor.name.length
  node : Encode.Fits metadata.node.length
  baseline : Encode.Fits metadata.descriptor.baseline.length
  members : ∀ id ∈ metadata.descriptor.baseline, Encode.Fits id.length
  groups : Encode.Fits metadata.descriptor.groups.length
  names : ∀ group ∈ metadata.descriptor.groups, Encode.Fits group.name.length
  nodeFilters : ∀ group ∈ metadata.descriptor.groups, Encode.Fits group.nodeFilter.length
  admitted : ∀ group ∈ metadata.descriptor.groups, ∀ id ∈ group.nodeFilter, Encode.Fits id.length

theorem reads_group {group : GroupDescriptor} (name : Encode.Fits group.name.length)
    (nodeFilter : Encode.Fits group.nodeFilter.length)
    (admitted : ∀ id ∈ group.nodeFilter, Encode.Fits id.length)
    : groupDecoder.Reads (encodeGroup group) group := by
  simp only [encodeGroup, List.append_assoc]
  refine (reads_i32 group.id).bind ?_
  refine (reads_text name).bind ?_
  refine (reads_u32 group.partitions).bind ?_
  refine (reads_u32 group.backups).bind ?_
  exact (reads_list nodeFilter fun id hid => reads_text (admitted id hid)).return

theorem reads_content {metadata : SnapshotMetadata} (h : metadata.Fits)
    : contentDecoder.Reads metadata.content metadata := by
  simp only [content, List.append_assoc]
  refine (reads_u32 Metafile.snapshotMagic).bind ?_
  refine Reads.bind (Reads.require (by simp)) ?_
  refine (reads_u16 Metafile.version).bind ?_
  refine Reads.bind (Reads.require (by simp)) ?_
  refine (reads_text h.name).bind ?_
  refine (reads_text h.node).bind ?_
  refine (reads_u64 metadata.descriptor.epoch).bind ?_
  refine (reads_u32 metadata.descriptor.pageSize).bind ?_
  refine (reads_list h.baseline fun id hid => reads_text (h.members id hid)).bind ?_
  exact (reads_list h.groups fun group hgroup => reads_group (h.names group hgroup)
    (h.nodeFilters group hgroup) (h.admitted group hgroup)).return

theorem exact_encode {metadata : SnapshotMetadata} (h : metadata.Fits)
    : Exact decode? metadata.encode metadata :=
  Metafile.exact_sealed (reads_content h)

end SnapshotMetadata

namespace GroupData

theorem reads_content {data : GroupData} (name : Encode.Fits data.name.length)
    : contentDecoder.Reads data.content data := by
  simp only [content, List.append_assoc]
  refine (reads_u32 Metafile.groupMagic).bind ?_
  refine Reads.bind (Reads.require (by simp)) ?_
  refine (reads_u16 Metafile.version).bind ?_
  refine Reads.bind (Reads.require (by simp)) ?_
  refine (reads_i32 data.id).bind ?_
  refine (reads_text name).bind ?_
  refine (reads_u32 data.partitions).bind ?_
  exact (reads_u32 data.backups).return

theorem exact_encode {data : GroupData} (name : Encode.Fits data.name.length)
    : Exact decode? data.encode data :=
  Metafile.exact_sealed (reads_content name)

end GroupData

namespace Message

/-!
The question of a check.
-/

namespace VerifyRequest

structure Fits (request : SnapshotAudit.VerifyRequest) : Prop where
  snapshot : Encode.Fits request.snapshot.length
  groups : Encode.Fits request.groups.length
  names : ∀ group ∈ request.groups, Encode.Fits group.name.length
  partitions : ∀ group ∈ request.groups, Encode.Fits group.partitions.length

theorem reads_group {group : ExpectedGroup} (name : Encode.Fits group.name.length)
    (partitions : Encode.Fits group.partitions.length)
    : groupDecoder.Reads (encodeGroup group) group := by
  simp only [encodeGroup, List.append_assoc]
  refine (reads_i32 group.id).bind ?_
  refine (reads_text name).bind ?_
  exact (reads_list partitions fun p _ => reads_u32 p).return

theorem reads_encode {request : SnapshotAudit.VerifyRequest} (h : Fits request)
    : decoder.Reads (encode request) request := by
  simp only [encode, List.append_assoc]
  refine (reads_u64 request.job).bind ?_
  refine (reads_text h.snapshot).bind ?_
  refine (reads_u32 request.pageSize).bind ?_
  exact (reads_list h.groups fun group hgroup =>
    reads_group (h.names group hgroup) (h.partitions group hgroup)).return

end VerifyRequest

/-!
The answer of a node.
-/

namespace Outcome

structure Fits (outcome : NodeOutcome) : Prop where
  node : Encode.Fits outcome.node.length
  causes : ∀ failure, outcome.failure = some failure → Encode.Fits failure.causes.length
  kinds : ∀ failure, outcome.failure = some failure → ∀ cause ∈ failure.causes,
    1 ≤ cause.kind.code ∧ cause.kind.code ≤ 10
  messages : ∀ failure, outcome.failure = some failure → ∀ cause ∈ failure.causes,
    Encode.Fits cause.message.length
  partitions : Encode.Fits outcome.partitions.length
  missingGroups : Encode.Fits outcome.missingGroups.length
  missingPartitions : Encode.Fits outcome.missingPartitions.length
  missingMetadata : Encode.Fits outcome.missingMetadata.length
  files : ∀ missing ∈ outcome.missingMetadata, Encode.Fits missing.file.length

theorem reads_kind {kind : FailureKind} (h : 1 ≤ kind.code ∧ kind.code ≤ 10)
    : kindDecoder.Reads (Encode.u8 kind.code) kind := by
  rw [← List.append_nil (Encode.u8 kind.code)]
  exact (reads_u8 kind.code).bind (Reads.lift (FailureKind.ofCode?_code h))

theorem reads_cause {cause : FailureCause} (kind : 1 ≤ cause.kind.code ∧ cause.kind.code ≤ 10)
    (message : Encode.Fits cause.message.length)
    : causeDecoder.Reads (encodeCause cause) cause := by
  refine (reads_kind kind).bind ?_
  exact (reads_text message).return

theorem reads_failure {outcome : NodeOutcome} (h : Fits outcome)
    : failureDecoder.Reads (encodeFailure outcome.failure) outcome.failure := by
  cases hfailure : outcome.failure with
  | none =>
    rw [encodeFailure, ← List.append_nil (Encode.flag false)]
    exact (reads_flag false).bind (Reads.pure none)
  | some failure =>
    refine (reads_flag true).bind ?_
    exact (reads_list (h.causes failure hfailure) fun cause hcause =>
      reads_cause (h.kinds failure hfailure cause hcause)
        (h.messages failure hfailure cause hcause)).return

theorem reads_key (key : PartitionKey) : keyDecoder.Reads (encodeKey key) key := by
  refine (reads_i32 key.group).bind ?_
  exact (reads_u32 key.partition).return

theorem reads_record (record : PartitionRecord)
    : recordDecoder.Reads (encodeRecord record) record := by
  simp only [encodeRecord, List.append_assoc]
  refine (reads_key record.key).bind ?_
  refine (reads_u64 record.counter).bind ?_
  refine (reads_flag record.crcOk).bind ?_
  refine (reads_flag record.present).bind ?_
  exact (reads_u32 record.pages).return

theorem reads_missing {missing : MissingMetadata} (file : Encode.Fits missing.file.length)
    : missingDecoder.Reads (encodeMissing missing) missing := by
  have hread : missingDecoder.Reads (encodeMissing missing)
      ⟨if missing.group.isSome then some (missing.group.getD 0) else none, missing.file⟩ := by
    simp only [encodeMissing, List.append_assoc]
    refine (reads_flag missing.group.isSome).bind ?_
    refine (reads_i32 (missing.group.getD 0)).bind ?_
    exact (reads_text file).return
  -- without a group the zero in its place says nothing
  obtain ⟨group, name⟩ := missing
  cases group <;> exact hread

theorem reads_encode {outcome : NodeOutcome} (h : Fits outcome)
    : decoder.Reads (encode outcome) outcome := by
  simp only [encode, List.append_assoc]
  refine (reads_text h.node).bind ?_
  refine (reads_failure h).bind ?_
  refine (reads_list h.partitions fun record _ => reads_record record).bind ?_
  refine (reads_list h.missingGroups fun group _ => reads_i32 group).bind ?_
  refine (reads_list h.missingPartitions fun key _ => reads_key key).bind ?_
  exact (reads_list h.missingMetadata fun missing hmissing =>
    reads_missing (h.files missing hmissing)).return

end Outcome

/-!
The description of a snapshot.
-/

namespace DescribeResponse

theorem reads_none : decoder.Reads (encode none) none := by
  rw [encode, ← List.append_nil (Encode.flag false)]
  exact (reads_flag false).bind (Reads.pure none)

theorem reads_some {desc : SnapshotDescriptor} (fits : SnapshotMetadata.Fits ⟨desc, []⟩)
    (metafile : Encode.Fits (SnapshotMetadata.encode ⟨desc, []⟩).length)
    : decoder.Reads (encode (some desc)) (some desc) := by
  refine (reads_flag true).bind ?_
  rw [← List.append_nil (Encode.text _)]
  refine (reads_text metafile).bind ?_
  exact (Reads.lift (SnapshotMetadata.exact_encode fits).whole).return

end DescribeResponse

end Message

/-!
The envelope of a message.
-/

namespace FrameHeader

theorem reads_encode (header : FrameHeader) : decoder.Reads header.encode header := by
  simp only [encode, List.append_assoc]
  refine (reads_u16 header.magic).bind ?_
  refine (reads_u8 header.version).bind ?_
  refine (reads_u8 header.type).bind ?_
  refine (reads_u32 header.length).bind ?_
  exact (reads_u32 header.crc).return

@[simp]
theorem length_encode (header : FrameHeader) : header.encode.length = size := by
  simp [encode, Encode.u16, Encode.u8, Encode.u32, size]

/--
What a receiver makes of a frame: it takes the header from the first bytes, accepts it, knows the
type of the message, and finds that the rest is the body.
-/
structure Received (type : MessageType) (body frame : Bytes) (header : FrameHeader) : Prop where
  decoded : decoder.all (frame.take size) = some header
  accepted : header.accepted = true
  type_eq : MessageType.ofCode? header.type = some type
  body_eq : frame.drop size = body
  matched : header.matchesBody (frame.drop size) = true

theorem decoded_encodeFrame (type : UInt8) (body : Bytes)
    : decoder.all ((encodeFrame type body).take size) = some (ofBody type body) := by
  have hsize : (ofBody type body).encode.length = size := length_encode _
  rw [encodeFrame, ← hsize, List.take_left]
  exact (reads_encode _).exact.whole

theorem drop_encodeFrame (type : UInt8) (body : Bytes)
    : (encodeFrame type body).drop size = body := by
  have hsize : (ofBody type body).encode.length = size := length_encode _
  rw [encodeFrame, ← hsize, List.drop_left]

theorem received_encodeFrame (type : MessageType) {body : Bytes}
    (h : body.length ≤ maximumLength.toNat)
    : Received type body (encodeFrame type.code body) (ofBody type.code body) := by
  have hlength : body.length.toUInt32.toNat = body.length := by
    have : maximumLength.toNat = 67108864 := by decide
    simp only [Nat.toUInt32_eq, UInt32.toNat_ofNat']
    omega
  have hdrop := drop_encodeFrame type.code body
  refine ⟨decoded_encodeFrame type.code body, ?_, MessageType.ofCode?_code type, hdrop, ?_⟩
  . simp [FrameHeader.accepted, ofBody, UInt32.le_iff_toNat_le, hlength, h]
  . rw [hdrop]
    simp [matchesBody, ofBody, hlength]

end FrameHeader

/--
Whatever is sent or stored is read back, and nothing that was cut short or extended is: requests and
outcomes of checks, cancellations and their answers, errors, questions for a snapshot and
descriptions of one, the metafile of a node and the data file of a cache group. A frame that is not
too long brings the type and the body of its message to the receiver.
-/
theorem exact_of_fits
    : (∀ request, Message.VerifyRequest.Fits request →
        Exact Message.VerifyRequest.decode? (Message.VerifyRequest.encode request) request) ∧
      (∀ outcome, Message.Outcome.Fits outcome →
        Exact Message.Outcome.decode? (Message.Outcome.encode outcome) outcome) ∧
      (∀ job, Exact Message.CancelRequest.decode? (Message.CancelRequest.encode job) job) ∧
      (∀ wasPending, Exact Message.CancelAck.decode? (Message.CancelAck.encode wasPending)
        wasPending) ∧
      (∀ message : Text, Encode.Fits message.length →
        Exact Message.Error.decode? (Message.Error.encode message) message) ∧
      (∀ snapshot : Text, Encode.Fits snapshot.length →
        Exact Message.DescribeRequest.decode? (Message.DescribeRequest.encode snapshot) snapshot) ∧
      (∀ desc : Option SnapshotDescriptor, (∀ found, desc = some found →
          SnapshotMetadata.Fits ⟨found, []⟩ ∧
          Encode.Fits (SnapshotMetadata.encode ⟨found, []⟩).length) →
        Exact Message.DescribeResponse.decode? (Message.DescribeResponse.encode desc) desc) ∧
      (∀ metadata, SnapshotMetadata.Fits metadata →
        Exact SnapshotMetadata.decode? (SnapshotMetadata.encode metadata) metadata) ∧
      (∀ data : GroupData, Encode.Fits data.name.length →
        Exact GroupData.decode? (GroupData.encode data) data) ∧
      (∀ (type : MessageType) (body : Bytes), body.length ≤ FrameHeader.maximumLength.toNat →
        ∃ header, FrameHeader.Received type body (encodeFrame type.code body) header) := by
  refine ⟨?_, ?_, ?_, ?_, ?_, ?_, ?_, ?_, ?_, ?_⟩
  . exact fun request fits => (Message.VerifyRequest.reads_encode fits).exact
  . exact fun outcome fits => (Message.Outcome.reads_encode fits).exact
  . exact fun job => (reads_u64 job).exact
  . exact fun wasPending => (reads_flag wasPending).exact
  . exact fun message fits => (reads_text fits).exact
  . exact fun snapshot fits => (reads_text fits).exact
  . intro desc fits
    cases desc with
    | none => exact Message.DescribeResponse.reads_none.exact
    | some found =>
      obtain ⟨fits, metafile⟩ := fits found rfl
      exact (Message.DescribeResponse.reads_some fits metafile).exact
  . exact fun metadata fits => SnapshotMetadata.exact_encode fits
  . exact fun data fits => GroupData.exact_encode fits
  . exact fun type body hbody => ⟨_, FrameHeader.received_encodeFrame type hbody⟩

theorem exact_of_fits_sample
    : let outcome : NodeOutcome := ⟨"a", some ⟨[⟨.corruptPage, "page 3"⟩]⟩,
        [⟨⟨7, 0⟩, 100, false, true, 3⟩], [-1], [⟨7, 1⟩], [⟨none, "a.smf"⟩, ⟨some 7, "data"⟩]⟩
      let desc : SnapshotDescriptor := ⟨"s", 1, 64, ["a", "b"], [⟨7, "g", 2, 1, ["a"]⟩]⟩
      Message.Outcome.Fits outcome ∧
        Exact Message.Outcome.decode? (Message.Outcome.encode outcome) outcome ∧
        Exact Message.DescribeResponse.decode? (Message.DescribeResponse.encode (some desc))
          (some desc) ∧
        ∃ header, FrameHeader.Received .verifyResponse (Message.Outcome.encode outcome)
          (encodeFrame 2 (Message.Outcome.encode outcome)) header := by
  intro outcome desc
  obtain ⟨_, houtcome, _, _, _, _, hdescribe, _, _, hframe⟩ := exact_of_fits
  have hfits : Message.Outcome.Fits outcome := by
    refine ⟨by decide, ?_, ?_, ?_, by decide, by decide, by decide, by decide, by decide⟩
    . rintro _ ⟨⟩
      decide
    . rintro _ ⟨⟩
      decide
    . rintro _ ⟨⟩
      decide
  have hmetadata : SnapshotMetadata.Fits ⟨desc, []⟩ :=
    ⟨by decide, by decide, by decide, by decide, by decide, by decide, by decide, by decide⟩
  refine ⟨hfits, houtcome outcome hfits, hdescribe (some desc) ?_, ?_⟩
  . rintro _ ⟨⟩
    exact ⟨hmetadata, by decide +kernel⟩
  . exact hframe .verifyResponse (Message.Outcome.encode outcome) (by decide +kernel)

end SnapshotAudit
