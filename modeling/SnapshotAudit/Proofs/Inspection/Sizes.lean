import Mathlib.Algebra.BigOperators.Ring.List
import Mathlib.Data.Nat.Digits.Defs
import SnapshotAudit.Proofs.Inspection.Stages
import SnapshotAudit.Proofs.Wire.Canonical
import SnapshotAudit.Proofs.Wire.Sizes

/-!
This module contains how long the answer to a request can be, in terms of how long the request is. A
partition of four bytes in the request may come back as a record of 22 bytes, and the names in it
come back in the message of a failure.
-/

namespace SnapshotAudit

/-!
Texts that are put together.
-/

theorem Text.length_decimal_le {n : Nat} (width : Nat) (hwidth : 0 < width) (h : n < 10 ^ width)
    : (Text.decimal n).length ≤ width := by
  rw [Text.decimal, Text.digits, List.length_map]
  exact Nat.toDigits_length 10 n width hwidth h

theorem Text.length_decimal_of_u32 (v : UInt32) : (Text.decimal v.toNat).length ≤ 10 :=
  Text.length_decimal_le 10 (by decide) (Nat.lt_of_lt_of_le v.toNat_lt (by decide))

theorem Text.length_decimal_of_u64 (v : UInt64) : (Text.decimal v.toNat).length ≤ 20 :=
  Text.length_decimal_le 20 (by decide) (Nat.lt_of_lt_of_le v.toNat_lt (by decide))

theorem Text.length_hexadecimal_le {n : Nat} (h : n < 2 ^ 64)
    : (Text.hexadecimal n).length ≤ 18 := by
  rw [Text.hexadecimal, Text.digits, List.length_append, List.length_map]
  have hprefix : List.length ("0x" : Text) = 2 := by decide
  have hdigits := Nat.toDigits_length 16 n 16 (by decide) h
  omega

theorem Text.length_signed_of_i32 (v : Int32) : (Text.signed v.toInt).length ≤ 11 := by
  have hlower := v.le_toInt
  have hupper := v.toInt_lt
  cases hv : v.toInt with
  | ofNat n =>
    have hn : n < 10 ^ 10 := by
      rw [hv, Int.ofNat_eq_natCast] at hupper
      omega
    exact Nat.le_trans (Text.length_decimal_le 10 (by decide) hn) (by decide)
  | negSucc n =>
    have hn : n + 1 < 10 ^ 10 := by omega
    have hdigits := Text.length_decimal_le 10 (by decide) hn
    have hsign : List.length ("-" : Text) = 1 := by decide
    rw [Text.signed, List.length_append]
    omega

theorem Text.length_join (parts : List Text)
    : (Text.join parts).length = (parts.map List.length).sum :=
  List.length_flatten

theorem Text.length_beforeZero_le (t : Text) : t.beforeZero.length ≤ t.length :=
  (List.takeWhile_prefix _).length_le

theorem Path.length_join_le (left right : Text)
    : (Path.join left right).length ≤ left.length + 1 + right.length := by
  unfold Path.join
  split
  next => omega
  next =>
    split
    next =>
      rw [List.length_append]
      omega
    next =>
      rw [List.length_append, List.length_cons]
      omega

theorem PartitionKey.length_text_le (key : PartitionKey) : key.text.length ≤ 40 := by
  have hgroup := Text.length_signed_of_i32 key.group
  have hpartition := Text.length_decimal_of_u32 key.partition
  calc key.text.length
    _ ≤ (Text.signed key.group.toInt).length + (Text.decimal key.partition.toNat).length + 17 := by
      simp +arith +decide [PartitionKey.text]
    _ ≤ 40 := by omega

theorem PathError.length_message_le (error : PathError) : error.message.length ≤ 32 := by
  cases error <;> decide

theorem PageError.length_message_le (error : PageError) : error.message.length ≤ 80 := by
  cases error with
  | partitionTooLarge partition =>
    have hpartition := Text.length_decimal_of_u32 partition
    calc (PageError.message (.partitionTooLarge partition)).length
      _ ≤ (Text.decimal partition.toNat).length + 60 := by simp +arith +decide [message]
      _ ≤ 80 := by omega
  | tooShort index =>
    have hindex := Text.length_decimal_of_u32 index
    calc (PageError.message (.tooShort index)).length
      _ ≤ (Text.decimal index.toNat).length + 60 := by simp +arith +decide [message]
      _ ≤ 80 := by omega
  | notMeta index type =>
    have hindex := Text.length_decimal_of_u32 index
    have htype := Text.length_decimal_of_u32 type.toUInt32
    rw [UInt16.toNat_toUInt32] at htype
    calc (PageError.message (.notMeta index type)).length
      _ ≤ (Text.decimal index.toNat).length + (Text.decimal type.toNat).length + 60 := by
        simp +arith +decide [message]
      _ ≤ 80 := by omega

namespace PartitionError

def file (error : PartitionError) : Text :=
  match error with
  | pageSize path _ | partitionTooLarge path _ | unreadable path _ | empty path
  | unevenSize path _ _ | tooManyPages path | outOfRange path _ _ | shortRead path _
  | corrupt path _ _ _ _ | misplaced path _ _ _ | noMetaPage path => path
  | page _ => []

def size (error : PartitionError) : Nat :=
  match error with
  | unevenSize _ size _ => size
  | _ => 0

theorem length_message_le {error : PartitionError} (h : error.size < 2 ^ 64)
    : error.message.length ≤ error.file.length + 160 := by
  cases error with
  | pageSize path bytes =>
    have hbytes := Text.length_decimal_of_u32 bytes
    calc (message (.pageSize path bytes)).length
      _ ≤ path.length + (Text.decimal bytes.toNat).length + 100 := by simp +arith +decide [message]
      _ ≤ path.length + 160 := by omega
  | partitionTooLarge path partition =>
    have hpartition := Text.length_decimal_of_u32 partition
    calc (message (.partitionTooLarge path partition)).length
      _ ≤ path.length + (Text.decimal partition.toNat).length + 100 := by
        simp +arith +decide [message]
      _ ≤ path.length + 160 := by omega
  | unreadable path reason =>
    have hreason := reason.length_message_le
    calc (message (.unreadable path reason)).length
      _ ≤ path.length + reason.message.length + 100 := by simp +arith +decide [message]
      _ ≤ path.length + 160 := by omega
  | empty path => simp +arith +decide [message, file]
  | unevenSize path size pageBytes =>
    have hsize : (Text.decimal size).length ≤ 20 :=
      Text.length_decimal_le 20 (by decide) (Nat.lt_of_lt_of_le h (by decide))
    have hpageBytes := Text.length_decimal_of_u32 pageBytes
    calc (message (.unevenSize path size pageBytes)).length
      _ ≤ path.length + (Text.decimal size).length + (Text.decimal pageBytes.toNat).length +
          100 := by simp +arith +decide [message]
      _ ≤ path.length + 160 := by omega
  | tooManyPages path => simp +arith +decide [message, file]
  | outOfRange path index pageCount =>
    have hindex := Text.length_decimal_of_u32 index
    have hcount := Text.length_decimal_of_u32 pageCount
    calc (message (.outOfRange path index pageCount)).length
      _ ≤ path.length + (Text.decimal index.toNat).length + (Text.decimal pageCount.toNat).length +
          100 := by simp +arith +decide [message]
      _ ≤ path.length + 160 := by omega
  | shortRead path index =>
    have hindex := Text.length_decimal_of_u32 index
    calc (message (.shortRead path index)).length
      _ ≤ path.length + (Text.decimal index.toNat).length + 100 := by simp +arith +decide [message]
      _ ≤ path.length + 160 := by omega
  | corrupt path index id stored computed =>
    have hindex := Text.length_decimal_of_u32 index
    have hid := Text.length_hexadecimal_le id.bits.toNat_lt
    have hstored := Text.length_hexadecimal_le (Nat.lt_trans stored.toNat_lt (by decide))
    have hcomputed := Text.length_hexadecimal_le (Nat.lt_trans computed.toNat_lt (by decide))
    calc (message (.corrupt path index id stored computed)).length
      _ ≤ path.length + (Text.decimal index.toNat).length +
          (Text.hexadecimal id.bits.toNat).length + (Text.hexadecimal stored.toNat).length +
          (Text.hexadecimal computed.toNat).length + 90 := by simp +arith +decide [message]
      _ ≤ path.length + 160 := by omega
  | misplaced path id partition index =>
    have hid := Text.length_hexadecimal_le id.bits.toNat_lt
    have hpartition := Text.length_decimal_of_u32 partition
    have hindex := Text.length_decimal_of_u32 index
    calc (message (.misplaced path id partition index)).length
      _ ≤ path.length + (Text.hexadecimal id.bits.toNat).length +
          (Text.decimal partition.toNat).length + (Text.decimal index.toNat).length + 90 := by
        simp +arith +decide [message]
      _ ≤ path.length + 160 := by omega
  | noMetaPage path => simp +arith +decide [message, file]
  | page error =>
    have hpage := error.length_message_le
    exact Nat.le_trans hpage (by omega)

end PartitionError

theorem PartitionFile.Damaged.length_message_le {path : Text} {pageSize partition : UInt32}
    {bytes : Bytes} {cause : PartitionError} (h : Damaged path pageSize partition bytes cause)
    (small : bytes.length < 2 ^ 64) : cause.message.length ≤ path.length + 160 := by
  have hnamed : (cause.file = path ∨ cause.file = []) ∧
      (cause.size = 0 ∨ cause.size = bytes.length) := by
    cases h <;> simp [PartitionError.file, PartitionError.size]
  have hsize : cause.size < 2 ^ 64 := by
    cases hnamed.2 with
    | inl hzero => simp [hzero]
    | inr hlength => rwa [hlength]
  have hmessage := PartitionError.length_message_le hsize
  rcases hnamed.1 with hfile | hfile
  . rwa [hfile] at hmessage
  . rw [hfile, List.length_nil] at hmessage
    omega

namespace Inspector

variable {inspector : Inspector} {tree : FileTree} {request : VerifyRequest}

open Message.VerifyRequest (encode encodeGroup)

/-!
Names and paths.
-/

theorem length_metafile (node : Text) : (FileName.metafile node).length = node.length + 4 := by
  rw [FileName.metafile, List.length_append]
  rfl

theorem length_groupData : FileName.groupData.length = 14 := by
  decide

theorem length_snapshot_le (request : VerifyRequest)
    : request.snapshot.length + 20 ≤ (encode request).length := by
  rw [Message.VerifyRequest.length_encode, Encode.length_list]
  omega

theorem length_name_le {group : ExpectedGroup} (h : group ∈ request.groups)
    : request.snapshot.length + group.name.length + 28 ≤ (encode request).length := by
  have hgroup := Encode.length_element_le encodeGroup h
  rw [Message.VerifyRequest.length_encodeGroup, Encode.length_list] at hgroup
  rw [Message.VerifyRequest.length_encode]
  omega

theorem length_directory_le (inspector : Inspector) (request : VerifyRequest)
    : (inspector.directory request).length ≤
      inspector.root.length + request.snapshot.length + 1 := by
  have hjoin := Path.length_join_le inspector.root request.snapshot
  unfold directory
  omega

theorem length_metafilePath_le (inspector : Inspector) (request : VerifyRequest)
    : (inspector.metafilePath request).length ≤
      inspector.root.length + request.snapshot.length + inspector.node.length + 6 := by
  have hdirectory := inspector.length_directory_le request
  have hjoin := Path.length_join_le (inspector.directory request)
    (FileName.metafile inspector.node)
  rw [length_metafile] at hjoin
  unfold metafilePath
  omega

theorem length_groupDirectory_le (inspector : Inspector) (request : VerifyRequest)
    (group : ExpectedGroup)
    : (inspector.groupDirectory request group).length ≤
      inspector.root.length + request.snapshot.length + group.name.length + 8 := by
  have hdirectory := inspector.length_directory_le request
  have hjoin := Path.length_join_le (inspector.directory request)
    (FileName.groupDirectory group.name)
  have hname : (FileName.groupDirectory group.name).length = group.name.length + 6 := by
    rw [FileName.groupDirectory, List.length_append, Nat.add_comm]
    rfl
  unfold groupDirectory
  omega

theorem length_groupDataPath_le (inspector : Inspector) (request : VerifyRequest)
    (group : ExpectedGroup)
    : (inspector.groupDataPath request group).length ≤
      inspector.root.length + request.snapshot.length + group.name.length + 32 := by
  have hdirectory := inspector.length_groupDirectory_le request group
  have hjoin := Path.length_join_le (inspector.groupDirectory request group) FileName.groupData
  rw [length_groupData] at hjoin
  unfold groupDataPath
  omega

theorem length_partitionPath_le (inspector : Inspector) (request : VerifyRequest)
    (group : ExpectedGroup) (partition : UInt32)
    : (inspector.partitionPath request group partition).length ≤
      inspector.root.length + request.snapshot.length + group.name.length + 32 := by
  have hdirectory := inspector.length_groupDirectory_le request group
  have hjoin := Path.length_join_le (inspector.groupDirectory request group)
    (FileName.partition partition)
  have hdigits := Text.length_decimal_of_u32 partition
  have hname : (FileName.partition partition).length =
      (Text.decimal partition.toNat).length + 9 := by
    simp +arith +decide [FileName.partition]
  unfold partitionPath
  omega

/-!
Failures. What a failure says names the snapshot, the node and at most one file, and that file at
most twice.
-/

variable (inspector tree request) in
def metafileSize : Nat :=
  ((tree.read (inspector.metafilePath request)).toOption.getD []).length

theorem length_le_metafileSize {bytes : Bytes} {metadata : SnapshotMetadata}
    (read : tree.read (inspector.metafilePath request) = .ok bytes)
    (decoded : SnapshotMetadata.decode? bytes = some metadata)
    : metadata.descriptor.name.length + metadata.node.length ≤
        inspector.metafileSize tree request := by
  obtain rfl := SnapshotMetadata.canonical_encode bytes metadata decoded
  have hsize := metadata.length_encode
  simp only [metafileSize, read, Except.toOption, Option.getD_some]
  omega

def Stage.group? (stage : Stage) : Option ExpectedGroup :=
  match stage with
  | .groupData group | .partition group _ => some group
  | .directory | .metafile | .poll => none

theorem mem_groups_of_mem_stages {stage : Stage} {group : ExpectedGroup}
    (h : stage ∈ inspector.stages tree request) (hgroup : stage.group? = some group)
    : group ∈ request.groups := by
  simp only [stages, stagesOfGroups, List.mem_cons, List.mem_flatMap] at h
  rcases h with rfl | rfl | ⟨other, hother, rfl | hstage⟩
  . cases hgroup
  . cases hgroup
  . cases hgroup
  . unfold stagesOfGroup at hstage
    split at hstage
    next =>
      simp only [stagesOfPartitions, List.mem_cons, List.mem_flatMap, List.not_mem_nil,
        or_false] at hstage
      rcases hstage with rfl | ⟨p, _, rfl | rfl⟩
      . exact Option.some.inj hgroup ▸ hother
      . cases hgroup
      . exact Option.some.inj hgroup ▸ hother
    next => cases hstage

open Message.Outcome (encodeFailure encodeCause)

theorem length_encodeFailure (failure : NodeFailure)
    : (encodeFailure (some failure)).length =
      5 + (failure.causes.map fun cause => 5 + cause.message.length).sum := by
  have hcause (cause : FailureCause) : (encodeCause cause).length = 5 + cause.message.length := by
    simp [encodeCause, ← Nat.add_assoc]
  simp only [encodeFailure, List.length_append, Encode.length_flag, Encode.length_list, hcause]
  omega

theorem length_of_single {kind : FailureKind} {message : Text} {n : Nat} (h : message.length ≤ n)
    : (encodeFailure (some (.single kind message.beforeZero))).length ≤ n + 10 := by
  have hcut := message.length_beforeZero_le
  simp only [length_encodeFailure, NodeFailure.single, List.map_cons, List.map_nil, List.sum_cons,
    List.sum_nil]
  omega

theorem Violated.length_le {asked : Nat} {cancelled : Nat → Bool} {stage : Stage}
    {failure : NodeFailure}
    (small : ∀ path bytes, tree.read path = .ok bytes → bytes.length < 2 ^ 64)
    (groups : ∀ group, stage.group? = some group → group ∈ request.groups)
    (violated : inspector.Violated tree request cancelled asked stage failure)
    : (encodeFailure (some failure)).length ≤
      3 * (encode request).length + 2 * inspector.root.length + 2 * inspector.node.length +
        inspector.metafileSize tree request + 500 := by
  have hsnapshot := length_snapshot_le request
  have hmetafile := inspector.length_metafilePath_le request
  cases violated with
  | notFound absent =>
    have hdirectory := inspector.length_directory_le request
    refine Nat.le_trans (length_of_single (n := request.snapshot.length + inspector.node.length +
      (inspector.directory request).length + 100) ?_) (by omega)
    simp +arith +decide [InspectionError.message]
  | metafileUnparsable read unparsable =>
    refine Nat.le_trans (length_of_single (n := (inspector.metafilePath request).length + 100) ?_)
      (by omega)
    simp +arith +decide [InspectionError.message]
  | @metafileForeign bytes metadata read decoded foreign =>
    have hnames := length_le_metafileSize read decoded
    refine Nat.le_trans (length_of_single (n := (inspector.metafilePath request).length +
      metadata.descriptor.name.length + metadata.node.length + 100) ?_) (by omega)
    simp +arith +decide [InspectionError.message]
  | cancelled told =>
    have hjob := Text.length_decimal_of_u64 request.job
    refine Nat.le_trans (length_of_single (n := (Text.decimal request.job.toNat).length +
      inspector.node.length + 100) ?_) (by omega)
    simp +arith +decide [InspectionError.message]
  | @groupDataUnparsable group bytes read unparsable =>
    have hname := length_name_le (groups group rfl)
    have hpath := inspector.length_groupDataPath_le request group
    refine Nat.le_trans (length_of_single
      (n := (inspector.groupDataPath request group).length + 100) ?_) (by omega)
    simp +arith +decide [InspectionError.message]
  | @groupDataForeign group bytes data read decoded foreign =>
    have hname := length_name_le (groups group rfl)
    have hpath := inspector.length_groupDataPath_le request group
    have hfound := Text.length_signed_of_i32 data.id
    have hexpected := Text.length_signed_of_i32 group.id
    refine Nat.le_trans (length_of_single (n := (inspector.groupDataPath request group).length +
      (Text.signed data.id.toInt).length + (Text.signed group.id.toInt).length + 100) ?_)
      (by omega)
    simp +arith +decide [InspectionError.message]
  | @damaged group partition bytes cause read damage =>
    have hname := length_name_le (groups group rfl)
    have hpath := inspector.length_partitionPath_le request group partition
    have hkey := PartitionKey.length_text_le ⟨group.id, partition⟩
    have hinner := damage.length_message_le (small _ _ read)
    have hinnerCut := cause.message.length_beforeZero_le
    have houter : (InspectionError.message (.partition inspector.node group.name
        ⟨group.id, partition⟩ (inspector.partitionPath request group partition) cause)).length ≤
        inspector.node.length + group.name.length +
          (PartitionKey.mk group.id partition).text.length +
          (inspector.partitionPath request group partition).length + 100 := by
      simp +arith +decide [InspectionError.message]
    have houterCut := Text.length_beforeZero_le (InspectionError.message (.partition inspector.node
      group.name ⟨group.id, partition⟩ (inspector.partitionPath request group partition) cause))
    simp only [length_encodeFailure, List.map_cons, List.map_nil, List.sum_cons, List.sum_nil]
    omega

/-!
Findings. What is found in a group takes no more than six times the room of the group in the
request.
-/

def weight (outcome : NodeOutcome) : Nat :=
  22 * outcome.partitions.length + 4 * outcome.missingGroups.length +
    8 * outcome.missingPartitions.length +
    (outcome.missingMetadata.map fun missing => 9 + missing.file.length).sum

theorem length_encode_outcome (outcome : NodeOutcome)
    : (Message.Outcome.encode outcome).length =
      20 + outcome.node.length + (encodeFailure outcome.failure).length + weight outcome := by
  have hrecord (record : PartitionRecord) :
      (Message.Outcome.encodeRecord record).length = 22 := by
    simp [Message.Outcome.encodeRecord, Message.Outcome.encodeKey]
  have hkey (key : PartitionKey) : (Message.Outcome.encodeKey key).length = 8 := by
    simp [Message.Outcome.encodeKey]
  have hmissing (missing : MissingMetadata) :
      (Message.Outcome.encodeMissing missing).length = 9 + missing.file.length := by
    simp [Message.Outcome.encodeMissing]
    omega
  simp only [Message.Outcome.length_encode, Encode.length_list_of_fixed _ hrecord,
    Encode.length_list_of_fixed _ hkey, Encode.length_list_of_fixed _ Encode.length_i32,
    Encode.length_list, hmissing, weight]
  omega

theorem weight_enter (outcome : NodeOutcome) (groups : List ExpectedGroup)
    : weight (inspector.enter tree request outcome groups) = weight outcome +
      (groups.map fun group => weight (inspector.findings tree request group)).sum := by
  induction groups generalizing outcome with
  | nil => simp [enter_nil]
  | cons group rest ih =>
    have hfirst : weight (inspector.enter tree request outcome [group]) =
        weight outcome + weight (inspector.findings tree request group) := by
      simp only [weight, enter, List.map_cons, List.map_nil, List.flatMap_cons, List.flatMap_nil,
        List.append_nil, List.length_append, List.map_append, List.sum_append]
      omega
    rw [← enter_cons, ih, hfirst, List.map_cons, List.sum_cons, Nat.add_assoc]

variable (inspector tree request) in
theorem length_records_add_lacking_le (group : ExpectedGroup) (partitions : List UInt32)
    : (partitions.filterMap (inspector.recordOf? tree request group)).length +
        (partitions.filter (inspector.lacks tree request group)).length ≤ partitions.length := by
  induction partitions with
  | nil => simp
  | cons p rest ih =>
    -- what was found is not missing as well
    have hone : (inspector.recordOf? tree request group p).isSome = true →
        inspector.lacks tree request group p = false := by
      unfold recordOf? lacks
      cases inspector.checkPartition tree request group p with
      | error error => simp [Except.toOption]
      | ok found => cases found <;> simp [Except.toOption]
    rw [List.filterMap_cons, List.filter_cons, List.length_cons]
    cases hrecord : inspector.recordOf? tree request group p with
    | none =>
      dsimp only
      split
      next =>
        rw [List.length_cons]
        omega
      next => omega
    | some record =>
      rw [hone (by rw [hrecord]; rfl)]
      simp only [List.length_cons, Bool.false_eq_true, if_false]
      omega

variable (inspector tree request) in
theorem sum_missing_groupData_le (group : ExpectedGroup)
    : (((inspector.checkGroupData tree request group).toOption.getD []).map
        fun missing => 9 + missing.file.length).sum ≤ 23 := by
  unfold checkGroupData
  dsimp only
  split
  next => simp [Except.toOption, length_groupData]
  next =>
    split
    next => simp [Except.toOption]
    next => split <;> simp [Except.toOption]

theorem weight_findings_le (group : ExpectedGroup)
    : weight (inspector.findings tree request group) ≤ 6 * (encodeGroup group).length := by
  have hgroup : (encodeGroup group).length =
      12 + group.name.length + 4 * group.partitions.length := by
    rw [Message.VerifyRequest.length_encodeGroup, Encode.length_list_of_fixed _ Encode.length_u32]
    omega
  unfold findings
  dsimp only
  split
  next =>
    have hparts := inspector.length_records_add_lacking_le tree request group group.partitions
    have hdata := inspector.sum_missing_groupData_le tree request group
    simp only [weight, NodeOutcome.blank, List.length_map, List.length_nil]
    omega
  next =>
    simp only [weight, NodeOutcome.blank, List.length_nil, List.length_cons, List.map_nil,
      List.sum_nil]
    omega

theorem sum_missing_metafile_le {missing : List MissingMetadata}
    (h : inspector.checkMetafile tree request = .ok missing)
    : (missing.map fun missing => 9 + missing.file.length).sum ≤ inspector.node.length + 13 := by
  unfold checkMetafile at h
  dsimp only at h
  split at h
  next =>
    cases h
    simp only [List.map_cons, List.map_nil, List.sum_cons, List.sum_nil, length_metafile]
    omega
  next =>
    split at h
    next => cases h
    next =>
      split at h
      next => cases h
      next =>
        cases h
        simp

variable (inspector request) in
theorem length_encode_inspect (small : ∀ path bytes, tree.read path = .ok bytes →
      bytes.length < 2 ^ 64) (cancelled : Nat → Bool)
    : (Message.Outcome.encode (inspector.inspect tree request cancelled).1.outcome).length ≤
      6 * (encode request).length + 2 * inspector.root.length + 3 * inspector.node.length +
        inspector.metafileSize tree request + 520 := by
  cases hfailure : (inspector.inspect tree request cancelled).1.outcome.failure with
  | none =>
    obtain ⟨missing, _, hmissing, _, houtcome⟩ := inspect_ok hfailure
    have hstart : weight { NodeOutcome.blank inspector.node with missingMetadata := missing } ≤
        inspector.node.length + 13 := by
      simpa [weight, NodeOutcome.blank] using sum_missing_metafile_le hmissing
    have hgroups : (request.groups.map fun group =>
        weight (inspector.findings tree request group)).sum ≤
        (request.groups.map fun group => 6 * (encodeGroup group).length).sum :=
      List.sum_le_sum fun group _ => weight_findings_le group
    rw [List.sum_map_mul_left] at hgroups
    rw [length_encode_outcome, hfailure, houtcome, weight_enter,
      Message.VerifyRequest.length_encode, Encode.length_list]
    simp only [enter, NodeOutcome.blank, encodeFailure, Encode.length_flag] at hstart ⊢
    omega
  | some failure =>
    obtain ⟨before, stage, after, hstages, _, violated⟩ := failure_eq_some_iff.mp hfailure
    have hstage : stage ∈ inspector.stages tree request := by simp [hstages]
    have hlength := violated.length_le small fun group => mem_groups_of_mem_stages hstage
    rw [outcome_of_failure hfailure, length_encode_outcome]
    simp only [NodeOutcome.failedWith, NodeOutcome.blank, weight, List.length_nil, List.map_nil,
      List.sum_nil]
    omega

end Inspector

end SnapshotAudit
