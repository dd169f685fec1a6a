import SnapshotAudit.Proofs.Wire.Accepting
import SnapshotAudit.Wire.Message

/-!
This module contains that a reader accepts nothing but what is written for the value that it reads:
there is one byte string for a value, and no other stands for it. The answer of a node is the only
message in which some bytes are free, and these are told apart by their marks.
-/

namespace SnapshotAudit

open Decoder

def Canonical {α : Type} (decode? : Bytes → Option α) (encode : α → Bytes) : Prop :=
  ∀ input v, decode? input = some v → encode v = input

theorem Decoder.Accepts.canonical {α : Type} {decoder : Decoder α} {encode : α → Bytes}
    (h : decoder.Accepts fun v taken => taken = encode v) : Canonical decoder.all encode :=
  fun _ _ hread => (h.all hread).symm

/-!
Files that are sealed with a checksum.
-/

namespace Metafile

theorem eq_sealed_of_unsealed? {file content : Bytes} (h : unsealed? file = some content)
    : file = sealed content := by
  unfold unsealed? at h
  split at h
  next hlength =>
    dsimp only at h
    split at h
    next hcrc =>
      cases h
      have htrailer : Encode.u32 (crc32 (file.take (file.length - 4)))
          = file.drop (file.length - 4) := by
        have hfour : (file.drop (file.length - 4)).length = 4 := by simp; omega
        have hbytes := bigEndian_ofBigEndian (file.drop (file.length - 4))
        rwa [hfour, hcrc] at hbytes
      rw [sealed, htrailer, List.take_append_drop]
    next => cases h
  next => cases h

theorem canonical_sealed {α : Type} {decoder : Decoder α} {content : α → Bytes}
    (h : decoder.Accepts fun v taken => taken = content v)
    : Canonical (fun file => do decoder.all (← unsealed? file)) fun v => sealed (content v) := by
  intro file v hread
  obtain ⟨found, hunsealed, hfound⟩ := Option.bind_eq_some_iff.mp hread
  rw [eq_sealed_of_unsealed? hunsealed, h.all hfound]

end Metafile

namespace SnapshotMetadata

theorem accepts_group : groupDecoder.Accepts fun group taken => taken = encodeGroup group := by
  apply accepts_i32.bind
  rintro id _ rfl
  apply accepts_text.bind
  rintro name _ rfl
  apply accepts_u32.bind
  rintro partitions _ rfl
  apply accepts_u32.bind
  rintro backups _ rfl
  apply (accepts_list accepts_text).return
  rintro nodeFilter _ rfl
  simp [encodeGroup]

theorem accepts_content
    : contentDecoder.Accepts fun metadata taken => taken = metadata.content := by
  apply accepts_u32.bind
  rintro magic _ rfl
  apply (Accepts.require _).bind
  rintro _ _ ⟨hmagic, rfl⟩
  apply accepts_u16.bind
  rintro version _ rfl
  apply (Accepts.require _).bind
  rintro _ _ ⟨hversion, rfl⟩
  apply accepts_text.bind
  rintro name _ rfl
  apply accepts_text.bind
  rintro node _ rfl
  apply accepts_u64.bind
  rintro epoch _ rfl
  apply accepts_u32.bind
  rintro pageSize _ rfl
  apply (accepts_list accepts_text).bind
  rintro baseline _ rfl
  apply (accepts_list accepts_group).return
  rintro groups _ rfl
  simp [content, of_decide_eq_true hmagic, of_decide_eq_true hversion]

theorem canonical_encode : Canonical decode? encode :=
  Metafile.canonical_sealed accepts_content

end SnapshotMetadata

namespace GroupData

theorem accepts_content : contentDecoder.Accepts fun data taken => taken = data.content := by
  apply accepts_u32.bind
  rintro magic _ rfl
  apply (Accepts.require _).bind
  rintro _ _ ⟨hmagic, rfl⟩
  apply accepts_u16.bind
  rintro version _ rfl
  apply (Accepts.require _).bind
  rintro _ _ ⟨hversion, rfl⟩
  apply accepts_i32.bind
  rintro id _ rfl
  apply accepts_text.bind
  rintro name _ rfl
  apply accepts_u32.bind
  rintro partitions _ rfl
  apply accepts_u32.return
  rintro backups _ rfl
  simp [content, of_decide_eq_true hmagic, of_decide_eq_true hversion]

theorem canonical_encode : Canonical decode? encode :=
  Metafile.canonical_sealed accepts_content

end GroupData

namespace Message

namespace VerifyRequest

theorem accepts_group : groupDecoder.Accepts fun group taken => taken = encodeGroup group := by
  apply accepts_i32.bind
  rintro id _ rfl
  apply accepts_text.bind
  rintro name _ rfl
  apply (accepts_list accepts_u32).return
  rintro partitions _ rfl
  simp [encodeGroup]

theorem accepts_encode : decoder.Accepts fun request taken => taken = encode request := by
  apply accepts_u64.bind
  rintro job _ rfl
  apply accepts_text.bind
  rintro snapshot _ rfl
  apply accepts_u32.bind
  rintro pageSize _ rfl
  apply (accepts_list accepts_group).return
  rintro groups _ rfl
  simp [encode]

end VerifyRequest

/-!
The answer of a node. A flag that is raised may have been any byte but zero, and the group of a
missing file is not looked at when there is none.
-/

/--
What a byte of an answer is for: it is kept as it is, it is a flag, or it says nothing.
-/
inductive Mark where
  | kept (b : UInt8)
  | flag (raised : Bool)
  | unread
deriving DecidableEq

namespace Mark

def byte (mark : Mark) : UInt8 :=
  match mark with
  | kept b => b
  | flag raised => if raised then 1 else 0
  | unread => 0

/--
The bytes that are read as what the mark says.
-/
def Admits (mark : Mark) (b : UInt8) : Prop :=
  match mark with
  | kept same => b = same
  | flag raised => raised = (b != 0)
  | unread => True

theorem byte_kept : byte ∘ kept = id := rfl

/--
A byte that is read as what the mark says is the byte that is written, but for a raised flag that
is not one and for a byte that says nothing.
-/
theorem Admits.differ {mark : Mark} {b : UInt8} (h : mark.Admits b) (hdiffer : mark.byte ≠ b)
    : (mark = flag true ∧ b ≠ 0 ∧ b ≠ 1) ∨ mark = unread := by
  cases mark with
  | kept same => exact absurd h.symm hdiffer
  | unread => exact .inr rfl
  | flag raised =>
    cases raised with
    | false =>
      have hzero : b = 0 := by simpa [Admits] using h
      exact absurd hzero.symm hdiffer
    | true =>
      refine .inl ⟨rfl, ?_, Ne.symm hdiffer⟩
      simpa [Admits] using h

end Mark

abbrev Admitted (marks : List Mark) (taken : Bytes) : Prop :=
  List.Forall₂ Mark.Admits marks taken

section Admitted

variable {front behind : List Mark} {first second : Bytes}

theorem Admitted.kept (bs : Bytes) : Admitted (bs.map .kept) bs := by
  induction bs with
  | nil => exact .nil
  | cons b bs ih => exact .cons rfl ih

theorem Admitted.append (hfront : Admitted front first) (hbehind : Admitted behind second)
    : Admitted (front ++ behind) (first ++ second) :=
  List.rel_append hfront hbehind

theorem Admitted.unread (bs : Bytes) : Admitted (List.replicate bs.length .unread) bs := by
  induction bs with
  | nil => exact .nil
  | cons b bs ih => exact .cons trivial ih

theorem Admitted.flatten {α : Type} {marks : α → List Mark} {vs : List α} {pieces : List Bytes}
    (h : List.Forall₂ (fun v piece => Admitted (marks v) piece) vs pieces)
    : Admitted (vs.flatMap marks) pieces.flatten := by
  induction h with
  | nil => exact .nil
  | cons hfirst _ ih => exact hfirst.append ih

def marksOfList {α : Type} (marks : α → List Mark) (vs : List α) : List Mark :=
  (Encode.count vs.length).map .kept ++ vs.flatMap marks

theorem accepts_marksOfList {α : Type} {decoder : Decoder α} {marks : α → List Mark}
    (h : decoder.Accepts fun v taken => Admitted (marks v) taken)
    : (list decoder).Accepts fun vs taken => Admitted (marksOfList marks vs) taken := by
  intro input vs rest hread
  obtain ⟨_, hinput, pieces, rfl, hpieces⟩ := accepts_pieces h input vs rest hread
  exact ⟨_, hinput, (Admitted.kept _).append (Admitted.flatten hpieces)⟩

theorem byte_marksOfList {α : Type} {marks : α → List Mark} {encode : α → Bytes}
    (h : ∀ v, (marks v).map Mark.byte = encode v) (vs : List α)
    : (marksOfList marks vs).map Mark.byte = Encode.list encode vs := by
  simp [marksOfList, Encode.list, List.map_flatMap, Mark.byte_kept, h]

end Admitted

namespace Outcome

def marksOfFailure (failure : Option NodeFailure) : List Mark :=
  match failure with
  | none => [.flag false]
  | some failure => .flag true :: (Encode.list encodeCause failure.causes).map .kept

def marksOfRecord (record : PartitionRecord) : List Mark :=
  (encodeKey record.key ++ Encode.u64 record.counter).map .kept ++
    [.flag record.crcOk, .flag record.present] ++ (Encode.u32 record.pages).map .kept

def marksOfGroup (group : Option Int32) : List Mark :=
  match group with
  | none => .flag false :: List.replicate 4 .unread
  | some id => .flag true :: (Encode.i32 id).map .kept

def marksOfMissing (missing : MissingMetadata) : List Mark :=
  marksOfGroup missing.group ++ (Encode.text missing.file).map .kept

def marks (outcome : NodeOutcome) : List Mark :=
  (Encode.text outcome.node).map .kept ++ marksOfFailure outcome.failure ++
    marksOfList marksOfRecord outcome.partitions ++
    (Encode.list Encode.i32 outcome.missingGroups ++
      Encode.list encodeKey outcome.missingPartitions).map .kept ++
    marksOfList marksOfMissing outcome.missingMetadata

/-!
The bytes that are written are those of the marks.
-/

theorem byte_marksOfFailure (failure : Option NodeFailure)
    : (marksOfFailure failure).map Mark.byte = encodeFailure failure := by
  cases failure <;> simp [marksOfFailure, encodeFailure, Encode.flag, Mark.byte, Mark.byte_kept]

theorem byte_marksOfRecord (record : PartitionRecord)
    : (marksOfRecord record).map Mark.byte = encodeRecord record := by
  simp [marksOfRecord, encodeRecord, Encode.flag, Mark.byte, Mark.byte_kept]

theorem byte_marksOfGroup (group : Option Int32)
    : (marksOfGroup group).map Mark.byte
      = Encode.flag group.isSome ++ Encode.i32 (group.getD 0) := by
  cases group with
  | none => rfl
  | some id => simp [marksOfGroup, Encode.flag, Mark.byte, Mark.byte_kept]

theorem byte_marksOfMissing (missing : MissingMetadata)
    : (marksOfMissing missing).map Mark.byte = encodeMissing missing := by
  simp [marksOfMissing, encodeMissing, byte_marksOfGroup, Mark.byte_kept]

theorem byte_marks (outcome : NodeOutcome)
    : (marks outcome).map Mark.byte = encode outcome := by
  simp [marks, encode, byte_marksOfFailure, byte_marksOfList byte_marksOfRecord,
    byte_marksOfList byte_marksOfMissing, Mark.byte_kept]

/-!
The bytes that are read are admitted by the marks.
-/

theorem accepts_kind : kindDecoder.Accepts fun kind taken => taken = Encode.u8 kind.code := by
  apply accepts_u8.bind
  rintro code _ rfl
  intro input kind rest hread
  obtain ⟨taken, hinput, hkind, rfl⟩ := Accepts.lift _ input kind rest hread
  refine ⟨[], hinput, ?_⟩
  unfold FailureKind.ofCode? at hkind
  split at hkind
  next =>
    cases hkind
    simp
  next => cases hkind

theorem accepts_cause : causeDecoder.Accepts fun cause taken => taken = encodeCause cause := by
  apply accepts_kind.bind
  rintro kind _ rfl
  apply accepts_text.return
  rintro message _ rfl
  rfl

theorem accepts_failure
    : failureDecoder.Accepts fun failure taken => Admitted (marksOfFailure failure) taken := by
  apply accepts_flag.bind
  rintro raised _ ⟨b, rfl, hraised⟩
  cases raised with
  | false => exact Accepts.pure (.cons hraised .nil)
  | true =>
    apply (accepts_list accepts_cause).return
    rintro causes _ rfl
    exact .cons hraised (Admitted.kept _)

theorem accepts_key : keyDecoder.Accepts fun key taken => taken = encodeKey key := by
  apply accepts_i32.bind
  rintro group _ rfl
  apply accepts_u32.return
  rintro partition _ rfl
  rfl

theorem accepts_record
    : recordDecoder.Accepts fun record taken => Admitted (marksOfRecord record) taken := by
  apply accepts_key.bind
  rintro key _ rfl
  apply accepts_u64.bind
  rintro counter _ rfl
  apply accepts_flag.bind
  rintro crcOk _ ⟨crcByte, rfl, hcrc⟩
  apply accepts_flag.bind
  rintro present _ ⟨presentByte, rfl, hpresent⟩
  apply accepts_u32.return
  rintro pages _ rfl
  have hflags : Admitted [.flag crcOk, .flag present] [crcByte, presentByte] :=
    .cons hcrc (.cons hpresent .nil)
  have hfront := (Admitted.kept (encodeKey key ++ Encode.u64 counter)).append hflags
  simpa [marksOfRecord] using hfront.append (Admitted.kept (Encode.u32 pages))

theorem accepts_missing
    : missingDecoder.Accepts fun missing taken => Admitted (marksOfMissing missing) taken := by
  apply accepts_flag.bind
  rintro grouped _ ⟨b, rfl, hgrouped⟩
  apply accepts_i32.bind
  rintro group _ rfl
  apply accepts_text.return
  rintro file _ rfl
  have hgroup : Admitted (marksOfGroup (if grouped then some group else none))
      (b :: Encode.i32 group) := by
    cases grouped with
    | false => exact .cons hgrouped (Admitted.unread (Encode.i32 group))
    | true => exact .cons hgrouped (Admitted.kept _)
  exact hgroup.append (Admitted.kept _)

theorem accepts_marks
    : decoder.Accepts fun outcome taken => Admitted (marks outcome) taken := by
  apply accepts_text.bind
  rintro node _ rfl
  apply accepts_failure.bind
  intro failure failureBytes hfailure
  apply (accepts_marksOfList accepts_record).bind
  intro partitions partitionBytes hpartitions
  apply (accepts_list accepts_i32).bind
  rintro missingGroups _ rfl
  apply (accepts_list accepts_key).bind
  rintro missingPartitions _ rfl
  apply (accepts_marksOfList accepts_missing).return
  intro missingMetadata metadataBytes hmetadata
  have hkept := Admitted.kept
    (Encode.list Encode.i32 missingGroups ++ Encode.list encodeKey missingPartitions)
  simpa [marks] using
    (Admitted.kept (Encode.text node)).append
      (hfailure.append (hpartitions.append (hkept.append hmetadata)))

theorem differ_of_decode? {input : Bytes} {outcome : NodeOutcome}
    (h : decode? input = some outcome)
    : (encode outcome).length = input.length ∧
      ∀ (i : Nat) (b : UInt8), input[i]? = some b → (encode outcome)[i]? ≠ some b →
        ((marks outcome)[i]? = some (Mark.flag true) ∧ b ≠ 0 ∧ b ≠ 1) ∨
          (marks outcome)[i]? = some Mark.unread := by
  have hadmitted : Admitted (marks outcome) input := accepts_marks.all h
  have hlength := hadmitted.length_eq
  refine ⟨by rw [← byte_marks, List.length_map, hlength], ?_⟩
  intro i b hb hdiffer
  obtain ⟨hi, rfl⟩ := List.getElem?_eq_some_iff.mp hb
  have hmark : i < (marks outcome).length := by omega
  have hadmits : (marks outcome)[i].Admits input[i] := by
    simpa using hadmitted.get hmark hi
  rw [← byte_marks, List.getElem?_map, List.getElem?_eq_getElem hmark] at hdiffer
  rw [List.getElem?_eq_getElem hmark]
  simpa using hadmits.differ (by simpa using hdiffer)

end Outcome

end Message

/--
Readers accept nothing but what their format writes. A request, a cancellation, an error, a question
for a snapshot and the two files that describe a snapshot are the bytes that are written for them,
so that no two byte strings stand for one value. The answer of a node is as long as what is written
for it and the same but for flags and for what says nothing.
-/
theorem canonical_of_decode
    : Canonical Message.VerifyRequest.decode? Message.VerifyRequest.encode ∧
      Canonical Message.CancelRequest.decode? Message.CancelRequest.encode ∧
      Canonical Message.Error.decode? Message.Error.encode ∧
      Canonical Message.DescribeRequest.decode? Message.DescribeRequest.encode ∧
      Canonical SnapshotMetadata.decode? SnapshotMetadata.encode ∧
      Canonical GroupData.decode? GroupData.encode ∧
      ∀ input outcome, Message.Outcome.decode? input = some outcome →
        (Message.Outcome.marks outcome).map Message.Mark.byte = Message.Outcome.encode outcome ∧
        (Message.Outcome.encode outcome).length = input.length ∧
        ∀ (i : Nat) (b : UInt8), input[i]? = some b →
          (Message.Outcome.encode outcome)[i]? ≠ some b →
          ((Message.Outcome.marks outcome)[i]? = some (Message.Mark.flag true) ∧ b ≠ 0 ∧ b ≠ 1) ∨
            (Message.Outcome.marks outcome)[i]? = some Message.Mark.unread := by
  refine ⟨?_, ?_, ?_, ?_, ?_, ?_, ?_⟩
  . exact Message.VerifyRequest.accepts_encode.canonical
  . exact accepts_u64.canonical
  . exact accepts_text.canonical
  . exact accepts_text.canonical
  . exact SnapshotMetadata.canonical_encode
  . exact GroupData.canonical_encode
  . intro input outcome h
    exact ⟨Message.Outcome.byte_marks outcome, Message.Outcome.differ_of_decode? h⟩

theorem canonical_of_decode_sample
    : let request : VerifyRequest := ⟨1, "s", 64, [⟨7, "g", [2]⟩]⟩
      let question : Bytes :=
        [0, 0, 0, 0, 0, 0, 0, 1, 0, 0, 0, 1, 115, 0, 0, 0, 64, 0, 0, 0, 1, 0, 0, 0, 7,
          0, 0, 0, 1, 103, 0, 0, 0, 1, 0, 0, 0, 2]
      let outcome : NodeOutcome :=
        ⟨"a", none, [⟨⟨7, 0⟩, 100, true, false, 3⟩], [], [], [⟨none, "a.smf"⟩]⟩
      let front : Bytes :=
        [0, 0, 0, 1, 97, 0, 0, 0, 0, 1, 0, 0, 0, 7, 0, 0, 0, 0, 0, 0, 0, 0, 0, 0, 0, 100]
      let between : Bytes := [0, 0, 0, 0, 3, 0, 0, 0, 0, 0, 0, 0, 0, 0, 0, 0, 1, 0]
      let behind : Bytes := [0, 0, 0, 5, 97, 46, 115, 109, 102]
      let input := front ++ [2] ++ between ++ [9, 9, 9, 9] ++ behind
      Message.VerifyRequest.decode? question = some request ∧
        Message.VerifyRequest.encode request = question ∧
        Message.Outcome.decode? input = some outcome ∧
        Message.Outcome.encode outcome = front ++ [1] ++ between ++ [0, 0, 0, 0] ++ behind ∧
        (Message.Outcome.encode outcome).length = input.length := by
  intro request question outcome front between behind input
  obtain ⟨hrequest, _, _, _, _, _, houtcome⟩ := canonical_of_decode
  have hasked : Message.VerifyRequest.decode? question = some request := by decide +kernel
  have htold : Message.Outcome.decode? input = some outcome := by decide +kernel
  exact ⟨hasked, hrequest question request hasked, htold, by decide +kernel,
    (houtcome input outcome htold).2.1⟩

end SnapshotAudit
