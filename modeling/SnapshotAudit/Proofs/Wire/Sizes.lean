import Mathlib.Algebra.GroupWithZero.Nat
import Mathlib.Algebra.Order.BigOperators.Group.List
import Mathlib.Algebra.Order.Group.Nat
import SnapshotAudit.Proofs.Wire.RoundTrip

/-!
This module contains that a message whose own length can be written consists of texts and lists
whose lengths can be written: no part is longer than the whole. What fits into a frame is therefore
read back.
-/

namespace SnapshotAudit

namespace Encode

theorem Fits.of_le {n total : Nat} (h : Fits total) (hle : n ≤ total) : Fits n :=
  Nat.lt_of_le_of_lt hle h

theorem fits_of_frame {n : Nat} (h : n ≤ FrameHeader.maximumLength.toNat) : Fits n := by
  have hmaximum : FrameHeader.maximumLength.toNat = 67108864 := by decide
  unfold Fits
  omega

@[simp]
theorem length_flag (v : Bool) : (flag v).length = 1 := rfl

@[simp]
theorem length_u8 (v : UInt8) : (u8 v).length = 1 := rfl

@[simp]
theorem length_u32 (v : UInt32) : (u32 v).length = 4 := by simp [u32]

@[simp]
theorem length_u64 (v : UInt64) : (u64 v).length = 8 := by simp [u64]

@[simp]
theorem length_i32 (v : Int32) : (i32 v).length = 4 := length_u32 _

@[simp]
theorem length_text (t : Text) : (text t).length = 4 + t.length := by simp [text, count]

section List

variable {α : Type} (element : α → Bytes) {vs : List α}

theorem length_list (vs : List α)
    : (list element vs).length = 4 + (vs.map fun v => (element v).length).sum := by
  simp [list, count]

theorem length_list_of_fixed {width : Nat} (h : ∀ v, (element v).length = width) (vs : List α)
    : (list element vs).length = 4 + width * vs.length := by
  simp [length_list, h, Nat.mul_comm]

theorem length_element_le {v : α} (h : v ∈ vs)
    : (element v).length ≤ (list element vs).length := by
  have hmem : (element v).length ∈ vs.map fun v => (element v).length := List.mem_map_of_mem h
  have hsum := List.single_le_sum (fun _ _ => Nat.zero_le _) _ hmem
  simp only [list, List.length_append, List.length_flatMap]
  omega

theorem length_le_list (h : ∀ v ∈ vs, 0 < (element v).length)
    : vs.length ≤ (list element vs).length := by
  have hpos : ∀ n ∈ vs.map fun v => (element v).length, 1 ≤ n := by
    simpa [Nat.one_le_iff_ne_zero, Nat.pos_iff_ne_zero] using h
  have hsum := List.length_le_sum_of_one_le _ hpos
  simp only [list, List.length_append, List.length_flatMap]
  simp only [List.length_map] at hsum
  omega

theorem fits_texts {texts : List Text} (h : Fits (list text texts).length)
    : Fits texts.length ∧ ∀ t ∈ texts, Fits t.length := by
  refine ⟨h.of_le (length_le_list text fun t _ => by rw [length_text]; omega), ?_⟩
  intro t ht
  have hle := length_element_le text ht
  rw [length_text] at hle
  exact h.of_le (by omega)

end List

end Encode

open Encode

namespace SnapshotMetadata

theorem length_encode (metadata : SnapshotMetadata)
    : metadata.encode.length = 30 + metadata.descriptor.name.length + metadata.node.length +
        (list text metadata.descriptor.baseline).length +
        (list encodeGroup metadata.descriptor.groups).length := by
  rw [encode, Metafile.length_sealed]
  simp [content, Encode.u16, Nat.add_assoc]
  omega

theorem fits_of_length {metadata : SnapshotMetadata} (h : Encode.Fits metadata.encode.length)
    : metadata.Fits := by
  have htotal := metadata.length_encode
  have hgroup : ∀ group ∈ metadata.descriptor.groups, Encode.Fits (encodeGroup group).length := by
    intro group hmem
    have hle := length_element_le encodeGroup hmem
    exact h.of_le (by omega)
  have hlength (group : GroupDescriptor) : (encodeGroup group).length =
      4 + (4 + group.name.length) + 8 + (list text group.nodeFilter).length := by
    simp [encodeGroup, Nat.add_assoc]
    omega
  obtain ⟨hbaseline, hmembers⟩ :=
    fits_texts (h.of_le (n := (list text metadata.descriptor.baseline).length) (by omega))
  have hfilter (group : GroupDescriptor) (hmem : group ∈ metadata.descriptor.groups) :=
    fits_texts ((hgroup group hmem).of_le (n := (list text group.nodeFilter).length)
      (by rw [hlength]; omega))
  refine ⟨h.of_le (by omega), h.of_le (by omega), hbaseline, hmembers, ?_, ?_, ?_, ?_⟩
  . have hle := length_le_list encodeGroup
      fun group (_ : group ∈ metadata.descriptor.groups) => by rw [hlength]; omega
    exact h.of_le (by omega)
  . intro group hmem
    exact (hgroup group hmem).of_le (by rw [hlength]; omega)
  . exact fun group hmem => (hfilter group hmem).1
  . exact fun group hmem => (hfilter group hmem).2

end SnapshotMetadata

namespace Message

theorem VerifyRequest.length_encode (request : SnapshotAudit.VerifyRequest)
    : (encode request).length =
      16 + request.snapshot.length + (list encodeGroup request.groups).length := by
  simp [encode, Nat.add_assoc]
  omega

theorem VerifyRequest.length_encodeGroup (group : ExpectedGroup)
    : (encodeGroup group).length =
      8 + group.name.length + (list u32 group.partitions).length := by
  simp [encodeGroup, Nat.add_assoc]
  omega

theorem VerifyRequest.fits_of_length {request : SnapshotAudit.VerifyRequest}
    (h : Encode.Fits (encode request).length) : Fits request := by
  have htotal := length_encode request
  have hlength := length_encodeGroup
  have hgroup : ∀ group ∈ request.groups, Encode.Fits (encodeGroup group).length := by
    intro group hmem
    have hle := length_element_le encodeGroup hmem
    exact h.of_le (by omega)
  refine ⟨h.of_le (by omega), ?_, ?_, ?_⟩
  . have hle := length_le_list encodeGroup
      fun group (_ : group ∈ request.groups) => by rw [hlength]; omega
    exact h.of_le (by omega)
  . intro group hmem
    exact (hgroup group hmem).of_le (by rw [hlength]; omega)
  . intro group hmem
    have hle := length_le_list u32 fun p (_ : p ∈ group.partitions) => by simp
    exact (hgroup group hmem).of_le (by rw [hlength]; omega)

theorem Outcome.length_encode (outcome : NodeOutcome)
    : (encode outcome).length = 4 + outcome.node.length +
        (encodeFailure outcome.failure).length + (list encodeRecord outcome.partitions).length +
        (list i32 outcome.missingGroups).length +
        (list encodeKey outcome.missingPartitions).length +
        (list encodeMissing outcome.missingMetadata).length := by
  simp [encode, Nat.add_assoc]

theorem Outcome.fits_of_length {outcome : NodeOutcome} (h : Encode.Fits (encode outcome).length)
    (kinds : ∀ failure, outcome.failure = some failure → ∀ cause ∈ failure.causes,
      1 ≤ cause.kind.code ∧ cause.kind.code ≤ 10) : Fits outcome := by
  have htotal := length_encode outcome
  have hcauses : ∀ failure, outcome.failure = some failure →
      (list encodeCause failure.causes).length ≤ (encode outcome).length := by
    intro failure hfailure
    rw [htotal, hfailure, encodeFailure, List.length_append]
    omega
  have hmissing : ∀ missing ∈ outcome.missingMetadata,
      (encodeMissing missing).length ≤ (encode outcome).length := by
    intro missing hmem
    have hle := length_element_le encodeMissing hmem
    omega
  refine ⟨h.of_le (by omega), ?_, kinds, ?_, ?_, ?_, ?_, ?_, ?_⟩
  . intro failure hfailure
    have hle := length_le_list encodeCause
      fun cause (_ : cause ∈ failure.causes) => by simp [encodeCause]
    exact h.of_le (Nat.le_trans hle (hcauses failure hfailure))
  . intro failure hfailure cause hmem
    have hle := length_element_le encodeCause hmem
    have := hcauses failure hfailure
    simp only [encodeCause, List.length_append, length_text] at hle
    exact h.of_le (by omega)
  . have hle := length_le_list encodeRecord
      fun record (_ : record ∈ outcome.partitions) => by simp [encodeRecord, encodeKey]
    exact h.of_le (by omega)
  . have hle := length_le_list i32 fun id (_ : id ∈ outcome.missingGroups) => by simp
    exact h.of_le (by omega)
  . have hle := length_le_list encodeKey
      fun key (_ : key ∈ outcome.missingPartitions) => by simp [encodeKey]
    exact h.of_le (by omega)
  . have hle := length_le_list encodeMissing
      fun missing (_ : missing ∈ outcome.missingMetadata) => by simp [encodeMissing]
    exact h.of_le (by omega)
  . intro missing hmem
    have hle := hmissing missing hmem
    simp only [encodeMissing, List.length_append, length_text] at hle
    exact h.of_le (by omega)

theorem DescribeResponse.fits_of_length {desc : SnapshotDescriptor}
    (h : Encode.Fits (encode (some desc)).length)
    : SnapshotMetadata.Fits ⟨desc, []⟩ ∧
      Encode.Fits (SnapshotMetadata.encode ⟨desc, []⟩).length := by
  have hmetafile : Encode.Fits (SnapshotMetadata.encode ⟨desc, []⟩).length := by
    apply h.of_le
    simp only [encode, List.length_append, length_text]
    omega
  exact ⟨SnapshotMetadata.fits_of_length hmetafile, hmetafile⟩

end Message

end SnapshotAudit
