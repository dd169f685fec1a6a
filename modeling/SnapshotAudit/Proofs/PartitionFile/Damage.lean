import SnapshotAudit.Proofs.PartitionFile.Audits

/-!
This module contains what can be wrong with the bytes of a partition file, and that the file is
complained about in exactly this way. The shape of the file is looked at first. Of its pages the
first bad one decides, unless the first page of all is written and is no meta page.
-/

namespace SnapshotAudit

namespace PartitionFile

/--
What the bytes of a partition file come to: the update counter and the number of pages that were
written, or what is damaged.
-/
def examine (path : Text) (pageSize partition : UInt32) (bytes : Bytes)
    : Except PartitionError (UInt64 × Nat) := do
  (← ofSize path pageSize partition bytes.length).audit bytes

/--
What is wrong with the bytes of a partition file, and what is said about it.
-/
inductive Damaged (path : Text) (pageSize partition : UInt32) (bytes : Bytes)
    : PartitionError → Prop where
  | pageSize (small : pageSize.toNat < PageLayout.minimumSize)
    : Damaged path pageSize partition bytes (.pageSize path pageSize)
  | partitionTooLarge (minimum : PageLayout.minimumSize ≤ pageSize.toNat)
    (large : PageLayout.maximumPartition < partition)
    : Damaged path pageSize partition bytes (.partitionTooLarge path partition)
  | empty (minimum : PageLayout.minimumSize ≤ pageSize.toNat)
    (maximum : partition ≤ PageLayout.maximumPartition) (empty : bytes = [])
    : Damaged path pageSize partition bytes (.empty path)
  | unevenSize (minimum : PageLayout.minimumSize ≤ pageSize.toNat)
    (maximum : partition ≤ PageLayout.maximumPartition) (uneven : ¬pageSize.toNat ∣ bytes.length)
    : Damaged path pageSize partition bytes (.unevenSize path bytes.length pageSize)
  | tooManyPages (minimum : PageLayout.minimumSize ≤ pageSize.toNat)
    (maximum : partition ≤ PageLayout.maximumPartition) (even : pageSize.toNat ∣ bytes.length)
    (many : UInt32.size ≤ bytes.length / pageSize.toNat)
    : Damaged path pageSize partition bytes (.tooManyPages path)
  | corrupt (shaped : Shaped pageSize partition bytes.length) (index : Nat)
    (first : FirstBad pageSize.toNat partition bytes (bytes.length / pageSize.toNat) index)
    (behind : 0 < index → writtenAt pageSize.toNat bytes 0 = true →
      IsMeta (image pageSize.toNat 0 bytes))
    (wrong : Corrupt (image pageSize.toNat index bytes))
    : Damaged path pageSize partition bytes (.corrupt path index.toUInt32
      ⟨(PageLayout.field PageLayout.idOffset 8 (image pageSize.toNat index bytes)).toUInt64⟩
      (PageLayout.field PageLayout.crcOffset 4 (image pageSize.toNat index bytes)).toUInt32
      (PageLayout.crc (image pageSize.toNat index bytes)))
  | misplaced (shaped : Shaped pageSize partition bytes.length) (index : Nat)
    (first : FirstBad pageSize.toNat partition bytes (bytes.length / pageSize.toNat) index)
    (behind : 0 < index → writtenAt pageSize.toNat bytes 0 = true →
      IsMeta (image pageSize.toNat 0 bytes))
    (right : ¬Corrupt (image pageSize.toNat index bytes))
    : Damaged path pageSize partition bytes (.misplaced path
      ⟨(PageLayout.field PageLayout.idOffset 8 (image pageSize.toNat index bytes)).toUInt64⟩
      partition index.toUInt32)
  | notMeta (shaped : Shaped pageSize partition bytes.length)
    (placed : Placed partition 0 (image pageSize.toNat 0 bytes))
    (written : writtenAt pageSize.toNat bytes 0 = true)
    (other : ¬IsMeta (image pageSize.toNat 0 bytes))
    : Damaged path pageSize partition bytes (.page (.notMeta 0
      (PageLayout.field PageLayout.typeOffset 2 (image pageSize.toNat 0 bytes)).toUInt16))
  | noMetaPage (sound : Sound pageSize partition bytes)
    (unwritten : writtenAt pageSize.toNat bytes 0 = false)
    : Damaged path pageSize partition bytes (.noMetaPage path)

variable {path : Text} {pageSize partition : UInt32} {bytes : Bytes} {cause : PartitionError}

theorem Damaged.isDamage (h : Damaged path pageSize partition bytes cause)
    : IsDamage cause.kind := by
  cases h with
  | corrupt => exact .inl rfl
  | _ => exact .inr rfl

theorem examine_of_shaped (shaped : Shaped pageSize partition bytes.length) (path : Text)
    : examine path pageSize partition bytes =
      (opened path pageSize partition bytes).audit bytes := by
  rw [examine, ofSize_of_shaped shaped path]
  rfl

theorem examine_of_firstBad (shaped : Shaped pageSize partition bytes.length) {index : Nat}
    (first : FirstBad pageSize.toNat partition bytes (bytes.length / pageSize.toNat) index)
    (behind : 0 < index → writtenAt pageSize.toNat bytes 0 = true →
      IsMeta (image pageSize.toNat 0 bytes)) (path : Text)
    : examine path pageSize partition bytes =
      .error (complaint path partition index.toUInt32 (image pageSize.toNat index bytes)) := by
  have hvisits := shaped.visits path first
  rw [examine_of_shaped shaped path]
  by_cases hfirst : 0 < index ∧ writtenAt pageSize.toNat bytes 0 = true
  . exact audit_of_meta hvisits hfirst.1 hfirst.2
      (counts_of_isMeta (behind hfirst.1 hfirst.2))
  . have hnone : index = 0 ∨ writtenAt pageSize.toNat bytes 0 = false := by
      simpa using Decidable.not_and_iff_not_or_not.mp hfirst
    exact audit_of_unwritten hvisits hnone

theorem exists_visits_of_placed (shaped : Shaped pageSize partition bytes.length)
    (placed : Placed partition 0 (image pageSize.toNat 0 bytes)) (path : Text)
    : ∃ stop ending, 0 < stop ∧
        Visits (opened path pageSize partition bytes) bytes stop ending := by
  by_cases sound : Sound pageSize partition bytes
  . exact ⟨_, _, shaped.pagesIn_pos, sound.visits path⟩
  . obtain ⟨index, first⟩ := exists_firstBad_of_not_sound shaped sound
    refine ⟨index, _, Nat.pos_of_ne_zero ?_, shaped.visits path first⟩
    rintro rfl
    exact first.bad placed

theorem Damaged.examine_eq (h : Damaged path pageSize partition bytes cause)
    : examine path pageSize partition bytes = .error cause := by
  cases h with
  | pageSize small => simp [examine, ofSize, checkParameters, small, bind, Except.bind]
  | partitionTooLarge minimum large =>
    simp [examine, ofSize, checkParameters, Nat.not_lt.mpr minimum, large, bind, Except.bind]
  | empty minimum maximum empty =>
    simp [examine, ofSize, checkParameters, Nat.not_lt.mpr minimum, UInt32.not_lt.mpr maximum,
      empty, bind, Except.bind]
  | unevenSize minimum maximum uneven =>
    have hpositive : bytes.length ≠ 0 := fun hzero => uneven (hzero ▸ Nat.dvd_zero _)
    have hrest : bytes.length % pageSize.toNat ≠ 0 := fun hzero =>
      uneven (Nat.dvd_of_mod_eq_zero hzero)
    simp only [examine, ofSize, checkParameters, Nat.not_lt.mpr minimum,
      UInt32.not_lt.mpr maximum, hpositive, hrest, bind, Except.bind, ne_eq,
      not_false_eq_true, if_true, if_false]
  | tooManyPages minimum maximum even many =>
    have hpositive : bytes.length ≠ 0 := by
      intro hzero
      rw [hzero, Nat.zero_div] at many
      exact absurd many (by decide)
    have hmany : UInt32.size - 1 < bytes.length / pageSize.toNat :=
      Nat.lt_of_lt_of_le (by decide) many
    simp only [examine, ofSize, checkParameters, Nat.not_lt.mpr minimum,
      UInt32.not_lt.mpr maximum, hpositive, Nat.mod_eq_zero_of_dvd even, hmany, bind, Except.bind,
      ne_eq, not_true_eq_false, if_true, if_false]
  | corrupt shaped index first behind wrong =>
    rw [examine_of_firstBad shaped first behind path, complaint, if_pos wrong]
  | misplaced shaped index first behind right =>
    rw [examine_of_firstBad shaped first behind path, complaint, if_neg right]
  | notMeta shaped placed written other =>
    obtain ⟨stop, ending, hstop, hvisits⟩ := exists_visits_of_placed shaped placed path
    rw [examine_of_shaped shaped path]
    exact audit_of_other hvisits hstop written other
  | noMetaPage sound unwritten =>
    rw [examine_of_shaped sound.shaped path]
    exact audit_of_unwritten (sound.visits path) (.inr unwritten)

/--
Nothing but this can be wrong.
-/
theorem damaged_or_examine_ok (path : Text) (pageSize partition : UInt32) (bytes : Bytes)
    : (∃ cause, Damaged path pageSize partition bytes cause) ∨
      ∃ found, examine path pageSize partition bytes = .ok found := by
  by_cases minimum : PageLayout.minimumSize ≤ pageSize.toNat
  case neg => exact .inl ⟨_, .pageSize (Nat.lt_of_not_le minimum)⟩
  by_cases maximum : partition ≤ PageLayout.maximumPartition
  case neg => exact .inl ⟨_, .partitionTooLarge minimum (UInt32.not_le.mp maximum)⟩
  by_cases empty : bytes = []
  case pos => exact .inl ⟨_, .empty minimum maximum empty⟩
  by_cases even : pageSize.toNat ∣ bytes.length
  case neg => exact .inl ⟨_, .unevenSize minimum maximum even⟩
  by_cases countable : bytes.length / pageSize.toNat < UInt32.size
  case neg => exact .inl ⟨_, .tooManyPages minimum maximum even (Nat.le_of_not_lt countable)⟩
  have shaped : Shaped pageSize partition bytes.length :=
    ⟨minimum, maximum, List.length_pos_of_ne_nil empty, even, countable⟩
  by_cases sound : Sound pageSize partition bytes
  . cases hwritten : writtenAt pageSize.toNat bytes 0 with
    | false => exact .inl ⟨_, .noMetaPage sound hwritten⟩
    | true =>
      by_cases hmeta : IsMeta (image pageSize.toNat 0 bytes)
      . rw [examine_of_shaped shaped path]
        exact .inr ⟨_, audit_of_meta (sound.visits path) shaped.pagesIn_pos hwritten
          (counts_of_isMeta hmeta)⟩
      . exact .inl ⟨_, .notMeta shaped (sound.pages 0 shaped.pagesIn_pos) hwritten hmeta⟩
  . obtain ⟨index, first⟩ := exists_firstBad_of_not_sound shaped sound
    by_cases behind : 0 < index → writtenAt pageSize.toNat bytes 0 = true →
        IsMeta (image pageSize.toNat 0 bytes)
    . by_cases wrong : Corrupt (image pageSize.toNat index bytes)
      . exact .inl ⟨_, .corrupt shaped index first behind wrong⟩
      . exact .inl ⟨_, .misplaced shaped index first behind wrong⟩
    . push Not at behind
      obtain ⟨hpositive, hwritten, hother⟩ := behind
      exact .inl ⟨_, .notMeta shaped (first.earlier 0 hpositive) hwritten hother⟩

theorem examine_eq_error_iff
    : examine path pageSize partition bytes = .error cause ↔
      Damaged path pageSize partition bytes cause := by
  constructor
  . intro hexamine
    rcases damaged_or_examine_ok path pageSize partition bytes with ⟨other, hother⟩ | ⟨found, hok⟩
    . obtain rfl := Except.error.inj (hexamine.symm.trans hother.examine_eq)
      exact hother
    . cases hexamine.symm.trans hok
  . exact Damaged.examine_eq

end PartitionFile

end SnapshotAudit
