import SnapshotAudit.Page.Image
import SnapshotAudit.Proofs.Checksum
import SnapshotAudit.Proofs.PartitionFile.Scans
import SnapshotAudit.Proofs.Wire.Canonical
import SnapshotAudit.Proofs.Wire.RoundTrip
import SnapshotAudit.Wire.Frame

/-!
This module contains that damage of a few bytes in a row is always found, in pages, in frames and in
the files that describe a snapshot: the checksum that is stored tells the damaged bytes from the
good ones, and it is asked before anything else is looked at.
-/

namespace SnapshotAudit

theorem eq_of_ofLittleEndian {as bs : Bytes} (hlength : as.length = bs.length)
    (h : ofLittleEndian as = ofLittleEndian bs) : as = bs := by
  rw [← littleEndian_ofLittleEndian as, h, hlength, littleEndian_ofLittleEndian]

/-!
A page stores its checksum in the middle of what the checksum covers.
-/

namespace PageLayout

def covered (image : Bytes) : Bytes :=
  image.take crcOffset ++ image.drop idOffset

def stored (image : Bytes) : Bytes :=
  (image.drop crcOffset).take 4

theorem eq_of_parts {as bs : Bytes} (hlength : as.length = bs.length)
    (hcovered : covered as = covered bs) (hstored : stored as = stored bs) : as = bs := by
  have hfront : (as.take crcOffset).length = (bs.take crcOffset).length := by
    rw [List.length_take, List.length_take, hlength]
  obtain ⟨htake, hdrop⟩ := List.append_inj hcovered hfront
  calc as
    _ = as.take crcOffset ++ stored as ++ as.drop idOffset :=
      (take_window_append 4 crcOffset as).symm
    _ = bs.take crcOffset ++ stored bs ++ bs.drop idOffset := by rw [htake, hstored, hdrop]
    _ = bs := take_window_append 4 crcOffset bs

theorem stored_eq_of_field {as bs : Bytes} (hlength : as.length = bs.length)
    (h : (field crcOffset 4 as).toUInt32 = (field crcOffset 4 bs).toUInt32)
    : stored as = stored bs := by
  have hword (image : Bytes) : (field crcOffset 4 image).toUInt32.toNat =
      ofLittleEndian (stored image) := by
    apply UInt32.toNat_ofNat_of_lt'
    apply Nat.lt_of_lt_of_le (ofLittleEndian_lt _)
    exact Nat.pow_le_pow_right (by decide) (List.length_take_le _ _)
  apply eq_of_ofLittleEndian
  . simp only [stored, List.length_take, List.length_drop, hlength]
  . rw [← hword, ← hword, h]

/--
Damage of up to four bytes in a row: of what the checksum covers, as if the checksum were cut out
of the page, or of the checksum.
-/
inductive LocalDamage (good bad : Bytes) : Prop where
  | covered (start : Nat) (within : DifferWithin 4 start (covered good) (covered bad))
    (same : stored good = stored bad)
  | stored (within : DifferWithin 4 crcOffset good bad)

end PageLayout

namespace PartitionFile

open PageLayout in
theorem corrupt_of_localDamage {good bad : Bytes} (hright : ¬Corrupt good)
    (hlength : good.length = bad.length) (damage : LocalDamage good bad) (hne : bad ≠ good)
    : Corrupt bad := by
  have hgood : (field crcOffset 4 good).toUInt32 = crc good := Decidable.not_not.mp hright
  intro hbad
  apply hne
  cases damage with
  | covered start within same =>
    have hfield : field crcOffset 4 good = field crcOffset 4 bad := congrArg ofLittleEndian same
    rw [← hfield, hgood] at hbad
    exact (eq_of_parts hlength (eq_of_crc32 within hbad) same).symm
  | stored within =>
    have hcovered : covered good = covered bad :=
      congrArg₂ (· ++ ·) (within.take_eq (Nat.le_refl _)) (within.drop_eq (Nat.le_refl _))
    have hcrc : crc good = crc bad := congrArg crc32 hcovered
    rw [← hcrc, ← hgood] at hbad
    exact (eq_of_parts hlength hcovered (stored_eq_of_field hlength hbad.symm)).symm

theorem readPage_of_localDamage {path : Text} {pageSize partition index : UInt32}
    {bytes good : Bytes} {file : PartitionFile}
    (hfile : ofSize path pageSize partition bytes.length = .ok file)
    (hindex : index < file.pageCount) (hlength : good.length = pageSize.toNat)
    (hright : ¬Corrupt good)
    (damage : PageLayout.LocalDamage good (image pageSize.toNat index.toNat bytes))
    (hne : image pageSize.toNat index.toNat bytes ≠ good)
    (hwritten : writtenAt pageSize.toNat bytes index.toNat = true)
    : ∃ page : Page, page.bytes = image pageSize.toNat index.toNat bytes ∧
        file.readPage bytes index =
          .error (.corrupt path index page.id page.storedCrc page.computedCrc) := by
  obtain ⟨shaped, rfl⟩ := ofSize_eq_ok hfile
  have hinside : (index.toNat + 1) * pageSize.toNat ≤ bytes.length := by
    apply Nat.le_trans (Nat.mul_le_mul_right _ _) (shaped.length_opened path)
    exact UInt32.lt_iff_toNat_lt.mp hindex
  have hrest : pageSize.toNat ≤ (bytes.drop (index.toNat * pageSize.toNat)).length := by
    rw [List.length_drop]
    rw [Nat.succ_mul] at hinside
    omega
  have htake : (image pageSize.toNat index.toNat bytes).length = pageSize.toNat :=
    List.length_take_of_le hrest
  have hcorrupt := corrupt_of_localDamage hright (hlength.trans htake.symm) damage hne
  have hlong : PageLayout.minimumSize ≤ (image pageSize.toNat index.toNat bytes).length := by
    rw [htake]
    exact shaped.minimum
  have hempty : (Page.mk index (image pageSize.toNat index.toNat bytes) hlong).isEmpty = false :=
    (Bool.not_eq_true' _).mp hwritten
  have hread : (opened path pageSize partition bytes).pageAt index
      (bytes.drop (index.toNat * pageSize.toNat)) =
      (opened path pageSize partition bytes).checkPage ⟨index, _, hlong⟩ :=
    pageAt_eq (by exact hlong) hrest index
  refine ⟨⟨index, _, hlong⟩, rfl, ?_⟩
  rw [readPage, if_neg (UInt32.not_le.mpr hindex)]
  exact hread.trans (checkPage_of_corrupt hempty hcorrupt)

end PartitionFile

/-!
A frame names the checksum of its body, and a sealed file ends with the one of its content.
-/

theorem FrameHeader.matchesBody_of_localDamage {header : FrameHeader} {body bad : Bytes}
    {start : Nat} (h : header.matchesBody body = true) (within : DifferWithin 4 start body bad)
    (hne : bad ≠ body) : header.matchesBody bad = false := by
  simp only [matchesBody, Bool.and_eq_true, decide_eq_true_eq] at h
  rw [Bool.eq_false_iff]
  intro hbad
  simp only [matchesBody, Bool.and_eq_true, decide_eq_true_eq] at hbad
  exact hne (eq_of_crc32 within (h.2.trans hbad.2.symm)).symm

namespace Metafile

structure LocalDamage (good bad : Bytes) (start : Nat) : Prop where
  within : DifferWithin 4 start good bad
  apart : start + 4 ≤ good.length - 4 ∨ good.length - 4 ≤ start

theorem eq_of_u32 {v w : UInt32} (h : Encode.u32 v = Encode.u32 w) : v = w := by
  have hword (v : UInt32) : ofBigEndian (Encode.u32 v) = v.toNat := by
    rw [Encode.u32, ofBigEndian_bigEndian]
    exact Nat.mod_eq_of_lt v.toNat_lt
  apply UInt32.toNat_inj.mp
  rw [← hword, h, hword]

theorem unsealed?_of_localDamage {good bad content : Bytes} {start : Nat}
    (h : unsealed? good = some content) (damage : LocalDamage good bad start) (hne : bad ≠ good)
    : unsealed? bad = none := by
  cases hunsealed : unsealed? bad with
  | none => rfl
  | some found =>
    obtain rfl := eq_sealed_of_unsealed? h
    obtain rfl := eq_sealed_of_unsealed? hunsealed
    obtain ⟨within, apart⟩ := damage
    have hlength := within.length_eq
    rw [length_sealed, length_sealed, Nat.add_right_cancel_iff] at hlength
    rw [length_sealed, Nat.add_sub_cancel] at apart
    have hfront (content : Bytes) : (sealed content).take content.length = content :=
      List.take_left
    have hcontent : content = found := by
      cases apart with
      | inl hbefore =>
        have htrailer := within.drop_eq hbefore
        rw [sealed, sealed, List.drop_left, hlength, List.drop_left] at htrailer
        have hcontents := within.take content.length
        rw [hfront, hlength, hfront] at hcontents
        exact eq_of_crc32 hcontents (eq_of_u32 htrailer)
      | inr hbehind =>
        have hcontents := within.take_eq hbehind
        rwa [hfront, hlength, hfront] at hcontents
    exact absurd (hcontent ▸ rfl) hne

theorem decode_of_localDamage {α : Type} {decoder : Decoder α} {good bad : Bytes} {v : α}
    {start : Nat} (h : (do decoder.all (← unsealed? good)) = some v)
    (damage : LocalDamage good bad start) (hne : bad ≠ good)
    : (do decoder.all (← unsealed? bad)) = none := by
  obtain ⟨content, hcontent, _⟩ := Option.bind_eq_some_iff.mp h
  rw [unsealed?_of_localDamage hcontent damage hne]
  rfl

end Metafile

/--
A page, a body of a frame or a file that describes a snapshot is not taken for a good one when up to
four bytes of it in a row are damaged. A damaged page is reported as corrupt and as nothing else.
-/
theorem localDamage_detected
    : (∀ (path : Text) (pageSize partition index : UInt32) (bytes good : Bytes)
        (file : PartitionFile),
        PartitionFile.ofSize path pageSize partition bytes.length = .ok file →
        index < file.pageCount →
        good.length = pageSize.toNat → ¬PartitionFile.Corrupt good →
        let bad := PartitionFile.image pageSize.toNat index.toNat bytes
        PageLayout.LocalDamage good bad → bad ≠ good → (∃ b ∈ bad, b ≠ 0) →
        ∃ page : Page, page.bytes = bad ∧ file.readPage bytes index =
          .error (.corrupt path index page.id page.storedCrc page.computedCrc)) ∧
      (∀ (header : FrameHeader) (body bad : Bytes) (start : Nat),
        header.matchesBody body = true → DifferWithin 4 start body bad → bad ≠ body →
        header.matchesBody bad = false) ∧
      (∀ (good bad : Bytes) (metadata : SnapshotMetadata) (start : Nat),
        SnapshotMetadata.decode? good = some metadata → Metafile.LocalDamage good bad start →
        bad ≠ good → SnapshotMetadata.decode? bad = none) ∧
      (∀ (good bad : Bytes) (data : GroupData) (start : Nat),
        GroupData.decode? good = some data → Metafile.LocalDamage good bad start →
        bad ≠ good → GroupData.decode? bad = none) := by
  refine ⟨?_, ?_, ?_, ?_⟩
  . intro path pageSize partition index bytes good file hfile hindex hlength hright bad damage hne
      hwritten
    have hwritten : PartitionFile.writtenAt pageSize.toNat bytes index.toNat = true := by
      simpa [PartitionFile.writtenAt] using hwritten
    exact PartitionFile.readPage_of_localDamage hfile hindex hlength hright damage hne hwritten
  . intro header body bad start h within hne
    exact FrameHeader.matchesBody_of_localDamage h within hne
  . intro good bad metadata start h damage hne
    exact Metafile.decode_of_localDamage h damage hne
  . intro good bad data start h damage hne
    exact Metafile.decode_of_localDamage h damage hne

theorem localDamage_detected_sample
    : let page := (PageImage.mk (List.replicate 64 0) (by decide)).start PageLayout.dataType 3 0
      let good := page.1.sealed.bytes
      let bad := good.take 2 ++ [9, 9] ++ PageLayout.stored good ++ [9, 9] ++ good.drop 10
      let metadata : SnapshotMetadata := ⟨⟨"s", 1, 64, [], []⟩, "n"⟩
      let data : GroupData := ⟨5, "g", 1, 0⟩
      (∃ page : Page, page.bytes = bad ∧ PartitionFile.readPage ⟨"p", 64, 3, 1⟩ bad 0 =
        .error (.corrupt "p" 0 page.id page.storedCrc page.computedCrc)) ∧
      (FrameHeader.ofBody 1 [1, 2, 3, 4, 5, 6]).matchesBody [1, 2, 9, 9, 9, 9] = false ∧
      SnapshotMetadata.decode? (metadata.content ++ [9, 9, 9, 9]) = none ∧
      GroupData.decode? ([9, 9, 9, 9] ++ data.encode.drop 4) = none := by
  intro page good bad metadata data
  obtain ⟨hpage, hframe, hmetadata, hdata⟩ := localDamage_detected
  have fits : metadata.Fits :=
    ⟨by decide, by decide, by decide, by decide, by decide, by decide, by decide, by decide⟩
  refine ⟨?_, ?_, ?_, ?_⟩
  . exact hpage "p" 64 3 0 bad good _ (by decide +kernel) (by decide) (by decide +kernel)
      (by decide +kernel) (.covered 2 (by decide +kernel) (by decide +kernel)) (by decide +kernel)
      (by decide +kernel)
  . exact hframe _ [1, 2, 3, 4, 5, 6] _ 2 (by decide +kernel) (by decide) (by decide)
  . exact hmetadata metadata.encode _ metadata metadata.content.length
      (SnapshotMetadata.exact_encode fits).whole
      ⟨by decide +kernel, .inr (by decide +kernel)⟩ (by decide +kernel)
  . exact hdata data.encode _ data 0 (GroupData.exact_encode (by decide)).whole
      ⟨by decide +kernel, .inl (by decide +kernel)⟩ (by decide +kernel)

end SnapshotAudit
