import SnapshotAudit.Membership
import SnapshotAudit.Proofs.Endian

/-!
This module contains which datagrams carry a heartbeat: those of which the part that is received
begins with the datagram of the heartbeat. All others are malformed, in one of two ways: they are
too short for the id that they announce, or their role has no meaning.
-/

namespace SnapshotAudit

theorem Role.ofCode?_eq_some_iff (code : UInt8) (role : Role)
    : ofCode? code = some role ↔ code = role.code := by
  unfold ofCode?
  split
  . cases role <;> simp [Role.code]
  . cases role <;> simp [Role.code]
  next hserver hclient => cases role <;> simpa [Role.code]

theorem Role.ofCode?_eq_none_iff (code : UInt8)
    : ofCode? code = none ↔ code ≠ 1 ∧ code ≠ 2 := by
  unfold ofCode?
  split <;> simp_all

namespace Heartbeat

def received (datagram : Bytes) : Bytes :=
  datagram.take 1024

theorem received_eq (datagram : Bytes) : received datagram = datagram.take maximumDatagram :=
  rfl

def announced (datagram : Bytes) : Nat :=
  ofLittleEndian ((received datagram).take 2)

def Carries (datagram : Bytes) (beat : Heartbeat) : Prop :=
  beat.id.length < 65536 ∧ beat.datagram <+: received datagram

def TooShort (datagram : Bytes) : Prop :=
  (received datagram).length < announced datagram + 11

def UnknownRole (datagram : Bytes) : Prop :=
  ∃ code, (received datagram)[announced datagram + 10]? = some code ∧ code ≠ 1 ∧ code ≠ 2

def Malformed (datagram : Bytes) : Prop :=
  TooShort datagram ∨ UnknownRole datagram

def layout (id : Text) (counter : UInt64) (code : UInt8) : Bytes :=
  littleEndian 2 id.length ++ (id ++ (littleEndian 8 counter.toNat ++ [code]))

theorem datagram_eq_layout {beat : Heartbeat} (h : beat.id.length < 65536)
    : beat.datagram = layout beat.id beat.counter beat.role.code := by
  simp [datagram, layout, Nat.mod_eq_of_lt h]

theorem length_layout (id : Text) (counter : UInt64) (code : UInt8)
    : (layout id counter code).length = id.length + 11 := by
  simp only [layout, List.length_append, length_littleEndian, List.length_singleton]
  omega

theorem announced_lt (datagram : Bytes)
    : announced datagram < 65536 := by
  apply Nat.lt_of_lt_of_le (ofLittleEndian_lt _)
  exact Nat.pow_le_pow_right (by omega) (List.length_take_le 2 _)

theorem exists_layout {datagram : Bytes} (h : ¬TooShort datagram)
    : ∃ id counter code, id.length = announced datagram ∧
        (received datagram)[announced datagram + 10]? = some code ∧
        layout id counter code <+: received datagram := by
  unfold TooShort at h
  unfold announced at h ⊢
  generalize received datagram = bytes at h
  generalize hlength : ofLittleEndian (bytes.take 2) = length at h
  have hhead : littleEndian 2 length = bytes.take 2 := by
    have := littleEndian_ofLittleEndian (bytes.take 2)
    rwa [hlength, List.length_take, Nat.min_eq_left (by omega)] at this
  have hid : ((bytes.drop 2).take length).length = length := by
    simp only [List.length_take, List.length_drop]
    omega
  -- the eight bytes behind the id are those of the number that they stand for
  have hcounter : littleEndian 8
      (ofLittleEndian (((bytes.drop 2).drop length).take 8)).toUInt64.toNat =
      ((bytes.drop 2).drop length).take 8 := by
    have hroom : (((bytes.drop 2).drop length).take 8).length = 8 := by
      simp only [List.length_take, List.length_drop]
      omega
    have hlt := ofLittleEndian_lt (((bytes.drop 2).drop length).take 8)
    have hback := littleEndian_ofLittleEndian (((bytes.drop 2).drop length).take 8)
    rw [hroom] at hlt hback
    rwa [Nat.toUInt64_eq, UInt64.toNat_ofNat_of_lt' hlt]
  have hlt : length + 10 < bytes.length := by omega
  refine ⟨(bytes.drop 2).take length,
    (ofLittleEndian (((bytes.drop 2).drop length).take 8)).toUInt64, bytes[length + 10], hid,
    List.getElem?_eq_getElem hlt, bytes.drop (length + 11), ?_⟩
  have hcode : [bytes[length + 10]] ++ bytes.drop (length + 11) =
      (((bytes.drop 2).drop length).drop 8) := by
    rw [List.drop_drop, List.drop_drop, List.singleton_append, ← List.drop_eq_getElem_cons hlt]
    congr 1
    omega
  simp only [layout, hid, hhead, hcounter, List.append_assoc, hcode, List.take_append_drop]

theorem parts?_of_layout {datagram : Bytes} {id : Text} {counter : UInt64} {code : UInt8}
    (hid : id.length < 65536) (h : layout id counter code <+: received datagram)
    : parts? datagram = some (id, counter, code) := by
  obtain ⟨rest, hrest⟩ := h
  unfold received at hrest
  have hlength : ofLittleEndian (littleEndian 2 id.length) = id.length :=
    ofLittleEndian_littleEndian_of_lt hid
  have hcounter : (ofLittleEndian (littleEndian 8 counter.toNat)).toUInt64 = counter := by
    rw [ofLittleEndian_littleEndian_of_lt counter.toNat_lt, Nat.toUInt64_eq, UInt64.ofNat_toNat]
  have htake : (layout id counter code ++ rest).take 2 = littleEndian 2 id.length := by
    simp [layout, List.append_assoc]
  have hdrop : (layout id counter code ++ rest).drop 2 =
      id ++ (littleEndian 8 counter.toNat ++ (code :: rest)) := by
    simp [layout, List.append_assoc]
  unfold parts? maximumDatagram
  simp only [← hrest, htake, hdrop, hlength, List.length_append, length_layout, length_littleEndian,
    List.length_cons, Bool.or_eq_true, decide_eq_true_eq]
  rw [if_neg]
  . simp [List.drop_append, hcounter]
  . omega

theorem announced_of_layout {datagram : Bytes} {id : Text} {counter : UInt64} {code : UInt8}
    (hid : id.length < 65536) (h : layout id counter code <+: received datagram)
    : announced datagram = id.length := by
  obtain ⟨rest, hrest⟩ := h
  rw [announced, ← hrest]
  simpa [layout, List.append_assoc] using ofLittleEndian_littleEndian_of_lt hid

theorem code_of_layout {datagram : Bytes} {id : Text} {counter : UInt64} {code : UInt8}
    (hid : id.length < 65536) (h : layout id counter code <+: received datagram)
    : (received datagram)[announced datagram + 10]? = some code := by
  rw [announced_of_layout hid h]
  obtain ⟨rest, hrest⟩ := h
  have hlength : (littleEndian 2 id.length ++ (id ++ littleEndian 8 counter.toNat)).length =
      id.length + 10 := by
    simp only [List.length_append, length_littleEndian]
    omega
  have hsplit : received datagram =
      (littleEndian 2 id.length ++ (id ++ littleEndian 8 counter.toNat)) ++ code :: rest := by
    simp [← hrest, layout]
  rw [hsplit, ← hlength, List.getElem?_append_right (Nat.le_refl _), Nat.sub_self]
  rfl

theorem parts?_eq_none_iff (datagram : Bytes)
    : parts? datagram = none ↔ TooShort datagram := by
  constructor
  . intro hnone
    apply Classical.byContradiction
    intro h
    obtain ⟨id, counter, code, hid, -, hlayout⟩ := exists_layout h
    rw [parts?_of_layout (hid ▸ announced_lt datagram) hlayout] at hnone
    cases hnone
  . intro h
    unfold TooShort announced received at h
    unfold parts? maximumDatagram
    simp only [List.length_drop, Bool.or_eq_true, decide_eq_true_eq]
    rw [if_pos]
    omega

theorem parts?_eq_some_iff (datagram : Bytes) (id : Text) (counter : UInt64) (code : UInt8)
    : parts? datagram = some (id, counter, code) ↔
        id.length < 65536 ∧ layout id counter code <+: received datagram := by
  constructor
  . intro hparts
    have h : ¬TooShort datagram := by
      rw [← parts?_eq_none_iff, hparts]
      exact Option.some_ne_none _
    obtain ⟨id', counter', code', hid, -, hlayout⟩ := exists_layout h
    have hlt := hid ▸ announced_lt datagram
    have := parts?_of_layout hlt hlayout
    rw [hparts] at this
    cases this
    exact ⟨hlt, hlayout⟩
  . rintro ⟨hid, hlayout⟩
    exact parts?_of_layout hid hlayout

theorem ofDatagram?_eq_some_iff (datagram : Bytes) (beat : Heartbeat)
    : ofDatagram? datagram = some beat ↔ Carries datagram beat := by
  have hparts : ofDatagram? datagram = some beat ↔
      parts? datagram = some (beat.id, beat.counter, beat.role.code) := by
    unfold ofDatagram?
    cases parts? datagram with
    | none => simp
    | some parts =>
      obtain ⟨id, counter, code⟩ := parts
      obtain ⟨id', role, counter'⟩ := beat
      cases hrole : Role.ofCode? code with
      | none =>
        have : code ≠ role.code := by
          rw [ne_eq, ← Role.ofCode?_eq_some_iff, hrole]
          simp
        simp [hrole, this]
      | some role' =>
        have : code = role.code ↔ role' = role := by
          rw [← Role.ofCode?_eq_some_iff, hrole, Option.some_inj]
        simp only [hrole, Option.bind_eq_bind, Option.bind_some, Option.pure_def,
          Option.some.injEq, mk.injEq, Prod.mk.injEq, this]
        exact and_congr_right fun _ => and_comm
  rw [hparts, parts?_eq_some_iff]
  apply and_congr_right
  intro hid
  rw [datagram_eq_layout hid]

theorem Carries.unique {datagram : Bytes} {beat beat' : Heartbeat} (h : Carries datagram beat)
    (h' : Carries datagram beat')
    : beat = beat' := by
  rw [← ofDatagram?_eq_some_iff] at h h'
  rw [h] at h'
  exact Option.some.inj h'

theorem Carries.length_id_le {datagram : Bytes} {beat : Heartbeat} (h : Carries datagram beat)
    : beat.id.length + 11 ≤ maximumDatagram := by
  have := h.2.length_le
  rw [datagram_eq_layout h.1, length_layout] at this
  exact Nat.le_trans this (List.length_take_le _ _)

theorem carries_datagram {beat : Heartbeat} (h : beat.id.length + 11 ≤ maximumDatagram)
    : Carries beat.datagram beat := by
  have hid : beat.id.length < 65536 := by
    unfold maximumDatagram at h
    omega
  have hlength : beat.datagram.length ≤ maximumDatagram := by
    rwa [datagram_eq_layout hid, length_layout]
  have hwhole : received beat.datagram = beat.datagram := List.take_of_length_le hlength
  exact ⟨hid, [], by rw [List.append_nil, hwhole]⟩

theorem malformed_iff (datagram : Bytes)
    : Malformed datagram ↔ ofDatagram? datagram = none := by
  constructor
  . intro h
    unfold ofDatagram?
    rcases h with h | ⟨code, hcode, hunknown⟩
    . simp [(parts?_eq_none_iff datagram).mpr h]
    . cases hparts : parts? datagram with
      | none => rfl
      | some parts =>
        obtain ⟨id, counter, code'⟩ := parts
        obtain ⟨hid, hlayout⟩ := (parts?_eq_some_iff _ _ _ _).mp hparts
        have := code_of_layout hid hlayout
        rw [hcode] at this
        cases this
        simp [(Role.ofCode?_eq_none_iff code).mpr hunknown]
  . intro h
    apply Classical.or_iff_not_imp_left.mpr
    intro hroom
    obtain ⟨id, counter, code, hid, hcode, hlayout⟩ := exists_layout hroom
    have hparts := parts?_of_layout (hid ▸ announced_lt datagram) hlayout
    refine ⟨code, hcode, (Role.ofCode?_eq_none_iff code).mp ?_⟩
    cases hrole : Role.ofCode? code with
    | none => rfl
    | some role => simp [ofDatagram?, hparts, hrole] at h

end Heartbeat

end SnapshotAudit
