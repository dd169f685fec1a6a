import Mathlib.Data.List.Induction
import Mathlib.Data.List.TakeDrop
import Mathlib.Data.Nat.Digits.Defs
import SnapshotAudit.CommandLine
import SnapshotAudit.Proofs.Lists

/-!
This module contains which texts name a peer. What is named is the peer that stands in the text, and
its port leaves room for the port for jobs; but there may be more in the third field than a port.
-/

namespace SnapshotAudit

namespace Text

/-!
The number at the front of a text.
-/

def number (digits : Text) : Nat :=
  Nat.ofDigits 10 (digits.map fun b => b.toNat - 48).reverse

theorem digitsValue_eq_number (digits : Text) : digitsValue digits = number digits := by
  induction digits using List.reverseRecOn with
  | nil => rfl
  | append_singleton digits b ih =>
    simp only [digitsValue, List.foldl_append, List.foldl_cons, List.foldl_nil, number,
      List.map_append, List.map_cons, List.map_nil, List.reverse_append, List.reverse_singleton,
      List.singleton_append, Nat.ofDigits_cons] at ih ⊢
    rw [ih, Nat.add_comm]

theorem not_isBlank_of_isDigit {b : UInt8} (h : isDigit b = true) : isBlank b = false := by
  simp only [isDigit, isBlank, Bool.and_eq_true, Bool.or_eq_false_iff, Bool.and_eq_false_iff,
    decide_eq_true_eq, decide_eq_false_iff_not, UInt8.le_iff_toNat_le, ← UInt8.toNat_inj,
    UInt8.reduceToNat] at h ⊢
  omega

structure Run (digits back : Text) : Prop where
  nonempty : digits ≠ []
  digits : ∀ b ∈ digits, isDigit b = true
  back : ∀ b, back.head? = some b → isDigit b = false

structure Leading (t front digits back : Text) : Prop where
  text : t = front ++ (digits ++ back)
  front : ∃ blanks, (∀ b ∈ blanks, isBlank b = true) ∧ (front = blanks ∨ front = blanks ++ [43])
  run : Run digits back

theorem Leading.digits_eq {t front digits back : Text} (h : Leading t front digits back)
    (hall : ∀ b ∈ t, isDigit b = true) : digits = t := by
  rw [h.text] at hall
  have hfront : front = [] := by
    obtain ⟨blanks, hblanks, hfront⟩ := h.front
    have hnone : blanks = [] := by
      apply List.eq_nil_iff_forall_not_mem.mpr
      intro b hb
      have hdigit := hall b (by rcases hfront with rfl | rfl <;> simp [hb])
      have hblank := not_isBlank_of_isDigit hdigit
      rw [hblanks b hb] at hblank
      cases hblank
    rcases hfront with rfl | rfl
    . exact hnone
    . exact absurd (hall 43 (by simp)) (by decide)
  have hback : back = [] := by
    cases hback : back with
    | nil => rfl
    | cons b rest =>
      have hdigit := hall b (by simp [hback])
      rw [h.run.back b (by simp [hback])] at hdigit
      cases hdigit
  rw [h.text, hfront, hback, List.nil_append, List.append_nil]

theorem magnitude?_eq_some_iff {t : Text} {n : Nat}
    : leadingInt?.magnitude? t = some n ↔
      ∃ digits back, t = digits ++ back ∧ Run digits back ∧ number digits = n := by
  have hcut {digits back : Text} (ht : t = digits ++ back) (run : Run digits back)
      : t.takeWhile isDigit = digits :=
    (takeWhile_dropWhile_iff.mpr ⟨ht, run.digits, run.back⟩).1
  unfold leadingInt?.magnitude?
  split
  next hnone =>
    simp only [reduceCtorEq, false_iff]
    rintro ⟨digits, back, ht, run, -⟩
    exact run.nonempty ((hcut ht run).symm.trans hnone)
  next hne =>
    rw [Option.some.injEq, digitsValue_eq_number]
    constructor
    . rintro rfl
      obtain ⟨ht, hdigits, hback⟩ := takeWhile_dropWhile_iff.mp
        (⟨rfl, rfl⟩ : t.takeWhile isDigit = _ ∧ t.dropWhile isDigit = _)
      exact ⟨_, _, ht, ⟨hne, hdigits, hback⟩, rfl⟩
    . rintro ⟨digits, back, ht, run, hn⟩
      rw [hcut ht run, hn]

theorem leading_of_leadingInt? {t : Text} {n : Nat} (hn : 0 < n)
    (h : leadingInt? t = some (n : Int))
    : ∃ front digits back, Leading t front digits back ∧ number digits = n := by
  obtain ⟨ht, hblanks, -⟩ := takeWhile_dropWhile_iff.mp
    (⟨rfl, rfl⟩ : t.takeWhile isBlank = _ ∧ t.dropWhile isBlank = _)
  unfold leadingInt? at h
  split at h
  next rest hminus =>
    -- behind a minus sign no number is positive
    obtain ⟨i, hi, hneg⟩ := Option.map_eq_some_iff.mp h
    obtain ⟨m, -, hm⟩ := Option.bind_eq_some_iff.mp hi
    cases hm
    omega
  next rest hplus =>
    obtain ⟨m, hm, heq⟩ := Option.map_eq_some_iff.mp h
    obtain ⟨digits, back, hrest, run, hnumber⟩ := magnitude?_eq_some_iff.mp hm
    rw [hplus, hrest] at ht
    exact ⟨t.takeWhile isBlank ++ [43], digits, back,
      ⟨by simpa using ht, ⟨_, hblanks, .inr rfl⟩, run⟩, hnumber.trans (Int.ofNat.inj heq)⟩
  next =>
    obtain ⟨m, hm, heq⟩ := Option.map_eq_some_iff.mp h
    obtain ⟨digits, back, hrest, run, hnumber⟩ := magnitude?_eq_some_iff.mp hm
    rw [hrest] at ht
    exact ⟨t.takeWhile isBlank, digits, back, ⟨ht, ⟨_, hblanks, .inl rfl⟩, run⟩,
      hnumber.trans (Int.ofNat.inj heq)⟩

theorem leadingInt?_of_leading {t front digits back : Text} (h : Leading t front digits back)
    : leadingInt? t = some (number digits : Int) := by
  obtain ⟨blanks, hblanks, hfront⟩ := h.front
  obtain ⟨d, ds, rfl⟩ := List.exists_cons_of_ne_nil h.run.nonempty
  have hd := h.run.digits d List.mem_cons_self
  have hmagnitude := magnitude?_eq_some_iff.mpr ⟨d :: ds, back, rfl, h.run, rfl⟩
  have htext := h.text
  unfold leadingInt?
  rcases hfront with rfl | rfl
  . have hdrop : t.dropWhile isBlank = d :: ds ++ back := by
      refine (takeWhile_dropWhile_iff.mpr ⟨htext, hblanks, ?_⟩).2
      rintro b ⟨⟩
      exact not_isBlank_of_isDigit hd
    rw [hdrop]
    -- no digit is a sign
    split
    next heq => rw [(List.cons.inj heq).1] at hd; cases hd
    next heq => rw [(List.cons.inj heq).1] at hd; cases hd
    next => rw [hmagnitude]; rfl
  . have hdrop : t.dropWhile isBlank = 43 :: (d :: ds ++ back) := by
      refine (takeWhile_dropWhile_iff.mpr ⟨by simpa using htext, hblanks, ?_⟩).2
      rintro b ⟨⟩
      rfl
    rw [hdrop]
    split
    next heq => cases (List.cons.inj heq).1
    next heq =>
      rw [← (List.cons.inj heq).2, hmagnitude]
      rfl
    next hplus => exact absurd rfl (hplus _)

end Text

namespace CommandLine

open Text

/-!
Ports.
-/

def StandsFor (digits : Text) (port : UInt16) : Prop :=
  number digits = port.toNat ∧ 1 ≤ port.toNat ∧ port.toNat ≤ 65535 - 1000

theorem port?_eq_some_iff {t : Text} {port : UInt16}
    : port? t = some port ↔
      ∃ front digits back, Leading t front digits back ∧ StandsFor digits port := by
  have hrange (n : Int) : (0 < n && n ≤ maximumPort) = true ↔ 1 ≤ n ∧ n ≤ 65535 - 1000 := by
    rw [Bool.and_eq_true, decide_eq_true_eq, decide_eq_true_eq, maximumPort]
    omega
  constructor
  . intro h
    unfold port? at h
    split at h
    next => cases h
    next n hn =>
      split at h
      next hfits =>
        rw [hrange] at hfits
        obtain ⟨m, rfl⟩ := Int.eq_ofNat_of_zero_le (show 0 ≤ n by omega)
        have hport : port.toNat = m := by
          rw [← Option.some.inj h]
          simp only [Int.toNat_natCast, Nat.toUInt16_eq, UInt16.toNat_ofNat']
          omega
        obtain ⟨front, digits, back, leading, hnumber⟩ := leading_of_leadingInt? (by omega) hn
        exact ⟨front, digits, back, leading, hnumber.trans hport.symm, by omega, by omega⟩
      next => cases h
  . rintro ⟨front, digits, back, leading, hnumber, hpos, hle⟩
    have hfits : (0 < (port.toNat : Int) && (port.toNat : Int) ≤ maximumPort) = true := by
      rw [hrange]
      omega
    unfold port?
    rw [leadingInt?_of_leading leading, hnumber]
    dsimp only
    rw [if_pos hfits]
    simp

theorem toNat_jobPort {peer : NodeAddress} {digits : Text} (h : StandsFor digits peer.port)
    : peer.jobPort.toNat = peer.port.toNat + 1000 := by
  obtain ⟨-, -, hle⟩ := h
  rw [NodeAddress.jobPort, NodeAddress.jobPortOffset, UInt16.toNat_add]
  simp only [UInt16.reduceToNat]
  omega

/-!
Peers.
-/

theorem cutAtColon?_eq_some_iff {t front back : Text}
    : cutAtColon? t = some (front, back) ↔ t = front ++ 58 :: back ∧ 58 ∉ front := by
  have hnot (front : Text) : 58 ∉ front ↔ ∀ b ∈ front, decide (b ≠ 58) = true := by
    simp only [decide_eq_true_eq]
    exact ⟨fun h b hb heq => h (heq ▸ hb), fun h hmem => h 58 hmem rfl⟩
  have hcut : t = front ++ 58 :: back ∧ 58 ∉ front ↔
      t.takeWhile (· ≠ 58) = front ∧ t.dropWhile (· ≠ 58) = 58 :: back := by
    rw [takeWhile_dropWhile_iff, hnot]
    simp
  rw [hcut]
  unfold cutAtColon?
  rw [List.span_eq_takeWhile_dropWhile]
  split
  next front' b back' heq =>
    obtain ⟨rfl, hback⟩ := Prod.mk.inj heq
    -- what ends the front is a colon
    have hb := (takeWhile_dropWhile_iff.mp ⟨rfl, hback⟩).2.2 b rfl
    obtain rfl : b = 58 := by simpa using hb
    rw [hback, Option.some.injEq, Prod.mk.injEq, List.cons_inj_right]
  next heq =>
    obtain ⟨-, hback⟩ := Prod.mk.inj heq
    rw [hback]
    simp

/--
A text has three fields: an id, a host and whatever stands behind the second colon.
-/
structure HasFields (spec id host field : Text) : Prop where
  text : spec = id ++ 58 :: (host ++ 58 :: field)
  id : id ≠ [] ∧ 58 ∉ id
  host : host ≠ [] ∧ 58 ∉ host

theorem HasFields.unique {spec id host field other : Text} (h : HasFields spec id host field)
    (hother : HasFields spec id host other) : field = other := by
  have htext := h.text.symm.trans hother.text
  simpa using htext

theorem peer?_eq_some_iff {spec : Text} {peer : NodeAddress}
    : peer? spec = some peer ↔
      ∃ field, HasFields spec peer.id peer.host field ∧ port? field = some peer.port := by
  simp only [peer?, Option.bind_eq_bind, Option.bind_eq_some_iff, Prod.exists,
    cutAtColon?_eq_some_iff]
  constructor
  . rintro ⟨id, rest, ⟨rfl, hid⟩, host, field, ⟨rfl, hhost⟩, hpeer⟩
    split at hpeer
    next => cases hpeer
    next hempty =>
      obtain ⟨port, hport, hpeer⟩ := Option.bind_eq_some_iff.mp hpeer
      cases hpeer
      simp only [Bool.or_eq_true, List.isEmpty_iff, not_or] at hempty
      exact ⟨field, ⟨rfl, ⟨hempty.1, hid⟩, hempty.2, hhost⟩, hport⟩
  . rintro ⟨field, fields, hport⟩
    refine ⟨_, _, ⟨fields.text, fields.id.2⟩, _, field, ⟨rfl, fields.host.2⟩, ?_⟩
    have hempty : (peer.id.isEmpty || peer.host.isEmpty) = false := by
      simpa using ⟨fields.id.1, fields.host.1⟩
    rw [hempty, hport]
    rfl

/--
A text names a peer in the form that is asked for: the third field is the port and nothing else.
-/
def Names (spec : Text) (peer : NodeAddress) : Prop :=
  ∃ port, HasFields spec peer.id peer.host port ∧ port ≠ [] ∧ (∀ b ∈ port, isDigit b = true) ∧
    StandsFor port peer.port

theorem names_iff {spec : Text} {peer : NodeAddress}
    : Names spec peer ↔ peer? spec = some peer ∧
        ∃ field, HasFields spec peer.id peer.host field ∧ ∀ b ∈ field, isDigit b = true := by
  rw [peer?_eq_some_iff]
  constructor
  . rintro ⟨port, fields, hne, hdigits, stands⟩
    refine ⟨⟨port, fields, ?_⟩, port, fields, hdigits⟩
    have hfront : ∃ blanks : Text, (∀ b ∈ blanks, isBlank b = true) ∧
        ([] = blanks ∨ [] = blanks ++ [43]) := ⟨[], by simp, .inl rfl⟩
    exact port?_eq_some_iff.mpr
      ⟨[], port, [], ⟨by simp, hfront, ⟨hne, hdigits, by simp⟩⟩, stands⟩
  . rintro ⟨⟨field, fields, hport⟩, other, others, hdigits⟩
    obtain rfl := fields.unique others
    obtain ⟨front, digits, back, leading, stands⟩ := port?_eq_some_iff.mp hport
    obtain rfl := leading.digits_eq hdigits
    exact ⟨digits, fields, leading.run.nonempty, hdigits, stands⟩

/--
A text is taken for a peer exactly if it has three fields and the last one contains the port: blanks
and a plus sign may stand in front of the digits and anything behind them. So what names a peer is
taken for that peer, and if the last field is all digits, nothing else is. The port for jobs is a
port in any case.
-/
theorem peers_taken (spec : Text) (peer : NodeAddress)
    : (peer? spec = some peer ↔ ∃ field front digits back,
        HasFields spec peer.id peer.host field ∧ Leading field front digits back ∧
          StandsFor digits peer.port) ∧
      (Names spec peer ↔ peer? spec = some peer ∧
        ∃ field, HasFields spec peer.id peer.host field ∧ ∀ b ∈ field, isDigit b = true) ∧
      (peer? spec = some peer → peer.jobPort.toNat = peer.port.toNat + 1000) := by
  refine ⟨?_, names_iff, ?_⟩
  . simp only [peer?_eq_some_iff, port?_eq_some_iff, exists_and_left]
  . intro h
    obtain ⟨field, -, hport⟩ := peer?_eq_some_iff.mp h
    obtain ⟨front, digits, back, -, stands⟩ := port?_eq_some_iff.mp hport
    exact toNat_jobPort stands

/--
A letter behind the digits of the port: the text is taken for a peer, and it names none.
-/
theorem taken_with_letter
    : let spec : Text := "n2:127.0.0.1:5002x"
      peer? spec = some ⟨"n2", "127.0.0.1", 5002⟩ ∧ ∀ peer, ¬Names spec peer := by
  intro spec
  have htaken : peer? spec = some ⟨"n2", "127.0.0.1", 5002⟩ := by decide +kernel
  refine ⟨htaken, ?_⟩
  intro peer hnames
  obtain ⟨hpeer, field, fields, hdigits⟩ := names_iff.mp hnames
  obtain rfl := Option.some.inj (htaken.symm.trans hpeer)
  have hfields : HasFields spec "n2" "127.0.0.1" "5002x" :=
    ⟨by decide +kernel, by decide +kernel, by decide +kernel⟩
  rw [fields.unique hfields] at hdigits
  exact absurd (hdigits 120 (by decide +kernel)) (by decide)

end CommandLine

end SnapshotAudit
