import SnapshotAudit.Proofs.Membership.Heard

/-!
This module contains what is recorded of a peer whose processes all count their heartbeats from one.
The largest counter of all is that of the process that was heard most often, so what is recorded is
the hearing with which some process was heard as often for the first time.
-/

namespace SnapshotAudit

structure Letter where
  life : Nat
  datagram : Bytes
deriving DecidableEq

structure Hearing where
  time : Instant
  letter : Letter
deriving DecidableEq

def Hearing.arrival (hearing : Hearing) : Arrival :=
  ⟨hearing.time, hearing.letter.datagram⟩

def lettersOf (life : Nat) (letters : List Letter) : Nat :=
  letters.countP fun letter => letter.life = life

def timesHeard (life : Nat) (heard : List Hearing) : Nat :=
  lettersOf life (heard.map Hearing.letter)

/--
The heartbeats of every process are counted from one.
-/
def Numbered (id : Text) (letters : List Letter) : Prop :=
  ∀ before letter after, letters = before ++ letter :: after →
    ∃ role, letter.datagram =
      (Heartbeat.mk id role (lettersOf letter.life before + 1).toUInt64).datagram

/--
The hearing with which a process was heard as often for the first time as any process has been heard
by now.
-/
def Peak (heard : List Hearing) (hearing : Hearing) : Prop :=
  ∃ before after, heard = before ++ hearing :: after ∧
    (∀ life, timesHeard life before ≤ timesHeard hearing.letter.life before) ∧
    ∀ life, timesHeard life heard ≤ timesHeard hearing.letter.life before + 1

section Letters

variable {id : Text} {letters before after : List Letter} {letter : Letter} {life : Nat}

@[simp]
theorem lettersOf_nil (life : Nat)
    : lettersOf life [] = 0 := rfl

theorem lettersOf_append (life : Nat) (before after : List Letter)
    : lettersOf life (before ++ after) = lettersOf life before + lettersOf life after :=
  List.countP_append

theorem lettersOf_cons (life : Nat) (letter : Letter) (letters : List Letter)
    : lettersOf life (letter :: letters) =
        lettersOf life letters + if letter.life = life then 1 else 0 := by
  simp [lettersOf, List.countP_cons]

theorem exists_last_letter (h : lettersOf life letters ≠ 0)
    : ∃ before letter after, letters = before ++ letter :: after ∧ letter.life = life ∧
        lettersOf life letters = lettersOf life before + 1 := by
  induction letters with
  | nil => simp [lettersOf] at h
  | cons first rest ih =>
    rw [lettersOf_cons] at h ⊢
    by_cases hrest : lettersOf life rest = 0
    . by_cases hfirst : first.life = life
      . exact ⟨[], first, rest, rfl, hfirst, by simp [hrest, hfirst]⟩
      . simp [hrest, hfirst] at h
    . obtain ⟨before, letter, after, rfl, hlife, hcount⟩ := ih hrest
      refine ⟨first :: before, letter, after, rfl, hlife, ?_⟩
      rw [hcount, lettersOf_cons]
      omega

theorem numbered_nil (id : Text)
    : Numbered id [] := by
  intro before letter after h
  simp at h

theorem Numbered.of_append (h : Numbered id (before ++ after))
    : Numbered id before := by
  rintro front letter back rfl
  exact h front letter (back ++ after) (by simp)

theorem Numbered.concat (h : Numbered id letters) {role : Role}
    (hletter : letter.datagram =
      (Heartbeat.mk id role (lettersOf letter.life letters + 1).toUInt64).datagram)
    : Numbered id (letters ++ [letter]) := by
  intro front other back hsplit
  rcases List.eq_nil_or_concat back with rfl | ⟨back, last, rfl⟩
  . obtain ⟨rfl, hlast⟩ := List.append_inj' hsplit rfl
    cases hlast
    exact ⟨role, hletter⟩
  . rw [List.concat_eq_append, ← List.cons_append, ← List.append_assoc] at hsplit
    obtain ⟨rfl, -⟩ := List.append_inj' hsplit rfl
    exact h front other back rfl

end Letters

theorem toUInt64_lt_iff {a b : Nat} (ha : a < 2 ^ 64) (hb : b < 2 ^ 64)
    : a.toUInt64 < b.toUInt64 ↔ a < b := by
  rw [UInt64.lt_iff_toNat_lt, Nat.toUInt64_eq, Nat.toUInt64_eq, UInt64.toNat_ofNat_of_lt' ha,
    UInt64.toNat_ofNat_of_lt' hb]

section Heard

variable {id : Text} {heard before after : List Hearing} {hearing : Hearing} {state : MemberState}

theorem timesHeard_append (life : Nat) (before after : List Hearing)
    : timesHeard life (before ++ after) = timesHeard life before + timesHeard life after := by
  rw [timesHeard, List.map_append, lettersOf_append]
  rfl

theorem timesHeard_cons (life : Nat) (hearing : Hearing) (heard : List Hearing)
    : timesHeard life (hearing :: heard) =
        timesHeard life heard + if hearing.letter.life = life then 1 else 0 := by
  rw [timesHeard, List.map_cons, lettersOf_cons]
  rfl

theorem timesHeard_le_length (life : Nat) (heard : List Hearing)
    : timesHeard life heard ≤ heard.length := by
  have := @List.countP_le_length _ (fun letter : Letter => letter.life = life)
    (heard.map Hearing.letter)
  rwa [List.length_map] at this

theorem exists_last_hearing {life : Nat} (h : timesHeard life heard ≠ 0)
    : ∃ before hearing after, heard = before ++ hearing :: after ∧ hearing.letter.life = life ∧
        timesHeard life heard = timesHeard life before + 1 := by
  obtain ⟨front, letter, back, hsplit, hlife, hcount⟩ := exists_last_letter h
  obtain ⟨before, rest, rfl, rfl, hrest⟩ := List.map_eq_append_iff.mp hsplit
  obtain ⟨hearing, after, rfl, rfl, rfl⟩ := List.map_eq_cons_iff.mp hrest
  exact ⟨before, hearing, after, rfl, hlife, hcount⟩

theorem Numbered.brings_iff (h : Numbered id (heard.map Hearing.letter))
    (hsplit : heard = before ++ hearing :: after)
    : ∃ role, ∀ state, hearing.arrival.Brings id state ↔ id.length + 11 ≤ 1024 ∧
        state = ⟨role, (timesHeard hearing.letter.life before + 1).toUInt64, hearing.time⟩ := by
  obtain ⟨role, hdatagram⟩ := h (before.map Hearing.letter) hearing.letter
    (after.map Hearing.letter) (by simp [hsplit])
  refine ⟨role, fun state => ?_⟩
  have hbrings : id.length + 11 ≤ 1024 → hearing.arrival.Brings id
      ⟨role, (timesHeard hearing.letter.life before + 1).toUInt64, hearing.time⟩ := by
    intro hid
    refine ⟨rfl, ?_⟩
    rw [Hearing.arrival, hdatagram]
    exact Heartbeat.carries_datagram hid
  constructor
  . intro hstate
    have hid : id.length + 11 ≤ 1024 := hstate.2.length_id_le
    exact ⟨hid, hstate.unique (hbrings hid)⟩
  . rintro ⟨hid, rfl⟩
    exact hbrings hid

theorem Numbered.exists_brings (h : Numbered id (heard.map Hearing.letter))
    (hid : id.length + 11 ≤ 1024) (hsplit : heard = before ++ hearing :: after)
    : ∃ state, hearing.arrival.Brings id state := by
  obtain ⟨role, hbrings⟩ := h.brings_iff hsplit
  exact ⟨_, (hbrings _).mpr ⟨hid, rfl⟩⟩

theorem Numbered.lt_iff (h : Numbered id (heard.map Hearing.letter))
    (hlength : heard.length < 2 ^ 64) {before' after' : List Hearing} {hearing' : Hearing}
    {state' : MemberState} (hsplit : heard = before ++ hearing :: after)
    (hsplit' : heard = before' ++ hearing' :: after') (hbrings : hearing.arrival.Brings id state)
    (hbrings' : hearing'.arrival.Brings id state')
    : state.heartbeat < state'.heartbeat ↔
        timesHeard hearing.letter.life before < timesHeard hearing'.letter.life before' := by
  have hshort : ∀ {before hearing after}, heard = before ++ hearing :: after → ∀ life,
      timesHeard life before + 1 < 2 ^ 64 := by
    rintro before hearing after rfl life
    have := timesHeard_le_length life before
    simp only [List.length_append, List.length_cons] at hlength
    omega
  obtain ⟨role, hnumber⟩ := h.brings_iff hsplit
  obtain ⟨role', hnumber'⟩ := h.brings_iff hsplit'
  rw [((hnumber state).mp hbrings).2, ((hnumber' state').mp hbrings').2,
    toUInt64_lt_iff (hshort hsplit _) (hshort hsplit' _)]
  omega

/--
The first of the largest heartbeats is the one with which a process was heard most often for the
first time.
-/
theorem peak_of_leads (h : Numbered id (heard.map Hearing.letter))
    (hlength : heard.length < 2 ^ 64) (hleads : Leads (heard.map Hearing.arrival) id state)
    : ∃ hearing, Peak heard hearing ∧ hearing.arrival.Brings id state := by
  obtain ⟨front, arrival, back, hmap, hbrings, hearlier, hlater⟩ := hleads
  obtain ⟨before, rest, hsplit, rfl, hrest⟩ := List.map_eq_append_iff.mp hmap
  obtain ⟨hearing, after, rfl, rfl, rfl⟩ := List.map_eq_cons_iff.mp hrest
  have hid : id.length + 11 ≤ 1024 := hbrings.2.length_id_le
  refine ⟨hearing, ⟨before, after, hsplit, ?_, ?_⟩, hbrings⟩
  . intro life
    by_cases hzero : timesHeard life before = 0
    . omega
    obtain ⟨before', last, between, hlast, rfl, hcount⟩ := exists_last_hearing hzero
    have hsplit' : heard = before' ++ last :: (between ++ hearing :: after) := by
      simp [hsplit, hlast]
    obtain ⟨known, hknown⟩ := h.exists_brings hid hsplit'
    have hlt := hearlier last.arrival (List.mem_map_of_mem (by simp [hlast])) known hknown
    have := (h.lt_iff hlength hsplit' hsplit hknown hbrings).mp hlt
    omega
  . intro life
    by_cases hzero : timesHeard life heard = 0
    . omega
    obtain ⟨before', last, after', hsplit', rfl, hcount⟩ := exists_last_hearing hzero
    obtain ⟨known, hknown⟩ := h.exists_brings hid hsplit'
    have hle := Leads.le ⟨_, _, _, hmap, hbrings, hearlier, hlater⟩
      (List.mem_map_of_mem (by simp [hsplit'])) hknown
    have := (not_congr (h.lt_iff hlength hsplit hsplit' hbrings hknown)).mp (UInt64.not_lt.mpr hle)
    omega

theorem leads_of_peak (h : Numbered id (heard.map Hearing.letter))
    (hlength : heard.length < 2 ^ 64) (hpeak : Peak heard hearing)
    (hbrings : hearing.arrival.Brings id state)
    : Leads (heard.map Hearing.arrival) id state := by
  obtain ⟨before, after, hsplit, hmost, hnever⟩ := hpeak
  refine ⟨before.map Hearing.arrival, hearing.arrival, after.map Hearing.arrival, by simp [hsplit],
    hbrings, ?_, ?_⟩
  . intro earlier hmem known hknown
    obtain ⟨other, hother, rfl⟩ := List.mem_map.mp hmem
    obtain ⟨front, back, hback⟩ := List.append_of_mem hother
    have hsplit' : heard = front ++ other :: (back ++ hearing :: after) := by simp [hsplit, hback]
    rw [h.lt_iff hlength hsplit' hsplit hknown hbrings]
    have hcount := hmost other.letter.life
    rw [hback, timesHeard_append, timesHeard_cons, if_pos rfl, ← hback] at hcount
    omega
  . intro later hmem known hknown
    obtain ⟨other, hother, rfl⟩ := List.mem_map.mp hmem
    obtain ⟨front, back, hback⟩ := List.append_of_mem hother
    have hsplit' : heard = (before ++ hearing :: front) ++ other :: back := by simp [hsplit, hback]
    rw [← UInt64.not_lt, h.lt_iff hlength hsplit hsplit' hbrings hknown]
    have hcount := hnever other.letter.life
    rw [hsplit', timesHeard_append, timesHeard_cons, if_pos rfl] at hcount
    omega

end Heard

end SnapshotAudit
