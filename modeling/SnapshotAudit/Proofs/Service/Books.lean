import SnapshotAudit.Proofs.Lists
import SnapshotAudit.Proofs.Service.Moves

/-!
This module contains the books of a service: which jobs are on record, which inspection each of them
is attached to, and which inspections run. In every state of a service at work they agree with what
the threads of the jobs are doing.
-/

namespace SnapshotAudit

inductive Stage where
  | queued
  | inspecting (id : InspectionId)
  /-- Its inspection no longer runs, but the outcome is not known yet. -/
  | closing (id : InspectionId)
  | attached (id : InspectionId)
  | gone

namespace Stage

def entry (stage : Stage) : Option (Option InspectionId) :=
  match stage with
  | .queued => some none
  | .inspecting id | .closing id | .attached id => some (some id)
  | .gone => none

def owned? (stage : Stage) : Option InspectionId :=
  match stage with
  | .inspecting id | .closing id => some id
  | .queued | .attached _ | .gone => none

end Stage

def ServingPhase.stage (phase : ServingPhase) : Stage :=
  match phase with
  | .parked | .awake => .queued
  | .inspecting id _ => .inspecting id
  | .released id _ | .announced id _ => .closing id
  | .attached id => .attached id
  | .returned _ => .gone

structure Served where
  request : VerifyRequest
  stage : Stage

namespace Served

structure Apart (a b : Served) : Prop where
  jobs : a.stage.entry.isSome = true → b.stage.entry.isSome = true → a.request.job ≠ b.request.job
  owners : ∀ id, a.stage.owned? = some id → b.stage.owned? ≠ some id

end Served

/--
The books of a service agree with the jobs that it serves, some of which were withdrawn.
-/
structure Books (withdrawn : Nat → Prop) (service : VerifyService) (served : List Served)
    : Prop where
  apart : ∀ (i j : Nat) (a b : Served),
    served[i]? = some a → served[j]? = some b → i ≠ j → a.Apart b
  pending : ∀ job entry, service.pending.get? job = some entry ↔
    ∃ (i : Nat) (a : Served), served[i]? = some a ∧ ¬withdrawn i ∧ a.request.job = job ∧
      a.stage.entry = some entry
  running : ∀ name id, service.running.get? name = some id ↔
    ∃ (i : Nat) (a : Served), served[i]? = some a ∧ a.request.snapshot = name ∧
      a.stage = .inspecting id
  members : ∀ id job,
    service.isAttached id job = true ↔ service.pending.get? job = some (some id)
  fresh : ∀ id, service.started ≤ id → service.known id = none
  asked : ∀ (i : Nat) (a : Served) id, served[i]? = some a → a.stage.entry = some (some id) →
    ∃ question result, service.known id = some (question, result) ∧
      question.sameQuestion a.request = true ∧
      (a.stage.owned? = some id → question = a.request ∧ result = none)
  owned : ∀ id question, service.known id = some (question, none) →
    ∃ (i : Nat) (a : Served), served[i]? = some a ∧ a.stage.owned? = some id

namespace Books

variable {withdrawn : Nat → Prop} {service : VerifyService} {served : List Served}
variable {index : Nat} {old : Served}

theorem pending_of_served (h : Books withdrawn service served) (found : served[index]? = some old)
    (live : old.stage.entry.isSome = true) (entry : Option InspectionId)
    : service.pending.get? old.request.job = some entry ↔
      ¬withdrawn index ∧ old.stage.entry = some entry := by
  rw [h.pending]
  constructor
  . rintro ⟨i, a, ha, hwithdrawn, hjob, hentry⟩
    by_cases heq : i = index
    . subst heq
      obtain rfl := Option.some.inj (ha.symm.trans found)
      exact ⟨hwithdrawn, hentry⟩
    . exact absurd hjob ((h.apart i index a old ha found heq).jobs (by simp [hentry]) live)
  . rintro ⟨hwithdrawn, hentry⟩
    exact ⟨index, old, found, hwithdrawn, rfl, hentry⟩

theorem job_ne (h : Books withdrawn service served) (found : served[index]? = some old)
    (live : old.stage.entry.isSome = true) (i : Nat) (a : Served) (ha : served[i]? = some a)
    (hne : i ≠ index) (hlive : a.stage.entry.isSome = true) : a.request.job ≠ old.request.job :=
  (h.apart i index a old ha found hne).jobs hlive live

theorem withdrawn_of_gone (h : Books withdrawn service served) (found : served[index]? = some old)
    (live : old.stage.entry.isSome = true)
    (gone : service.pending.contains old.request.job = false) : withdrawn index := by
  apply Classical.byContradiction
  intro stayed
  obtain ⟨entry, hentry⟩ := Option.isSome_iff_exists.mp live
  have hget := (h.pending_of_served found live entry).mpr ⟨stayed, hentry⟩
  simp [SortedMap.contains, hget] at gone

theorem known_of_owner (h : Books withdrawn service served) (found : served[index]? = some old)
    {id : InspectionId} (howned : old.stage.owned? = some id)
    : service.known id = some (old.request, none) := by
  have hentry : old.stage.entry = some (some id) := by
    cases hstage : old.stage <;> simp_all [Stage.owned?, Stage.entry]
  obtain ⟨question, result, hknown, _, howner⟩ := h.asked index old id found hentry
  obtain ⟨hquestion, hresult⟩ := howner howned
  rw [hknown, hquestion, hresult]

section Set

variable {new : Stage} {next : VerifyService}

theorem apart_set (h : Books withdrawn service served) (found : served[index]? = some old)
    (distinct : new.entry.isSome = true → ∀ (i : Nat) (a : Served), served[i]? = some a →
      i ≠ index → a.stage.entry.isSome = true → a.request.job ≠ old.request.job)
    (owners : ∀ id, new.owned? = some id → old.stage.owned? = some id ∨ service.known id = none)
    : ∀ (i j : Nat) (a b : Served), (served.set index ⟨old.request, new⟩)[i]? = some a →
        (served.set index ⟨old.request, new⟩)[j]? = some b → i ≠ j → a.Apart b := by
  have howner {i : Nat} {a : Served} {id : InspectionId} (ha : served[i]? = some a)
      (hne : i ≠ index) (hnew : new.owned? = some id) : a.stage.owned? ≠ some id := by
    intro howned
    cases owners id hnew with
    | inl hold => exact (h.apart i index a old ha found hne).owners id howned hold
    | inr hfresh =>
      -- an inspection that is owned by another job is known, so it cannot be a new one
      simp [h.known_of_owner ha howned] at hfresh
  intro i j a b ha hb hne
  rw [getElem?_set_eq_some found] at ha hb
  rcases ha with ⟨rfl, rfl⟩ | ⟨hi, ha⟩
  . rcases hb with ⟨rfl, _⟩ | ⟨hj, hb⟩
    . exact absurd rfl hne
    . exact ⟨fun hnew hlive => (distinct hnew j b hb hj hlive).symm,
        fun id hnew => howner hb hj hnew⟩
  . rcases hb with ⟨rfl, rfl⟩ | ⟨_, hb⟩
    . exact ⟨fun hlive hnew => distinct hnew i a ha hi hlive,
        fun id howned hnew => howner ha hi hnew howned⟩
    . exact h.apart i j a b ha hb hne

theorem pending_set (h : Books withdrawn service served) (found : served[index]? = some old)
    (distinct : ∀ (i : Nat) (a : Served), served[i]? = some a → i ≠ index →
      a.stage.entry.isSome = true → a.request.job ≠ old.request.job)
    (value : Option (Option InspectionId))
    (hpending : ∀ job, next.pending.get? job =
      if job = old.request.job then value else service.pending.get? job)
    (hvalue : ∀ entry, value = some entry ↔ ¬withdrawn index ∧ new.entry = some entry)
    (job : UInt64) (entry : Option InspectionId)
    : next.pending.get? job = some entry ↔
      ∃ (i : Nat) (a : Served), (served.set index ⟨old.request, new⟩)[i]? = some a ∧ ¬withdrawn i ∧
        a.request.job = job ∧ a.stage.entry = some entry := by
  simp only [getElem?_set_eq_some found]
  rw [hpending]
  split
  next hjob =>
    rw [hvalue]
    constructor
    . rintro ⟨hwithdrawn, hentry⟩
      exact ⟨index, _, .inl ⟨rfl, rfl⟩, hwithdrawn, hjob.symm, hentry⟩
    . rintro ⟨i, a, ⟨rfl, rfl⟩ | ⟨hne, ha⟩, hwithdrawn, hsame, hentry⟩
      . exact ⟨hwithdrawn, hentry⟩
      . exact absurd (hsame.trans hjob) (distinct i a ha hne (by simp [hentry]))
  next hjob =>
    rw [h.pending]
    constructor
    . rintro ⟨i, a, ha, hwithdrawn, hsame, hentry⟩
      have hne : i ≠ index := by
        rintro rfl
        obtain rfl := Option.some.inj (ha.symm.trans found)
        exact hjob hsame.symm
      exact ⟨i, a, .inr ⟨hne, ha⟩, hwithdrawn, hsame, hentry⟩
    . rintro ⟨i, a, ⟨rfl, rfl⟩ | ⟨hne, ha⟩, hwithdrawn, hsame, hentry⟩
      . exact absurd hsame.symm hjob
      . exact ⟨i, a, ha, hwithdrawn, hsame, hentry⟩

theorem pending_kept (h : Books withdrawn service served) (found : served[index]? = some old)
    (live : old.stage.entry.isSome = true) (hpending : next.pending = service.pending)
    (hentry : new.entry = old.stage.entry) (job : UInt64) (entry : Option InspectionId)
    : next.pending.get? job = some entry ↔
      ∃ (i : Nat) (a : Served), (served.set index ⟨old.request, new⟩)[i]? = some a ∧ ¬withdrawn i ∧
        a.request.job = job ∧ a.stage.entry = some entry := by
  apply h.pending_set found (h.job_ne found live) (service.pending.get? old.request.job)
  . intro job
    rw [hpending]
    split
    next heq => rw [heq]
    next => rfl
  . rw [hentry]
    exact h.pending_of_served found live

theorem running_set (h : Books withdrawn service served) (found : served[index]? = some old)
    (hrunning : ∀ name id, next.running.get? name = some id ↔
      (name = old.request.snapshot ∧ new = .inspecting id) ∨
        (service.running.get? name = some id ∧
          ¬(name = old.request.snapshot ∧ old.stage = .inspecting id)))
    (name : Text) (id : InspectionId)
    : next.running.get? name = some id ↔
      ∃ (i : Nat) (a : Served), (served.set index ⟨old.request, new⟩)[i]? = some a ∧
        a.request.snapshot = name ∧ a.stage = .inspecting id := by
  simp only [getElem?_set_eq_some found]
  rw [hrunning, h.running]
  constructor
  . rintro (⟨rfl, hnew⟩ | ⟨⟨i, a, ha, hname, hstage⟩, hnot⟩)
    . exact ⟨index, _, .inl ⟨rfl, rfl⟩, rfl, hnew⟩
    . refine ⟨i, a, .inr ⟨?_, ha⟩, hname, hstage⟩
      rintro rfl
      obtain rfl := Option.some.inj (ha.symm.trans found)
      exact hnot ⟨hname.symm, hstage⟩
  . rintro ⟨i, a, ⟨rfl, rfl⟩ | ⟨hne, ha⟩, hname, hstage⟩
    . exact .inl ⟨hname.symm, hstage⟩
    . refine .inr ⟨⟨i, a, ha, hname, hstage⟩, ?_⟩
      rintro ⟨_, hold⟩
      exact (h.apart i index a old ha found hne).owners id (by rw [hstage]; rfl) (by rw [hold]; rfl)

theorem asked_set (h : Books withdrawn service served) (found : served[index]? = some old)
    (hknown : ∀ id question result, service.known id = some (question, result) →
      ∃ later, next.known id = some (question, later) ∧
        (result = none → old.stage.owned? ≠ some id → later = none))
    (hnew : ∀ id, new.entry = some (some id) →
      ∃ question result, next.known id = some (question, result) ∧
        question.sameQuestion old.request = true ∧
        (new.owned? = some id → question = old.request ∧ result = none))
    (i : Nat) (a : Served) (id : InspectionId)
    (ha : (served.set index ⟨old.request, new⟩)[i]? = some a)
    (hentry : a.stage.entry = some (some id))
    : ∃ question result, next.known id = some (question, result) ∧
        question.sameQuestion a.request = true ∧
        (a.stage.owned? = some id → question = a.request ∧ result = none) := by
  rcases (getElem?_set_eq_some found i a).mp ha with ⟨rfl, rfl⟩ | ⟨hne, ha⟩
  . exact hnew id hentry
  . obtain ⟨question, result, hresult, hsame, howner⟩ := h.asked i a id ha hentry
    obtain ⟨later, hlater, hnone⟩ := hknown id question result hresult
    refine ⟨question, later, hlater, hsame, ?_⟩
    intro howned
    obtain ⟨hquestion, hnothing⟩ := howner howned
    exact ⟨hquestion, hnone hnothing ((h.apart i index a old ha found hne).owners id howned)⟩

theorem owned_set (h : Books withdrawn service served) (found : served[index]? = some old)
    (hknown : ∀ id question, next.known id = some (question, none) → new.owned? = some id ∨
      (service.known id = some (question, none) ∧ old.stage.owned? ≠ some id))
    (id : InspectionId) (question : VerifyRequest) (hresult : next.known id = some (question, none))
    : ∃ (i : Nat) (a : Served), (served.set index ⟨old.request, new⟩)[i]? = some a ∧
        a.stage.owned? = some id := by
  simp only [getElem?_set_eq_some found]
  cases hknown id question hresult with
  | inl hnew => exact ⟨index, _, .inl ⟨rfl, rfl⟩, hnew⟩
  | inr hold =>
    obtain ⟨hold, hother⟩ := hold
    obtain ⟨i, a, ha, howned⟩ := h.owned id question hold
    refine ⟨i, a, .inr ⟨?_, ha⟩, howned⟩
    rintro rfl
    obtain rfl := Option.some.inj (ha.symm.trans found)
    exact hother howned

section Kept

variable (hknown : ∀ id, next.known id = service.known id)
include hknown

theorem fresh_kept (h : Books withdrawn service served) (hstarted : next.started = service.started)
    (id : InspectionId) (hid : next.started ≤ id) : next.known id = none := by
  rw [hknown]
  exact h.fresh id (hstarted ▸ hid)

theorem asked_kept (h : Books withdrawn service served) (found : served[index]? = some old)
    (hnew : ∀ id, new.entry = some (some id) →
      ∃ question result, service.known id = some (question, result) ∧
        question.sameQuestion old.request = true ∧
        (new.owned? = some id → question = old.request ∧ result = none))
    (i : Nat) (a : Served) (id : InspectionId)
    (ha : (served.set index ⟨old.request, new⟩)[i]? = some a)
    (hentry : a.stage.entry = some (some id))
    : ∃ question result, next.known id = some (question, result) ∧
        question.sameQuestion a.request = true ∧
        (a.stage.owned? = some id → question = a.request ∧ result = none) := by
  refine h.asked_set found ?_ ?_ i a id ha hentry
  . intro id question result hold
    exact ⟨result, by rw [hknown, hold], fun hnone _ => hnone⟩
  . intro id hid
    rw [hknown]
    exact hnew id hid

theorem owned_kept (h : Books withdrawn service served) (found : served[index]? = some old)
    (hold : ∀ id, old.stage.owned? = some id → new.owned? = some id)
    (id : InspectionId) (question : VerifyRequest) (hresult : next.known id = some (question, none))
    : ∃ (i : Nat) (a : Served), (served.set index ⟨old.request, new⟩)[i]? = some a ∧
        a.stage.owned? = some id := by
  refine h.owned_set found ?_ id question hresult
  intro id question hnone
  rw [hknown] at hnone
  by_cases howned : old.stage.owned? = some id
  . exact .inl (hold id howned)
  . exact .inr ⟨hnone, howned⟩

end Kept

end Set

/-!
What the steps of the service leave of the books.
-/

section Steps

variable {request : VerifyRequest}

theorem pending_of_queued (h : Books withdrawn service served)
    (found : served[index]? = some ⟨request, .queued⟩)
    (pending : service.pending.contains request.job = true)
    : service.pending.get? request.job = some none ∧ ¬withdrawn index := by
  have hentry (entry : Option InspectionId) := h.pending_of_served found rfl entry
  obtain ⟨entry, hget⟩ := SortedMap.contains_eq_true_iff.mp pending
  have hwithdrawn := ((hentry entry).mp hget).1
  exact ⟨(hentry none).mpr ⟨hwithdrawn, rfl⟩, hwithdrawn⟩

theorem refuse (h : Books withdrawn service served)
    (found : served[index]? = some ⟨request, .queued⟩)
    (gone : service.pending.contains request.job = false)
    : Books withdrawn service (served.set index ⟨request, .gone⟩) where
  apart := h.apart_set found (by simp [Stage.entry]) (by simp [Stage.owned?])
  pending := by
    refine h.pending_set found (h.job_ne found rfl) none ?_ (by simp [Stage.entry])
    intro job
    split
    next heq => simpa [heq, SortedMap.contains] using gone
    next => rfl
  running := h.running_set found (by simp)
  members := h.members
  fresh := h.fresh
  asked := h.asked_kept (fun _ => rfl) found (by simp [Stage.entry])
  owned := h.owned_kept (fun _ => rfl) found (by simp [Stage.owned?])

theorem own (h : Books withdrawn service served)
    (found : served[index]? = some ⟨request, .queued⟩)
    (pending : service.pending.contains request.job = true)
    (free : service.running.get? request.snapshot = none)
    : Books withdrawn ((service.opened request).attach request.job service.started)
      (served.set index ⟨request, .inspecting service.started⟩) := by
  have hpresent : ((service.opened request).inspections.get? service.started).isSome = true := by
    simp [VerifyService.opened]
  have hnone := h.pending_of_queued found pending
  have hfresh := h.fresh service.started (Nat.le_refl _)
  have hknown (id : InspectionId) :
      ((service.opened request).attach request.job service.started).known id =
        if id = service.started then some (request, none) else service.known id := by
    rw [VerifyService.known_attach, VerifyService.known_opened]
  have hpending := (service.opened request).get?_pending_attach request.job service.started
  refine ⟨?_, ?_, ?_, ?_, ?_, ?_, ?_⟩
  . apply h.apart_set found (fun _ => h.job_ne found rfl)
    intro id howned
    obtain rfl : service.started = id := Option.some.inj howned
    exact .inr hfresh
  . apply h.pending_set found (h.job_ne found rfl) _ hpending
    simp [Stage.entry, hnone.2]
  . apply h.running_set found
    intro name id
    change (service.running.insert request.snapshot service.started).get? name = some id ↔ _
    rw [SortedMap.get?_insert_eq]
    split
    next hname => simp [hname, free]
    next hname => simp [hname]
  . intro id job
    rw [VerifyService.isAttached_attach hpresent, VerifyService.isAttached_opened, h.members,
      hpending]
    change _ ↔ (if job = request.job then _ else service.pending.get? job) = some (some id)
    split
    next hjob => simp [hjob, hnone.1, eq_comm]
    next hjob =>
      -- nothing is attached to an inspection before it is started
      have hother (hget : service.pending.get? job = some (some id)) : id ≠ service.started := by
        rintro rfl
        have := (h.members service.started job).mpr hget
        simp [VerifyService.isAttached_of_unknown hfresh] at this
      simp only [hjob, and_false, false_or]
      exact ⟨And.right, fun hget => ⟨hother hget, hget⟩⟩
  . intro id hid
    have hid : service.started + 1 ≤ id := hid
    have hnew : id ≠ service.started := by omega
    rw [hknown, if_neg hnew]
    exact h.fresh id (by omega)
  . apply h.asked_set found
    . intro id question result hresult
      have hne : id ≠ service.started := by
        rintro rfl
        simp [hfresh] at hresult
      exact ⟨result, by rw [hknown, if_neg hne, hresult], fun hnone _ => hnone⟩
    . intro id hnew
      obtain rfl : service.started = id := by simpa [Stage.entry] using hnew
      exact ⟨request, none, by rw [hknown, if_pos rfl],
        VerifyRequest.sameQuestion_self request, fun _ => ⟨rfl, rfl⟩⟩
  . apply h.owned_set found
    intro id question hresult
    rw [hknown] at hresult
    split at hresult
    next heq => exact .inl (by rw [heq]; rfl)
    next => exact .inr ⟨hresult, by simp [Stage.owned?]⟩

theorem join (h : Books withdrawn service served)
    (found : served[index]? = some ⟨request, .queued⟩)
    (pending : service.pending.contains request.job = true) {id : InspectionId}
    {inspection : SharedInspection} (hget : service.inspections.get? id = some inspection)
    (answers : inspection.answers request = true)
    : Books withdrawn (service.attach request.job id)
      (served.set index ⟨request, .attached id⟩) := by
  have hnone := h.pending_of_queued found pending
  have hknown := service.known_attach request.job id
  have hpending := service.get?_pending_attach request.job id
  refine ⟨?_, ?_, ?_, ?_, h.fresh_kept hknown rfl, ?_, ?_⟩
  . exact h.apart_set found (fun _ => h.job_ne found rfl) (by simp [Stage.owned?])
  . apply h.pending_set found (h.job_ne found rfl) _ hpending
    simp [Stage.entry, hnone.2]
  . exact h.running_set found (by simp [VerifyService.attach])
  . intro q job
    rw [VerifyService.isAttached_attach (by simp [hget]), h.members, hpending]
    split
    next hjob => simp [hjob, hnone.1, eq_comm]
    next hjob => simp [hjob]
  . apply h.asked_kept hknown found
    intro q hnew
    obtain rfl : id = q := by simpa [Stage.entry] using hnew
    simp only [SharedInspection.answers, Bool.and_eq_true] at answers
    refine ⟨inspection.question, inspection.result, ?_, answers.2, by simp [Stage.owned?]⟩
    rw [VerifyService.known, hget]
    rfl
  . exact h.owned_kept hknown found (by simp [Stage.owned?])

theorem advance (h : Books withdrawn service served)
    (found : served[index]? = some ⟨request, .queued⟩)
    : Books withdrawn (service.advance request).1
      (served.set index ⟨request, (Serving.phaseOf (service.advance request).2).stage⟩) := by
  have hadmitted := service.advance_admitted request
  generalize service.advance request = decided at hadmitted ⊢
  cases hadmitted with
  | refused gone => exact h.refuse found gone
  | owns pending free => exact h.own found pending free
  | joins pending id running inspection hget answers => exact h.join found pending hget answers
  | waits pending id running other =>
    rwa [Serving.phaseOf, ServingPhase.stage, set_eq_self found]

theorem release (h : Books withdrawn service served) {id : InspectionId}
    (found : served[index]? = some ⟨request, .inspecting id⟩)
    : Books withdrawn (service.release id) (served.set index ⟨request, .closing id⟩) := by
  have hresult : service.known id = some (request, none) := h.known_of_owner found rfl
  have hknown := service.known_release id
  refine ⟨?_, ?_, ?_, ?_, h.fresh_kept hknown (service.started_release id), ?_, ?_⟩
  . exact h.apart_set found (fun _ => h.job_ne found rfl) (fun q howned => .inl howned)
  . exact h.pending_kept found rfl (service.pending_release id) rfl
  . apply h.running_set found
    intro name q
    rw [VerifyService.running_release hresult]
    simp [eq_comm]
  . intro q job
    rw [VerifyService.isAttached_release, VerifyService.pending_release]
    exact h.members q job
  . apply h.asked_kept hknown found
    intro q hnew
    obtain rfl : id = q := by simpa [Stage.entry] using hnew
    exact ⟨request, none, hresult, VerifyRequest.sameQuestion_self request,
      fun _ => ⟨rfl, rfl⟩⟩
  . exact h.owned_kept hknown found fun q howned => howned

theorem publish (h : Books withdrawn service served) {id : InspectionId} (outcome : NodeOutcome)
    (found : served[index]? = some ⟨request, .closing id⟩)
    : Books withdrawn (service.publish id outcome) (served.set index ⟨request, .attached id⟩) := by
  have hresult : service.known id = some (request, none) := h.known_of_owner found rfl
  have hknown := service.known_publish id outcome
  refine ⟨?_, ?_, ?_, ?_, ?_, ?_, ?_⟩
  . exact h.apart_set found (fun _ => h.job_ne found rfl) (by simp [Stage.owned?])
  . exact h.pending_kept found rfl rfl rfl
  . exact h.running_set found (by simp [VerifyService.publish])
  . intro q job
    rw [VerifyService.isAttached_publish]
    exact h.members q job
  . intro q hq
    rw [hknown, h.fresh q hq]
    simp
  . apply h.asked_set found
    . intro q question result hold
      rw [hknown, hold]
      split
      next heq => exact ⟨some outcome, rfl, fun _ hother => absurd (by rw [heq]; rfl) hother⟩
      next => exact ⟨result, rfl, fun hnone _ => hnone⟩
    . intro q hnew
      obtain rfl : id = q := by simpa [Stage.entry] using hnew
      exact ⟨request, some outcome, by rw [hknown, if_pos rfl, hresult]; rfl,
        VerifyRequest.sameQuestion_self request, by simp [Stage.owned?]⟩
  . apply h.owned_set found
    intro q question hnone
    rw [hknown] at hnone
    split at hnone
    next => simp at hnone
    next hne => exact .inr ⟨hnone, by simpa [Stage.owned?, eq_comm] using hne⟩

theorem leave (h : Books withdrawn service served) {id : InspectionId} (outcome : NodeOutcome)
    (found : served[index]? = some ⟨request, .attached id⟩)
    : Books withdrawn (service.leave request.job id outcome).1
      (served.set index ⟨request, .gone⟩) := by
  have hknown := service.known_leave request.job id outcome
  have hpending (job : UInt64) : (service.leave request.job id outcome).1.pending.get? job =
      if job = request.job then none else service.pending.get? job := SortedMap.get?_erase_eq ..
  refine ⟨?_, ?_, ?_, ?_, h.fresh_kept hknown rfl, ?_, ?_⟩
  . exact h.apart_set found (by simp [Stage.entry]) (by simp [Stage.owned?])
  . exact h.pending_set found (h.job_ne found rfl) none hpending (by simp [Stage.entry])
  . exact h.running_set found (by simp [VerifyService.leave])
  . intro q job
    rw [VerifyService.isAttached_erase id request.job rfl, hpending, h.members]
    split
    next heq =>
      -- what was on record for the job is the inspection that it leaves
      have hentry := (h.pending_of_served found rfl (some q)).mp
      simp only [Stage.entry, Option.some.injEq] at hentry
      subst heq
      constructor
      . rintro ⟨hnot, hget⟩
        exact absurd ⟨(hentry hget).2.symm, rfl⟩ hnot
      . intro hnone
        cases hnone
    next hne => simp [hne]
  . exact h.asked_kept hknown found (by simp [Stage.entry])
  . exact h.owned_kept hknown found (by simp [Stage.owned?])

theorem cancel (h : Books withdrawn service served) (job : UInt64)
    : Books
        (fun i => withdrawn i ∨ ((service.cancel job).2 = true ∧
          ∃ a, served[i]? = some a ∧ a.stage.entry.isSome = true ∧ a.request.job = job))
        (service.cancel job).1 served := by
  have hknown := service.known_cancel job
  refine ⟨h.apart, ?_, ?_, ?_, ?_, ?_, ?_⟩
  . intro k entry
    rw [VerifyService.pending_cancel, VerifyService.cancel_eq_true_iff]
    split
    next heq =>
      subst heq
      constructor
      . intro hnone
        cases hnone
      . rintro ⟨i, a, ha, hwithdrawn, hjob, hentry⟩
        simp only [not_or] at hwithdrawn
        have hget := (h.pending k entry).mpr ⟨i, a, ha, hwithdrawn.1, hjob, hentry⟩
        have hcontains := SortedMap.contains_eq_true_iff.mpr ⟨entry, hget⟩
        exact absurd ⟨hcontains, a, ha, by simp [hentry], hjob⟩ hwithdrawn.2
    next hne =>
      rw [h.pending]
      constructor
      . rintro ⟨i, a, ha, hwithdrawn, hjob, hentry⟩
        refine ⟨i, a, ha, ?_, hjob, hentry⟩
        rintro (hold | ⟨_, b, hb, _, hsame⟩)
        . exact hwithdrawn hold
        . obtain rfl := Option.some.inj (ha.symm.trans hb)
          exact hne (hjob.symm.trans hsame)
      . rintro ⟨i, a, ha, hwithdrawn, hjob, hentry⟩
        exact ⟨i, a, ha, fun hold => hwithdrawn (.inl hold), hjob, hentry⟩
  . rw [VerifyService.running_cancel]
    exact h.running
  . intro id k
    rw [VerifyService.isAttached_cancel, VerifyService.pending_cancel, h.members]
    split
    next heq =>
      subst heq
      simp
    next hne => simp [hne]
  . intro id hid
    rw [hknown]
    exact h.fresh id (service.started_cancel job ▸ hid)
  . intro i a id ha hentry
    simp only [hknown]
    exact h.asked i a id ha hentry
  . intro id question hnone
    rw [hknown] at hnone
    exact h.owned id question hnone

theorem turnAway (h : Books withdrawn service served) (early : SortedSet UInt64)
    : Books withdrawn { service with cancelledEarly := early } (served ++ [⟨request, .gone⟩]) := by
  have hold {i : Nat} {a : Served} (ha : (served ++ [⟨request, .gone⟩])[i]? = some a)
      (live : a.stage.entry.isSome = true ∨ a.stage.owned?.isSome = true)
      : served[i]? = some a := by
    rcases (getElem?_append_singleton ..).mp ha with ⟨rfl, rfl⟩ | ha
    . simp [Stage.entry, Stage.owned?] at live
    . exact ha
  have hnew {i : Nat} {a : Served} (ha : served[i]? = some a) :
      (served ++ [⟨request, .gone⟩])[i]? = some a :=
    (getElem?_append_singleton ..).mpr (.inr ha)
  refine ⟨?_, ?_, ?_, h.members, h.fresh, ?_, ?_⟩
  . intro i j a b ha hb hne
    refine ⟨?_, ?_⟩
    . intro hlive hother
      exact (h.apart i j a b (hold ha (.inl hlive)) (hold hb (.inl hother)) hne).jobs hlive hother
    . intro id howned hother
      exact (h.apart i j a b (hold ha (.inr (by simp [howned]))) (hold hb (.inr (by simp [hother])))
        hne).owners id howned hother
  . intro job entry
    rw [h.pending]
    constructor
    . rintro ⟨i, a, ha, hrest⟩
      exact ⟨i, a, hnew ha, hrest⟩
    . rintro ⟨i, a, ha, hwithdrawn, hjob, hentry⟩
      exact ⟨i, a, hold ha (.inl (by simp [hentry])), hwithdrawn, hjob, hentry⟩
  . intro name id
    rw [h.running]
    constructor
    . rintro ⟨i, a, ha, hrest⟩
      exact ⟨i, a, hnew ha, hrest⟩
    . rintro ⟨i, a, ha, hname, hstage⟩
      exact ⟨i, a, hold ha (.inl (by simp [hstage, Stage.entry])), hname, hstage⟩
  . intro i a id ha hentry
    exact h.asked i a id (hold ha (.inl (by simp [hentry]))) hentry
  . intro id question hnone
    obtain ⟨i, a, ha, howned⟩ := h.owned id question hnone
    exact ⟨i, a, hnew ha, howned⟩

theorem enqueue (h : Books withdrawn service served)
    (found : served[index]? = some ⟨request, .gone⟩) (new : ¬withdrawn index)
    (distinct : ∀ (i : Nat) (a : Served), served[i]? = some a → i ≠ index →
      a.stage.entry.isSome = true → a.request.job ≠ request.job)
    : Books withdrawn (service.recorded request.job) (served.set index ⟨request, .queued⟩) := by
  have hpending := service.get?_pending_recorded request.job
  have hunknown : service.pending.get? request.job = none := by
    rw [Option.eq_none_iff_forall_not_mem]
    intro entry hentry
    obtain ⟨i, a, ha, _, hjob, hentry⟩ := (h.pending request.job entry).mp hentry
    refine distinct i a ha ?_ (by simp [hentry]) hjob
    rintro rfl
    obtain rfl := Option.some.inj (ha.symm.trans found)
    cases hentry
  refine ⟨?_, ?_, ?_, ?_, h.fresh, ?_, ?_⟩
  . exact h.apart_set found (fun _ => distinct) (by simp [Stage.owned?])
  . exact h.pending_set found distinct (some none) hpending (by simp [Stage.entry, new])
  . exact h.running_set found (by simp [VerifyService.recorded])
  . intro id job
    rw [hpending]
    refine (h.members id job).trans ?_
    split
    next heq => simp [heq, hunknown]
    next => rfl
  . exact h.asked_kept (fun _ => rfl) found (by simp [Stage.entry])
  . exact h.owned_kept (fun _ => rfl) found (by simp [Stage.owned?])

theorem arrive (h : Books withdrawn service served) (new : ¬withdrawn served.length)
    (distinct : ∀ a ∈ served, a.stage.entry.isSome = true → a.request.job ≠ request.job)
    : Books withdrawn (service.arrive request).1
      (served ++ [⟨request, (Serving.phaseOf (service.arrive request).2).stage⟩]) := by
  cases hearly : service.cancelledEarly.contains request.job with
  | true =>
    rw [VerifyService.arrive_of_early hearly]
    exact h.turnAway _
  | false =>
    rw [VerifyService.arrive_of_unknown hearly]
    -- first it comes as one that nothing is on record for
    have hcome : Books withdrawn service (served ++ [⟨request, .gone⟩]) :=
      h.turnAway service.cancelledEarly
    have hgone : (served ++ [⟨request, .gone⟩])[served.length]? = some ⟨request, .gone⟩ :=
      List.getElem?_concat_length
    have hrecorded : Books withdrawn (service.recorded request.job)
        (served ++ [⟨request, .queued⟩]) := by
      have henqueue := hcome.enqueue hgone new ?_
      . simpa using henqueue
      . intro i a ha hne hlive
        rcases (getElem?_append_singleton ..).mp ha with ⟨heq, _⟩ | ha
        . exact absurd heq hne
        . exact distinct a (List.mem_of_getElem? ha) hlive
    have hadvance := hrecorded.advance List.getElem?_concat_length
    simpa using hadvance

end Steps

end Books

end SnapshotAudit
