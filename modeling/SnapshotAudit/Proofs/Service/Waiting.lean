import SnapshotAudit.Proofs.Service.Bookkeeping

/-!
This module contains that no job of a service waits in vain. One that is parked is going to be told
that something has changed, or the inspection that it waits for has not come to its end. One that
waits for the outcome of an inspection gets it from the job that owns the inspection.
-/

namespace SnapshotAudit

def ServingStep.spontaneous (s : ServingStep) : Bool :=
  match s with
  | .enter _ | .cancel _ | .stir _ => false
  | .retry _ | .ask _ | .release _ | .announce _ | .publish _ | .collect _ | .notify => true

namespace VerifyService

theorem Admitted.pending_contains {service : VerifyService} {request : VerifyRequest}
    {decided : VerifyService × Admission} (h : service.Admitted request decided) {job : UInt64}
    (pending : service.pending.contains job = true) : decided.1.pending.contains job = true := by
  cases h with
  | refused gone => exact pending
  | owns => exact (SortedMap.contains_insert ..).mpr (.inr pending)
  | joins => exact (SortedMap.contains_insert ..).mpr (.inr pending)
  | waits => exact pending

theorem Admitted.running_contains {service : VerifyService} {request : VerifyRequest}
    {decided : VerifyService × Admission} (h : service.Admitted request decided) {snapshot : Text}
    (running : service.running.contains snapshot = true)
    : decided.1.running.contains snapshot = true := by
  cases h with
  | refused gone => exact running
  | owns => exact (SortedMap.contains_insert ..).mpr (.inr running)
  | joins => exact running
  | waits => exact running

end VerifyService

namespace Serving

/--
Those who wait are going to be told that something has changed: by one who cancelled a job, or by
one whose inspection has returned.
-/
def Signalled (serving : Serving) : Prop :=
  serving.notices ≠ 0 ∨ ∃ job ∈ serving.jobs, ∃ id outcome, job.phase = .released id outcome

def Expects (service : VerifyService) (request : VerifyRequest) : Prop :=
  service.pending.contains request.job = true ∧ service.running.contains request.snapshot = true

/--
A job that waits, and is not going to be told anything, has something to wait for.
-/
def Watched (serving : Serving) : Prop :=
  ∀ job ∈ serving.jobs, job.phase = .parked →
    serving.Signalled ∨ Expects serving.service job.request

theorem expects_of_admitted {service : VerifyService} {request : VerifyRequest}
    {decided : VerifyService × Admission} (h : service.Admitted request decided)
    {other : VerifyRequest} (expects : Expects service other) : Expects decided.1 other :=
  ⟨h.pending_contains expects.1, h.running_contains expects.2⟩

theorem expects_of_parked {service : VerifyService} {request : VerifyRequest}
    {decided : VerifyService × Admission} (h : service.Admitted request decided)
    (parked : phaseOf decided.2 = .parked) : Expects decided.1 request := by
  cases h with
  | refused gone => cases parked
  | owns => cases parked
  | joins => cases parked
  | waits pending id running =>
    exact ⟨pending, SortedMap.contains_eq_true_iff.mpr ⟨id, running⟩⟩

theorem not_parked_of_mem_wakeAll {jobs : List ServingJob} {job : ServingJob}
    (h : job ∈ wakeAll jobs) : job.phase ≠ .parked := by
  obtain ⟨⟨request, phase⟩, _, rfl⟩ := List.mem_map.mp h
  cases phase <;> simp

section Step

variable {conduct : Conduct} {node : Text} {past : List Event} {serving next : Serving}
variable {index : Nat} {old new : ServingJob} {service : VerifyService}

theorem Watched.become (h : Watched serving) (found : serving.jobs[index]? = some old)
    (silent : ∀ id outcome, old.phase ≠ .released id outcome)
    (others : ∀ job ∈ serving.jobs, job.phase = .parked → Expects serving.service job.request →
      Expects service job.request)
    (own : new.phase = .parked → Expects service new.request)
    : Watched (serving.become index new service) := by
  intro job hjob hparked
  cases List.mem_or_eq_of_mem_set hjob with
  | inr heq =>
    subst heq
    exact .inr (own hparked)
  | inl hold =>
    rcases h job hold hparked with (howed | ⟨teller, hteller, id, outcome, hreleased⟩) | hexpects
    . exact .inl (.inl howed)
    . -- the one who is about to tell it is another thread
      obtain ⟨i, hi⟩ := List.mem_iff_getElem?.mp hteller
      have hne : i ≠ index := by
        rintro rfl
        obtain rfl := Option.some.inj (hi.symm.trans found)
        exact silent id outcome hreleased
      refine .inl (.inr ⟨teller, ?_, id, outcome, hreleased⟩)
      exact List.mem_of_getElem? ((getElem?_set_eq_some found i teller).mpr (.inr ⟨hne, hi⟩))
    . exact .inr (others job hold hparked hexpects)

theorem watched_of_woken (h : ∀ job ∈ next.jobs, job.phase ≠ .parked) : Watched next :=
  fun job hjob hparked => absurd hparked (h job hjob)

theorem Watched.enter (h : Watched serving) (request : VerifyRequest)
    : Watched { serving with
        service := (serving.service.arrive request).1
        jobs := serving.jobs ++ [⟨request, phaseOf (serving.service.arrive request).2⟩] } := by
  have harrive : (∀ other, Expects serving.service other →
      Expects (serving.service.arrive request).1 other) ∧
      (phaseOf (serving.service.arrive request).2 = .parked →
        Expects (serving.service.arrive request).1 request) := by
    cases hearly : serving.service.cancelledEarly.contains request.job with
    | true =>
      rw [VerifyService.arrive_of_early hearly]
      exact ⟨fun _ hexpects => hexpects, fun hparked => by cases hparked⟩
    | false =>
      rw [VerifyService.arrive_of_unknown hearly]
      have hadmitted := (serving.service.recorded request.job).advance_admitted request
      refine ⟨?_, expects_of_parked hadmitted⟩
      rintro other ⟨hpending, hrunning⟩
      apply expects_of_admitted hadmitted
      exact ⟨(VerifyService.contains_pending_recorded ..).mpr (.inr hpending), hrunning⟩
  obtain ⟨hothers, hown⟩ := harrive
  intro job hjob hparked
  cases List.mem_append.mp hjob with
  | inl hold =>
    rcases h job hold hparked with (howed | ⟨teller, hteller, hreleased⟩) | hexpects
    . exact .inl (.inl howed)
    . exact .inl (.inr ⟨teller, List.mem_append.mpr (.inl hteller), hreleased⟩)
    . exact .inr (hothers job.request hexpects)
  | inr heq =>
    obtain rfl := List.mem_singleton.mp heq
    exact .inr (hown hparked)

theorem Watched.move (h : Watched serving)
    (books : Books (Withdrawn past) serving.service serving.served) {s : ServingStep}
    (move : Move conduct serving s next) : Watched next := by
  cases move with
  | enter request => exact h.enter request
  | stir found => exact h.become found (by simp) (fun _ _ _ hexpects => hexpects) (by simp)
  | @retry index request found =>
    have hadmitted := serving.service.advance_admitted request
    exact h.become found (by simp) (fun _ _ _ => expects_of_admitted hadmitted)
      (expects_of_parked hadmitted)
  | ask found asks => exact h.become found (by simp) (fun _ _ _ hexpects => hexpects) (by simp)
  | @release index request id told outcome found returns =>
    -- the thread that releases the inspection is about to tell
    intro job hjob hparked
    refine .inl (.inr ⟨⟨request, .released id outcome⟩, ?_, id, outcome, rfl⟩)
    exact List.mem_of_getElem? ((getElem?_set_eq_some found index _).mpr (.inl ⟨rfl, rfl⟩))
  | announce found =>
    apply watched_of_woken
    intro job hjob
    cases List.mem_or_eq_of_mem_set hjob with
    | inl hwoken => exact not_parked_of_mem_wakeAll hwoken
    | inr heq => simp [heq]
  | publish found => exact h.become found (by simp) (fun _ _ _ hexpects => hexpects) (by simp)
  | @collect index request id outcome found known =>
    refine h.become found (by simp) ?_ (by simp)
    rintro job hjob hparked ⟨hpending, hrunning⟩
    refine ⟨?_, hrunning⟩
    -- the job that leaves is not the one that waits
    obtain ⟨i, hi⟩ := List.mem_iff_getElem?.mp hjob
    have hne : i ≠ index := by
      rintro rfl
      obtain rfl := Option.some.inj (hi.symm.trans found)
      cases hparked
    have hapart := books.apart i index _ _ (getElem?_served hi) (getElem?_served found) hne
    apply (SortedMap.contains_erase ..).mpr
    refine ⟨hapart.jobs ?_ rfl, hpending⟩
    simp [ServingJob.served, hparked, ServingPhase.outstanding]
  | cancel job =>
    intro other hother hparked
    cases hcancel : (serving.service.cancel job).2 with
    | true => exact .inl (.inl (by simp))
    | false =>
      rcases h other hother hparked with howed | ⟨hpending, hrunning⟩
      . exact .inl (by simpa [Signalled] using howed)
      . have hne : other.request.job ≠ job := by
          rintro rfl
          simp [(VerifyService.cancel_eq_true_iff ..).mpr hpending] at hcancel
        refine .inr ⟨?_, ?_⟩
        . simpa [SortedMap.contains, VerifyService.pending_cancel, hne] using hpending
        . rwa [VerifyService.running_cancel]
  | notify owed => exact watched_of_woken fun job hjob => not_parked_of_mem_wakeAll hjob

theorem Happened.watched (h : Happened conduct node past serving) : Watched serving := by
  induction h with
  | start => exact fun job hjob => nomatch hjob
  | move earlier admissible move ih => exact ih.move earlier.books move

/-!
What this means for the jobs that have not returned.
-/

def Owner (serving : Serving) (id : InspectionId) : Prop :=
  ∃ job ∈ serving.jobs, job.phase.stage.owned? = some id

/--
No job of a service at work is stranded. One that is parked, and is not going to be told anything,
is on record as one that waits, and the inspection that it waits for has not come to its end. One
that waits for an outcome finds it there, or the inspection still has its owner. And as long as any
job has not returned, something can happen that does not need anybody from outside.
-/
structure NotStranded (conduct : Conduct) (serving : Serving) : Prop where
  parked : ∀ job ∈ serving.jobs, job.phase = .parked → ¬serving.Signalled →
    serving.service.pending.get? job.request.job = some none ∧
      ∃ id, serving.service.running.get? job.request.snapshot = some id ∧
        ∃ owner ∈ serving.jobs, owner.request.snapshot = job.request.snapshot ∧
          owner.phase.stage = .inspecting id
  attached : ∀ job ∈ serving.jobs, ∀ id, job.phase = .attached id →
    (∃ outcome, (serving.service.inspections.get? id).bind SharedInspection.result = some outcome) ∨
      serving.Owner id
  goes_on : (∃ job ∈ serving.jobs, job.phase.outstanding = true) →
    ∃ s next, s.spontaneous = true ∧ Move conduct serving s next

theorem Happened.parked (h : Happened conduct node past serving) {job : ServingJob}
    (hjob : job ∈ serving.jobs) (hparked : job.phase = .parked) (quiet : ¬serving.Signalled)
    : serving.service.pending.get? job.request.job = some none ∧
      ∃ id, serving.service.running.get? job.request.snapshot = some id ∧
        ∃ owner ∈ serving.jobs, owner.request.snapshot = job.request.snapshot ∧
          owner.phase.stage = .inspecting id := by
  obtain ⟨hpending, hrunning⟩ := (h.watched job hjob hparked).resolve_left quiet
  obtain ⟨index, hindex⟩ := List.mem_iff_getElem?.mp hjob
  have hqueued : serving.served[index]? = some ⟨job.request, .queued⟩ := by
    simpa [ServingJob.served, hparked, ServingPhase.stage] using getElem?_served hindex
  refine ⟨(h.books.pending_of_queued hqueued hpending).1, ?_⟩
  obtain ⟨id, hid⟩ := SortedMap.contains_eq_true_iff.mp hrunning
  exact ⟨id, hid, (h.registered job.request.snapshot id).mp hid⟩

theorem Happened.attached (h : Happened conduct node past serving) {job : ServingJob}
    (hjob : job ∈ serving.jobs) {id : InspectionId} (hattached : job.phase = .attached id)
    : (∃ outcome,
        (serving.service.inspections.get? id).bind SharedInspection.result = some outcome) ∨
      serving.Owner id := by
  obtain ⟨index, hindex⟩ := List.mem_iff_getElem?.mp hjob
  have hentry : job.served.stage.entry = some (some id) := by
    simp [ServingJob.served, hattached, ServingPhase.stage, Stage.entry]
  obtain ⟨question, result, hknown, _⟩ :=
    h.books.asked index job.served id (getElem?_served hindex) hentry
  cases result with
  | some outcome =>
    refine .inl ⟨outcome, ?_⟩
    obtain ⟨inspection, hget, heq⟩ := Option.map_eq_some_iff.mp hknown
    rw [hget, Option.bind_some]
    exact (Prod.mk.inj heq).2
  | none =>
    obtain ⟨i, a, ha, howned⟩ := h.books.owned id question hknown
    obtain ⟨owner, howner, rfl⟩ := exists_of_getElem?_served ha
    exact .inr ⟨owner, List.mem_of_getElem? howner, howned⟩

theorem goes_on_of_owner {id : InspectionId} (owner : serving.Owner id)
    : ∃ s next, s.spontaneous = true ∧ Move conduct serving s next := by
  obtain ⟨⟨request, phase⟩, hjob, howned⟩ := owner
  obtain ⟨index, found⟩ := List.mem_iff_getElem?.mp hjob
  cases phase with
  | inspecting id told =>
    cases conduct.goes_on request told with
    | inl asks => exact ⟨_, _, rfl, .ask found asks⟩
    | inr returns =>
      obtain ⟨outcome, returns⟩ := returns
      exact ⟨_, _, rfl, .release found returns⟩
  | released id outcome => exact ⟨_, _, rfl, .announce found⟩
  | announced id outcome => exact ⟨_, _, rfl, .publish found⟩
  | parked => cases howned
  | awake => cases howned
  | attached id => cases howned
  | returned outcome => cases howned

theorem goes_on_of_signalled (signalled : serving.Signalled)
    : ∃ s next, s.spontaneous = true ∧ Move conduct serving s next := by
  rcases signalled with owed | ⟨⟨request, phase⟩, hjob, id, outcome, rfl⟩
  . exact ⟨_, _, rfl, .notify owed⟩
  . obtain ⟨index, found⟩ := List.mem_iff_getElem?.mp hjob
    exact ⟨_, _, rfl, .announce found⟩

theorem Happened.goes_on (h : Happened conduct node past serving) {job : ServingJob}
    (hjob : job ∈ serving.jobs) (outstanding : job.phase.outstanding = true)
    : ∃ s next, s.spontaneous = true ∧ Move conduct serving s next := by
  obtain ⟨index, found⟩ := List.mem_iff_getElem?.mp hjob
  obtain ⟨request, phase⟩ := job
  cases phase with
  | parked =>
    by_cases signalled : serving.Signalled
    . exact goes_on_of_signalled signalled
    . obtain ⟨_, id, _, owner, howner, _, hstage⟩ := h.parked hjob rfl signalled
      exact goes_on_of_owner ⟨owner, howner, by rw [hstage]; rfl⟩
  | awake => exact ⟨_, _, rfl, .retry found⟩
  | inspecting id told => exact goes_on_of_owner ⟨_, hjob, rfl⟩
  | released id outcome => exact goes_on_of_owner ⟨_, hjob, rfl⟩
  | announced id outcome => exact goes_on_of_owner ⟨_, hjob, rfl⟩
  | attached id =>
    cases h.attached hjob rfl with
    | inl known =>
      obtain ⟨outcome, known⟩ := known
      exact ⟨_, _, rfl, .collect found known⟩
    | inr owner => exact goes_on_of_owner owner
  | returned outcome => cases outstanding

/--
No job is stranded, whatever happens in a service at work.
-/
theorem notStranded_of_happened (h : Happened conduct node past serving)
    : NotStranded conduct serving where
  parked _ hjob hparked quiet := h.parked hjob hparked quiet
  attached _ hjob _ hattached := h.attached hjob hattached
  goes_on := fun ⟨_, hjob, outstanding⟩ => h.goes_on hjob outstanding

end Step

theorem notStranded_of_happened_pair
    : let inspector : Inspector := ⟨"a", "data"⟩
      let steps : List ServingStep := [.enter ⟨1, "s", 64, []⟩, .enter ⟨2, "s", 128, []⟩,
        .cancel 1, .notify, .retry 1]
      let serving := (start "a").run inspector .empty steps
      serving.jobs = [⟨⟨1, "s", 64, []⟩, .inspecting 0 []⟩, ⟨⟨2, "s", 128, []⟩, .parked⟩] ∧
        ¬serving.Signalled ∧
        ∃ past, Happened (inspector.conduct .empty) "a" past serving ∧
          NotStranded (inspector.conduct .empty) serving := by
  intro inspector steps serving
  have hjobs : serving.jobs =
      [⟨⟨1, "s", 64, []⟩, .inspecting 0 []⟩, ⟨⟨2, "s", 128, []⟩, .parked⟩] := by decide +kernel
  have hnotices : serving.notices = 0 := by decide +kernel
  refine ⟨hjobs, by simp [Signalled, hjobs, hnotices], ?_⟩
  have orderly : (start inspector.node).Orderly inspector .empty steps := by decide +kernel
  obtain ⟨past, h⟩ := happened_run orderly
  exact ⟨past, h, notStranded_of_happened h⟩

end Serving

end SnapshotAudit
