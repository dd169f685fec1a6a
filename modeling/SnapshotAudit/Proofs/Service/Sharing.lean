import SnapshotAudit.Layout.Snapshot
import SnapshotAudit.Proofs.Service.Bookkeeping

/-!
This module contains that nobody notices that an inspection is shared. A job that is not cancelled
gets the outcome of one inspection that was asked its question, that ran while the job was there and
that was never told to stop, whatever becomes of the other jobs. A job that is cancelled is told so.
-/

namespace SnapshotAudit

namespace VerifyService

theorem stopped_iff {service : VerifyService} {id : InspectionId}
    : service.stopped id = true ↔ ∀ job, service.isAttached id job ≠ true := by
  unfold stopped isAttached
  cases service.inspections.get? id with
  | none => simp
  | some inspection =>
    simp only [Option.all_some, Option.any_some]
    constructor
    . intro hempty job
      simp [SortedMap.contains, SortedMap.get?_eq_none_of_isEmpty hempty]
    . intro hnobody
      have heq : inspection.jobs = .empty := SortedMap.eq_empty_of_get? fun job => by
        simpa [SortedMap.contains] using hnobody job
      rw [heq]
      rfl

theorem cancelledOutcome_congr {service next : VerifyService} (h : next.node = service.node)
    (job : UInt64) (moment : Text)
    : next.cancelledOutcome job moment = service.cancelledOutcome job moment := by
  simp [cancelledOutcome, h]

structure Settled (service next : VerifyService) : Prop where
  node : next.node = service.node
  stopped : ∀ id, (service.known id).isSome = true → service.stopped id = true →
    next.stopped id = true

theorem settled_of_isAttached {service next : VerifyService} (hnode : next.node = service.node)
    (h : ∀ id job, next.isAttached id job = true → service.isAttached id job = true)
    : Settled service next := by
  refine ⟨hnode, ?_⟩
  intro id _ hstopped
  rw [stopped_iff] at hstopped ⊢
  exact fun job hattached => hstopped job (h id job hattached)

theorem settled_self (service : VerifyService) : Settled service service :=
  settled_of_isAttached rfl fun _ _ hattached => hattached

theorem Admitted.settled {service : VerifyService} {request : VerifyRequest}
    {decided : VerifyService × Admission} (h : service.Admitted request decided)
    (fresh : service.known service.started = none) : Settled service decided.1 := by
  cases h with
  | refused gone => exact settled_self service
  | owns pending free =>
    refine ⟨rfl, ?_⟩
    intro id hknown hstopped
    have hold : id ≠ service.started := by
      rintro rfl
      simp [fresh] at hknown
    rw [stopped_iff] at hstopped ⊢
    intro job hattached
    rw [isAttached_attach (by simp [opened]), isAttached_opened] at hattached
    rcases hattached with ⟨heq, _⟩ | ⟨_, hattached⟩
    . exact hold heq
    . exact hstopped job hattached
  | joins pending id running inspection found answers =>
    refine ⟨rfl, ?_⟩
    intro other _ hstopped
    -- one that is to stop answers nothing, so it is not the one that is joined
    have hother : other ≠ id := by
      rintro rfl
      simp only [SharedInspection.answers, Bool.and_eq_true, Bool.not_eq_true'] at answers
      simp [stopped, found, answers.1] at hstopped
    rw [stopped_iff] at hstopped ⊢
    intro job hattached
    rw [isAttached_attach (by simp [found])] at hattached
    rcases hattached with ⟨heq, _⟩ | hattached
    . exact hother heq
    . exact hstopped job hattached
  | waits => exact settled_self service

theorem settled_arrive {service : VerifyService} (fresh : service.known service.started = none)
    (request : VerifyRequest) : Settled service (service.arrive request).1 := by
  cases hearly : service.cancelledEarly.contains request.job with
  | true =>
    rw [arrive_of_early hearly]
    exact settled_of_isAttached rfl fun _ _ hattached => hattached
  | false =>
    rw [arrive_of_unknown hearly]
    have hsettled := ((service.recorded request.job).advance_admitted request).settled fresh
    exact ⟨hsettled.node, hsettled.stopped⟩

theorem settled_release (service : VerifyService) (id : InspectionId)
    : Settled service (service.release id) := by
  apply settled_of_isAttached
  . unfold release
    split <;> rfl
  . intro other job
    rw [isAttached_release]
    exact fun hattached => hattached

theorem settled_publish (service : VerifyService) (id : InspectionId) (outcome : NodeOutcome)
    : Settled service (service.publish id outcome) := by
  refine settled_of_isAttached (by rfl) ?_
  intro other job
  rw [isAttached_publish]
  exact fun hattached => hattached

theorem settled_leave (service : VerifyService) (job : UInt64) (id : InspectionId)
    (outcome : NodeOutcome) : Settled service (service.leave job id outcome).1 := by
  refine settled_of_isAttached (by rfl) ?_
  intro other k hattached
  exact ((isAttached_erase id job rfl other k).mp hattached).2

theorem settled_cancel (service : VerifyService) (job : UInt64)
    : Settled service (service.cancel job).1 := by
  apply settled_of_isAttached
  . unfold cancel
    split <;> rfl
  . intro other k hattached
    exact ((isAttached_cancel service job other k).mp hattached).2

/-!
No result becomes known unless it is made known.
-/

theorem Admitted.known_result {service : VerifyService} {request : VerifyRequest}
    {decided : VerifyService × Admission} (h : service.Admitted request decided)
    {id : InspectionId} {question : VerifyRequest} {outcome : NodeOutcome}
    (hknown : decided.1.known id = some (question, some outcome))
    : service.known id = some (question, some outcome) := by
  cases h with
  | refused gone => exact hknown
  | owns pending free =>
    rw [known_attach, known_opened] at hknown
    split at hknown
    next => simp at hknown
    next => exact hknown
  | joins => rwa [known_attach] at hknown
  | waits => exact hknown

theorem known_result_of_arrive {service : VerifyService} {request : VerifyRequest}
    {id : InspectionId} {question : VerifyRequest} {outcome : NodeOutcome}
    (hknown : (service.arrive request).1.known id = some (question, some outcome))
    : service.known id = some (question, some outcome) := by
  cases hearly : service.cancelledEarly.contains request.job with
  | true => rwa [arrive_of_early hearly] at hknown
  | false =>
    rw [arrive_of_unknown hearly] at hknown
    exact ((service.recorded request.job).advance_admitted request).known_result hknown

end VerifyService

namespace Serving

theorem Move.settled {conduct : Conduct} {serving next : Serving} {s : ServingStep}
    (move : Move conduct serving s next)
    (fresh : serving.service.known serving.service.started = none)
    : VerifyService.Settled serving.service next.service := by
  cases move with
  | enter request => exact VerifyService.settled_arrive fresh request
  | @retry _ request => exact (VerifyService.advance_admitted _ request).settled fresh
  | release => exact VerifyService.settled_release ..
  | publish => exact VerifyService.settled_publish ..
  | @collect _ _ _ outcome => exact VerifyService.settled_leave _ _ _ outcome
  | cancel job => exact VerifyService.settled_cancel ..
  | stir => exact VerifyService.settled_self _
  | ask => exact VerifyService.settled_self _
  | announce => exact VerifyService.settled_self _
  | notify => exact VerifyService.settled_self _

theorem Move.known_result {conduct : Conduct} {serving next : Serving} {s : ServingStep}
    (move : Move conduct serving s next) {id : InspectionId} {question : VerifyRequest}
    {outcome : NodeOutcome} (hknown : next.service.known id = some (question, some outcome))
    : serving.service.known id = some (question, some outcome) ∨
      ∃ (i : Nat) (request : VerifyRequest) (result : Option NodeOutcome),
        serving.jobs[i]? = some ⟨request, .announced id outcome⟩ ∧
        serving.service.known id = some (question, result) := by
  cases move with
  | enter request => exact .inl (VerifyService.known_result_of_arrive hknown)
  | @retry _ request => exact .inl ((VerifyService.advance_admitted _ request).known_result hknown)
  | release => exact .inl (VerifyService.known_release .. ▸ hknown)
  | @publish index request own found hfound =>
    change (serving.service.publish own found).known id = _ at hknown
    rw [VerifyService.known_publish] at hknown
    split at hknown
    next heq =>
      subst heq
      obtain ⟨⟨_, result⟩, hget, hpublished⟩ := Option.map_eq_some_iff.mp hknown
      obtain ⟨rfl, rfl⟩ : _ = question ∧ found = outcome := by simpa using hpublished
      exact .inr ⟨index, request, result, hfound, hget⟩
    next => exact .inl hknown
  | @collect _ _ _ outcome => exact .inl (VerifyService.known_leave _ _ _ outcome _ ▸ hknown)
  | cancel job => exact .inl (VerifyService.known_cancel .. ▸ hknown)
  | stir => exact .inl hknown
  | ask => exact .inl hknown
  | announce => exact .inl hknown
  | notify => exact .inl hknown

/-!
How the jobs of a service come by their outcomes.
-/

/--
A job was turned away: it came, its cancellation had come first, and that is used up.
-/
def TurnedAway (past : List Event) (index : Nat) : Prop :=
  ∃ event ∈ past, ∃ request, event.step = .enter request ∧ event.before.jobs.length = index ∧
    event.before.service.cancelledEarly.contains request.job = true ∧
    event.after.service.cancelledEarly.contains request.job = false

def Attended (past : List Event) (index : Nat) (snapshot : Text) (id : InspectionId) : Prop :=
  ∃ event ∈ past, index < event.after.jobs.length ∧
    event.after.service.running.get? snapshot = some id

def Ended (conduct : Conduct) (past : List Event) (id : InspectionId) (question : VerifyRequest)
    (told : List Bool) (outcome : NodeOutcome) : Prop :=
  conduct.returns question told outcome ∧ ∃ event ∈ past, ∃ index,
    event.step = .release index ∧
    event.before.jobs[index]? = some ⟨question, .inspecting id told⟩ ∧
    event.after.jobs[index]? = some ⟨question, .released id outcome⟩

/--
A job got the outcome of one inspection, which was asked its question, ran while the job was there
and was never told to stop.
-/
def Shared (conduct : Conduct) (past : List Event) (index : Nat) (request : VerifyRequest)
    (outcome : NodeOutcome) : Prop :=
  ∃ id question told,
    (question.snapshot = request.snapshot ∧ question.pageSize = request.pageSize ∧
      question.groups = request.groups) ∧
    Attended past index request.snapshot id ∧ Ended conduct past id question told outcome ∧
    true ∉ told

inductive Answered (conduct : Conduct) (past : List Event) (service : VerifyService) (index : Nat)
    (request : VerifyRequest) (outcome : NodeOutcome) : Prop where
  | turnedAway (early : TurnedAway past index)
    (refused : outcome = service.cancelledOutcome request.job "before it started")
  | withdrawn (withdrawn : Withdrawn past index)
    (refused : outcome = service.cancelledOutcome request.job "while queued" ∨
      outcome = service.cancelledOutcome request.job "while running")
  | shared (came : ¬TurnedAway past index) (stayed : ¬Withdrawn past index)
    (shared : Shared conduct past index request outcome)

def Settles (conduct : Conduct) (past : List Event) (service : VerifyService) (id : InspectionId)
    (question : VerifyRequest) (outcome : NodeOutcome) : Prop :=
  ∃ told, Ended conduct past id question told outcome ∧
    (true ∈ told → service.stopped id = true)

def Accounted (conduct : Conduct) (past : List Event) (service : VerifyService) (index : Nat)
    (job : ServingJob) : Prop :=
  match job.phase with
  | .parked | .awake => ¬TurnedAway past index
  | .inspecting id told => ¬TurnedAway past index ∧ Attended past index job.request.snapshot id ∧
      (true ∈ told → service.stopped id = true)
  | .released id outcome | .announced id outcome =>
    ¬TurnedAway past index ∧ Attended past index job.request.snapshot id ∧
      Settles conduct past service id job.request outcome
  | .attached id => ¬TurnedAway past index ∧ Attended past index job.request.snapshot id
  | .returned outcome => Answered conduct past service index job.request outcome

/--
Everything that jobs and inspections have come to is explained by what has happened.
-/
structure Explained (conduct : Conduct) (past : List Event) (serving : Serving) : Prop where
  jobs : ∀ (i : Nat) (job : ServingJob), serving.jobs[i]? = some job →
    Accounted conduct past serving.service i job
  results : ∀ id question outcome,
    serving.service.known id = some (question, some outcome) →
      Settles conduct past serving.service id question outcome

section Step

variable {conduct : Conduct} {node : Text} {past : List Event} {serving next : Serving}
variable {s : ServingStep} {index : Nat}

theorem turnedAway_append (event : Event) (index : Nat)
    : TurnedAway (past ++ [event]) index ↔ TurnedAway past index ∨ TurnedAway [event] index := by
  simp only [TurnedAway, List.mem_append, or_and_right, exists_or]

theorem turnedAway_of_present (past : List Event) {event : Event}
    (present : index < event.before.jobs.length)
    : TurnedAway (past ++ [event]) index ↔ TurnedAway past index := by
  rw [turnedAway_append, or_iff_left]
  rintro ⟨e, he, request, _, hindex, _⟩
  rw [List.mem_singleton.mp he] at hindex
  omega

theorem withdrawn_of_returned {event : Event} {request : VerifyRequest} {outcome : NodeOutcome}
    (returned : event.before.jobs[index]? = some ⟨request, .returned outcome⟩)
    : Withdrawn (past ++ [event]) index ↔ Withdrawn past index := by
  rw [withdrawn_append, or_iff_left]
  rintro ⟨e, he, job, hjob, houtstanding, _⟩
  rw [List.mem_singleton.mp he, returned] at hjob
  obtain rfl := Option.some.inj hjob
  cases houtstanding

theorem Happened.not_turnedAway (h : Happened conduct node past serving)
    : ¬TurnedAway past serving.jobs.length := by
  have hentered : ∀ event ∈ past, ∀ request, event.step = .enter request →
      event.before.jobs.length < serving.jobs.length := by
    induction h with
    | start => simp
    | move earlier admissible move ih =>
      intro event hevent request hstep
      cases List.mem_append.mp hevent with
      | inl hold => exact Nat.lt_of_lt_of_le (ih event hold request hstep) move.length_le
      | inr hnew =>
        obtain rfl := List.mem_singleton.mp hnew
        obtain rfl := hstep
        cases move
        simp
  rintro ⟨event, hevent, request, hstep, hindex, _⟩
  have := hentered event hevent request hstep
  omega

theorem Attended.append {snapshot : Text} {id : InspectionId}
    (h : Attended past index snapshot id) (event : Event)
    : Attended (past ++ [event]) index snapshot id := by
  obtain ⟨e, he, hrest⟩ := h
  exact ⟨e, List.mem_append_left _ he, hrest⟩

theorem Ended.append {id : InspectionId} {question : VerifyRequest} {told : List Bool}
    {outcome : NodeOutcome} (h : Ended conduct past id question told outcome) (event : Event)
    : Ended conduct (past ++ [event]) id question told outcome := by
  obtain ⟨hreturns, e, he, hrest⟩ := h
  exact ⟨hreturns, e, List.mem_append_left _ he, hrest⟩

theorem Settles.move {id : InspectionId} {question : VerifyRequest} {outcome : NodeOutcome}
    (h : Settles conduct past serving.service id question outcome)
    (settled : VerifyService.Settled serving.service next.service)
    (known : (serving.service.known id).isSome = true) (event : Event)
    : Settles conduct (past ++ [event]) next.service id question outcome := by
  obtain ⟨told, hended, hstopped⟩ := h
  exact ⟨told, hended.append event, fun htold => settled.stopped id known (hstopped htold)⟩

theorem Answered.move {request : VerifyRequest} {outcome : NodeOutcome}
    (h : Answered conduct past serving.service index request outcome)
    (present : index < serving.jobs.length)
    (hwithdrawn : Withdrawn (past ++ [⟨serving, s, next⟩]) index ↔ Withdrawn past index)
    (settled : VerifyService.Settled serving.service next.service)
    : Answered conduct (past ++ [⟨serving, s, next⟩]) next.service index request outcome := by
  have hcancelled := VerifyService.cancelledOutcome_congr settled.node request.job
  have hturned : TurnedAway (past ++ [⟨serving, s, next⟩]) index ↔ TurnedAway past index :=
    turnedAway_of_present past present
  cases h with
  | turnedAway early refused =>
    refine .turnedAway (hturned.mpr early) ?_
    rwa [hcancelled]
  | withdrawn withdrawn refused =>
    refine .withdrawn (hwithdrawn.mpr withdrawn) ?_
    rwa [hcancelled, hcancelled]
  | shared came stayed shared =>
    obtain ⟨id, question, told, hsame, hattended, hended, htold⟩ := shared
    exact .shared (fun early => came (hturned.mp early)) (fun gone => stayed (hwithdrawn.mp gone))
      ⟨id, question, told, hsame, hattended.append _, hended.append _, htold⟩

theorem Accounted.move {job : ServingJob}
    (h : Accounted conduct past serving.service index job)
    (found : serving.jobs[index]? = some job)
    (books : Books (Withdrawn past) serving.service serving.served)
    (settled : VerifyService.Settled serving.service next.service)
    : Accounted conduct (past ++ [⟨serving, s, next⟩]) next.service index job := by
  have present : index < serving.jobs.length := (List.getElem?_eq_some_iff.mp found).1
  have hstill (came : ¬TurnedAway past index) : ¬TurnedAway (past ++ [⟨serving, s, next⟩]) index :=
    fun early => came ((turnedAway_of_present past present).mp early)
  have hknown {id : InspectionId} (hentry : job.phase.stage.entry = some (some id)) :
      (serving.service.known id).isSome = true := by
    obtain ⟨question, result, hknown, _⟩ :=
      books.asked index job.served id (getElem?_served found) hentry
    simp [hknown]
  obtain ⟨request, phase⟩ := job
  cases phase with
  | parked => exact hstill h
  | awake => exact hstill h
  | inspecting id told =>
    obtain ⟨hcame, hattended, hstopped⟩ := h
    exact ⟨hstill hcame, hattended.append _,
      fun htold => settled.stopped id (hknown rfl) (hstopped htold)⟩
  | released id outcome =>
    obtain ⟨hcame, hattended, hsettles⟩ := h
    exact ⟨hstill hcame, hattended.append _, hsettles.move settled (hknown rfl) _⟩
  | announced id outcome =>
    obtain ⟨hcame, hattended, hsettles⟩ := h
    exact ⟨hstill hcame, hattended.append _, hsettles.move settled (hknown rfl) _⟩
  | attached id =>
    obtain ⟨hcame, hattended⟩ := h
    exact ⟨hstill hcame, hattended.append _⟩
  | returned outcome => exact Answered.move h present (withdrawn_of_returned found) settled

theorem exists_of_getElem?_wakeAll {jobs : List ServingJob} {i : Nat} {job : ServingJob}
    (h : (wakeAll jobs)[i]? = some job)
    : ∃ old, jobs[i]? = some old ∧ ∀ conduct past service,
        Accounted conduct past service i old → Accounted conduct past service i job := by
  rw [wakeAll, List.getElem?_map, Option.map_eq_some_iff] at h
  obtain ⟨⟨request, phase⟩, hold, rfl⟩ := h
  refine ⟨_, hold, ?_⟩
  intro conduct past service haccounted
  cases phase <;> exact haccounted

theorem accounted_of_admitted {service : VerifyService} {request : VerifyRequest}
    {decided : VerifyService × Admission} (admitted : service.Admitted request decided)
    {event : Event} (after : event.after.service = decided.1)
    (present : index < event.after.jobs.length) (came : ¬TurnedAway (past ++ [event]) index)
    (gone : service.pending.contains request.job = false → Withdrawn (past ++ [event]) index)
    : Accounted conduct (past ++ [event]) decided.1 index ⟨request, phaseOf decided.2⟩ := by
  have hattended {id : InspectionId} (running : decided.1.running.get? request.snapshot = some id) :
      Attended (past ++ [event]) index request.snapshot id :=
    ⟨event, List.mem_concat_self, present, after ▸ running⟩
  cases admitted with
  | refused unknown => exact .withdrawn (gone unknown) (.inl rfl)
  | owns pending free =>
    refine ⟨came, hattended ?_, fun htold => by cases htold⟩
    exact SortedMap.get?_insert_self ..
  | joins pending id running => exact ⟨came, hattended running⟩
  | waits => exact came

theorem accounted_of_enter (happened : Happened conduct node past serving)
    {request : VerifyRequest} {event : Event} (before : event.before = serving)
    (step : event.step = .enter request)
    (after : event.after.service = (serving.service.arrive request).1)
    (length : event.after.jobs.length = serving.jobs.length + 1)
    : Accounted conduct (past ++ [event]) (serving.service.arrive request).1 serving.jobs.length
        ⟨request, phaseOf (serving.service.arrive request).2⟩ := by
  cases hearly : serving.service.cancelledEarly.contains request.job with
  | true =>
    -- the cancellation that came first is used up
    rw [VerifyService.arrive_of_early hearly] at after ⊢
    refine .turnedAway ⟨event, List.mem_concat_self, request, step,
      by rw [before], by rw [before, hearly], ?_⟩ rfl
    rw [after, ← Bool.not_eq_true]
    intro hkept
    exact ((SortedMap.contains_erase ..).mp hkept).1 rfl
  | false =>
    rw [VerifyService.arrive_of_unknown hearly] at after ⊢
    refine accounted_of_admitted (VerifyService.advance_admitted ..) after (by omega) ?_ ?_
    . rw [turnedAway_append]
      rintro (early | ⟨e, he, r, hstep, _, hcontains, _⟩)
      . exact happened.not_turnedAway early
      . rw [List.mem_singleton.mp he] at hstep hcontains
        obtain rfl : request = r := by simpa [step] using hstep
        simp [before, hearly] at hcontains
    . intro gone
      simp [(serving.service.contains_pending_recorded request.job _).mpr (.inl rfl)] at gone

section Own

variable (h : Explained conduct past serving)
variable (books : Books (Withdrawn past) serving.service serving.served)
include h books

theorem accounted_become {old new : ServingJob} {service : VerifyService}
    (found : serving.jobs[index]? = some old)
    (settled : VerifyService.Settled serving.service service)
    (own : Accounted conduct (past ++ [⟨serving, s, serving.become index new service⟩]) service
      index old →
      Accounted conduct (past ++ [⟨serving, s, serving.become index new service⟩]) service
        index new)
    (i : Nat) (job : ServingJob)
    (hjob : (serving.become index new service).jobs[i]? = some job)
    : Accounted conduct (past ++ [⟨serving, s, serving.become index new service⟩]) service i
        job := by
  rcases (getElem?_set_eq_some found i job).mp hjob with ⟨rfl, rfl⟩ | ⟨_, hold⟩
  . exact own ((h.jobs i old found).move found books settled)
  . exact (h.jobs i job hold).move hold books settled

/--
A job that was not withdrawn leaves with the outcome of an inspection that was never told to stop,
because the job was attached to it all the time.
-/
theorem shared_of_collect {request : VerifyRequest} {id : InspectionId} {outcome : NodeOutcome}
    (found : serving.jobs[index]? = some ⟨request, .attached id⟩)
    (known : (serving.service.inspections.get? id).bind SharedInspection.result = some outcome)
    (pending : serving.service.pending.get? request.job = some (some id))
    : Shared conduct past index request outcome := by
  obtain ⟨question, result, hknown, hsame, _⟩ := books.asked index _ id (getElem?_served found) rfl
  obtain rfl := VerifyService.result_of_known hknown known
  obtain ⟨told, hended, hstopped⟩ := h.results id question outcome hknown
  refine ⟨id, question, told, (VerifyRequest.sameQuestion_eq_true_iff ..).mp hsame,
    (h.jobs index _ found).2, hended, ?_⟩
  intro htold
  -- had it been told to stop, this job would not be attached to it
  exact VerifyService.stopped_iff.mp (hstopped htold) request.job
    ((books.members id request.job).mpr pending)

theorem answered_of_collect {request : VerifyRequest} {id : InspectionId} {outcome : NodeOutcome}
    (found : serving.jobs[index]? = some ⟨request, .attached id⟩)
    (known : (serving.service.inspections.get? id).bind SharedInspection.result = some outcome)
    : Answered conduct past serving.service index request
        (serving.service.leave request.job id outcome).2 := by
  have hentry := books.pending_of_served (getElem?_served found) rfl
  simp only [VerifyService.leave]
  split
  next pending =>
    obtain ⟨entry, hget⟩ := SortedMap.contains_eq_true_iff.mp pending
    obtain ⟨stayed, hown⟩ := (hentry entry).mp hget
    obtain rfl : some id = entry := Option.some.inj hown
    exact .shared (h.jobs index _ found).1 stayed (shared_of_collect h books found known hget)
  next gone =>
    refine .withdrawn ?_ (.inr rfl)
    exact books.withdrawn_of_gone (getElem?_served found) rfl (by rwa [Bool.not_eq_true] at gone)

theorem accounted_move (happened : Happened conduct node past serving)
    (move : Move conduct serving s next) (i : Nat) (job : ServingJob)
    (hjob : next.jobs[i]? = some job)
    : Accounted conduct (past ++ [⟨serving, s, next⟩]) next.service i job := by
  have settled := move.settled (books.fresh _ (Nat.le_refl _))
  cases move with
  | enter request =>
    rcases (getElem?_append_singleton ..).mp hjob with ⟨rfl, rfl⟩ | hold
    . exact accounted_of_enter happened rfl rfl rfl List.length_append
    . exact (h.jobs i job hold).move hold books settled
  | stir found =>
    refine accounted_become h books found settled ?_ i job hjob
    exact fun came => came
  | @retry index request found =>
    refine accounted_become h books found settled ?_ i job hjob
    intro came
    refine accounted_of_admitted (VerifyService.advance_admitted ..) rfl ?_ came ?_
    . simpa [become] using (List.getElem?_eq_some_iff.mp found).1
    . intro gone
      have withdrawn := books.withdrawn_of_gone (getElem?_served found) rfl gone
      exact (withdrawn_append ..).mpr (.inl withdrawn)
  | ask found asks =>
    refine accounted_become h books found settled ?_ i job hjob
    rintro ⟨hcame, hattended, hstopped⟩
    refine ⟨hcame, hattended, ?_⟩
    intro htold
    rcases List.mem_append.mp htold with hold | hnew
    . exact hstopped hold
    . exact (List.mem_singleton.mp hnew).symm
  | @release index request id told outcome found returns =>
    refine accounted_become h books found settled ?_ i job hjob
    rintro ⟨hcame, hattended, hstopped⟩
    refine ⟨hcame, hattended, told, ⟨returns, _, List.mem_concat_self, index, rfl, found, ?_⟩,
      hstopped⟩
    exact (getElem?_set_eq_some found index _).mpr (.inl ⟨rfl, rfl⟩)
  | announce found =>
    rcases (getElem?_set_eq_some (getElem?_wakeAll found) i job).mp hjob with ⟨rfl, rfl⟩ | ⟨_, hold⟩
    . exact (h.jobs i _ found).move found books settled
    . obtain ⟨old, hold, hwoken⟩ := exists_of_getElem?_wakeAll hold
      exact hwoken _ _ _ ((h.jobs i old hold).move hold books settled)
  | publish found =>
    refine accounted_become h books found settled ?_ i job hjob
    rintro ⟨hcame, hattended, _⟩
    exact ⟨hcame, hattended⟩
  | @collect index request id outcome found known =>
    refine accounted_become h books found settled ?_ i job hjob
    intro _
    refine (answered_of_collect h books found known).move (List.getElem?_eq_some_iff.mp found).1 ?_
      settled
    rw [withdrawn_of_other (by simp)]
  | cancel _ => exact (h.jobs i job hjob).move hjob books settled
  | notify owed =>
    obtain ⟨old, hold, hwoken⟩ := exists_of_getElem?_wakeAll hjob
    exact hwoken _ _ _ ((h.jobs i old hold).move hold books settled)

theorem settles_move (move : Move conduct serving s next) {id : InspectionId}
    {question : VerifyRequest} {outcome : NodeOutcome}
    (hknown : next.service.known id = some (question, some outcome))
    : Settles conduct (past ++ [⟨serving, s, next⟩]) next.service id question outcome := by
  have settled := move.settled (books.fresh _ (Nat.le_refl _))
  rcases move.known_result hknown with hold | ⟨i, request, result, found, hold⟩
  . exact (h.results id question outcome hold).move settled (by simp [hold]) _
  . have howner : serving.service.known id = some (request, none) :=
      books.known_of_owner (getElem?_served found) rfl
    obtain ⟨rfl, rfl⟩ : request = question ∧ none = result := by simpa [howner] using hold
    obtain ⟨_, _, hsettles⟩ := h.jobs i _ found
    exact hsettles.move settled (by simp [hold]) _

end Own

theorem Happened.explained (h : Happened conduct node past serving)
    : Explained conduct past serving := by
  induction h with
  | start =>
    refine ⟨fun i job hjob => ?_, fun id question outcome hknown => ?_⟩
    . simp [Serving.start] at hjob
    . cases hknown
  | move earlier admissible move ih =>
    exact ⟨accounted_move ih earlier.books earlier move,
      fun id question outcome hknown => settles_move ih earlier.books move hknown⟩

theorem Shared.kind_ne_cancelled {request : VerifyRequest} {outcome : NodeOutcome}
    (h : Shared conduct past index request outcome) {failure : NodeFailure}
    (hfailure : outcome.failure = some failure) : failure.kind ≠ .cancelled := by
  obtain ⟨id, question, told, _, _, ⟨hreturns, _⟩, htold⟩ := h
  exact conduct.sincere question told outcome hreturns htold failure hfailure

theorem Answered.saysCancelled_iff {service : VerifyService} {request : VerifyRequest}
    {outcome : NodeOutcome} (h : Answered conduct past service index request outcome)
    : SaysCancelled service request.job outcome ↔
      TurnedAway past index ∨ Withdrawn past index := by
  cases h with
  | turnedAway early refused =>
    exact ⟨fun _ => .inl early, fun _ => ⟨_, .inl rfl, refused⟩⟩
  | withdrawn withdrawn refused =>
    refine ⟨fun _ => .inr withdrawn, fun _ => ?_⟩
    cases refused with
    | inl queued => exact ⟨_, .inr (.inl rfl), queued⟩
    | inr running => exact ⟨_, .inr (.inr rfl), running⟩
  | shared came stayed shared =>
    constructor
    . rintro ⟨moment, _, rfl⟩
      exact absurd rfl (shared.kind_ne_cancelled rfl)
    . rintro (early | withdrawn)
      . exact absurd early came
      . exact absurd withdrawn stayed

/--
A job that has returned was told that it was cancelled exactly if it was: its cancellation had come
first, or came while it was there. Any other job got the outcome of an inspection that it shared,
and nothing in that says that anything was cancelled.
-/
theorem outcome_of_returned (h : Happened conduct node past serving) {request : VerifyRequest}
    {outcome : NodeOutcome}
    (returned : serving.jobs[index]? = some ⟨request, .returned outcome⟩)
    : (SaysCancelled serving.service request.job outcome ↔
        TurnedAway past index ∨ Withdrawn past index) ∧
      (¬(TurnedAway past index ∨ Withdrawn past index) →
        Shared conduct past index request outcome ∧
          ∀ failure, outcome.failure = some failure → failure.kind ≠ .cancelled) := by
  have answered : Answered conduct past serving.service index request outcome :=
    h.explained.jobs index _ returned
  refine ⟨answered.saysCancelled_iff, ?_⟩
  intro kept
  cases answered with
  | turnedAway early => exact absurd (.inl early) kept
  | withdrawn withdrawn => exact absurd (.inr withdrawn) kept
  | shared _ _ shared => exact ⟨shared, fun _ hfailure => shared.kind_ne_cancelled hfailure⟩

end Step

set_option maxRecDepth 100000 in
theorem outcome_of_returned_pair
    : let desc : SnapshotDescriptor := ⟨"s", 1, 64, ["a"], [⟨1, "g", 1, 0, ["a"]⟩]⟩
      let tree := (Layout.laySnapshot .empty desc).1
      let inspector : Inspector := ⟨"a", Layout.snapshotRoot "a"⟩
      let request (job : UInt64) : VerifyRequest := ⟨job, "s", 64, [⟨1, "g", [0]⟩]⟩
      let steps : List ServingStep := [.enter (request 1), .enter (request 2), .ask 0, .cancel 1,
        .ask 0, .release 0, .announce 0, .publish 0, .collect 1, .collect 0]
      let serving := (start "a").run inspector tree steps
      let cancelled := serving.service.cancelledOutcome 1 "while running"
      let outcome : NodeOutcome := ⟨"a", none, [⟨⟨1, 0⟩, 100, true, true, 3⟩], [], [], []⟩
      serving.jobs = [⟨request 1, .returned cancelled⟩, ⟨request 2, .returned outcome⟩] ∧
        ∃ past, Happened (inspector.conduct tree) "a" past serving ∧
          (TurnedAway past 0 ∨ Withdrawn past 0) ∧
          Shared (inspector.conduct tree) past 1 (request 2) outcome := by
  intro desc tree inspector request steps serving cancelled outcome
  have hjobs : serving.jobs =
      [⟨request 1, .returned cancelled⟩, ⟨request 2, .returned outcome⟩] := by decide +kernel
  have orderly : (start inspector.node).Orderly inspector tree steps := by decide +kernel
  obtain ⟨past, h⟩ := happened_run orderly
  have hcancelled : serving.jobs[0]? = some ⟨request 1, .returned cancelled⟩ := by
    rw [hjobs]
    rfl
  have hshared : serving.jobs[1]? = some ⟨request 2, .returned outcome⟩ := by
    rw [hjobs]
    rfl
  have hfirst := outcome_of_returned h hcancelled
  have hsecond := outcome_of_returned h hshared
  have hkept : ¬SaysCancelled serving.service (request 2).job outcome :=
    fun told => Bool.false_ne_true told.failed
  exact ⟨hjobs, past, h, hfirst.1.mp ⟨_, .inr (.inr rfl), rfl⟩,
    (hsecond.2 fun gone => hkept (hsecond.1.mpr gone)).1⟩

end Serving

end SnapshotAudit
