import SnapshotAudit.Proofs.Service.Books

/-!
This module contains that the books of a service at work agree in every state with what the threads
of its jobs are doing.
-/

namespace SnapshotAudit

def ServingJob.served (job : ServingJob) : Served :=
  ⟨job.request, job.phase.stage⟩

@[simp]
theorem ServingPhase.isSome_entry_stage (phase : ServingPhase)
    : phase.stage.entry.isSome = phase.outstanding := by
  cases phase <;> rfl

namespace Serving

def served (serving : Serving) : List Served :=
  serving.jobs.map ServingJob.served

/--
A job was withdrawn: somebody cancelled its number while it was outstanding, and was told that it
was pending.
-/
def Withdrawn (past : List Event) (index : Nat) : Prop :=
  ∃ event ∈ past, ∃ job, event.before.jobs[index]? = some job ∧ job.phase.outstanding = true ∧
    event.step = .cancel job.request.job ∧
    (event.before.service.cancel job.request.job).2 = true

theorem getElem?_served {serving : Serving} {index : Nat} {job : ServingJob}
    (found : serving.jobs[index]? = some job) : serving.served[index]? = some job.served := by
  simp [served, found]

theorem exists_of_getElem?_served {serving : Serving} {index : Nat} {a : Served}
    (h : serving.served[index]? = some a)
    : ∃ job, serving.jobs[index]? = some job ∧ job.served = a := by
  simpa [served] using h

@[simp]
theorem served_become (serving : Serving) (index : Nat) (job : ServingJob) (service : VerifyService)
    : (serving.become index job service).served = serving.served.set index job.served :=
  List.map_set

theorem served_become_self {serving : Serving} {index : Nat} {old new : ServingJob}
    (found : serving.jobs[index]? = some old) (same : new.served = old.served)
    (service : VerifyService)
    : (serving.become index new service).served = serving.served := by
  rw [served_become, same, set_eq_self (getElem?_served found)]

@[simp]
theorem map_served_wakeAll (jobs : List ServingJob)
    : (wakeAll jobs).map ServingJob.served = jobs.map ServingJob.served := by
  simp only [wakeAll, List.map_map]
  apply List.map_congr_left
  rintro ⟨request, phase⟩ _
  cases phase <;> rfl

theorem Move.length_le {conduct : Conduct} {serving next : Serving} {s : ServingStep}
    (move : Move conduct serving s next) : serving.jobs.length ≤ next.jobs.length := by
  cases move <;> simp [become, wakeAll]

section Past

variable {conduct : Conduct} {node : Text} {past : List Event} {serving next : Serving}

theorem Happened.length_le (h : Happened conduct node past serving)
    : ∀ event ∈ past, event.before.jobs.length ≤ serving.jobs.length := by
  induction h with
  | start => simp
  | move earlier admissible move ih =>
    intro event hevent
    cases List.mem_append.mp hevent with
    | inl hold => exact Nat.le_trans (ih event hold) move.length_le
    | inr hnew =>
      rw [List.mem_singleton.mp hnew]
      exact move.length_le

theorem Happened.not_withdrawn (h : Happened conduct node past serving)
    : ¬Withdrawn past serving.jobs.length := by
  rintro ⟨event, hevent, job, hjob, _⟩
  have hlt := (List.getElem?_eq_some_iff.mp hjob).1
  have := h.length_le event hevent
  omega

theorem withdrawn_append (event : Event) (index : Nat)
    : Withdrawn (past ++ [event]) index ↔ Withdrawn past index ∨ Withdrawn [event] index := by
  simp only [Withdrawn, List.mem_append]
  constructor
  . rintro ⟨e, hold | hnew, hrest⟩
    . exact .inl ⟨e, hold, hrest⟩
    . exact .inr ⟨e, hnew, hrest⟩
  . rintro (⟨e, hold, hrest⟩ | ⟨e, hnew, hrest⟩)
    . exact ⟨e, .inl hold, hrest⟩
    . exact ⟨e, .inr hnew, hrest⟩

theorem withdrawn_of_other {s : ServingStep} (h : ∀ job, s ≠ .cancel job)
    : Withdrawn (past ++ [⟨serving, s, next⟩]) = Withdrawn past := by
  funext index
  rw [withdrawn_append]
  simp [Withdrawn, h]

theorem withdrawn_of_cancel (job : UInt64)
    : Withdrawn (past ++ [⟨serving, .cancel job, next⟩]) = fun index =>
      Withdrawn past index ∨ ((serving.service.cancel job).2 = true ∧
        ∃ a, serving.served[index]? = some a ∧ a.stage.entry.isSome = true ∧
          a.request.job = job) := by
  funext index
  rw [withdrawn_append]
  congr 1
  apply propext
  simp only [Withdrawn, List.mem_singleton, exists_eq_left, ServingStep.cancel.injEq]
  constructor
  . rintro ⟨own, hown, hlive, rfl, hpending⟩
    exact ⟨hpending, own.served, getElem?_served hown,
      by simpa [ServingJob.served] using hlive, rfl⟩
  . rintro ⟨hpending, a, ha, hlive, hjob⟩
    obtain ⟨own, hown, rfl⟩ := exists_of_getElem?_served ha
    exact ⟨own, hown, by simpa [ServingJob.served] using hlive, hjob.symm, hjob ▸ hpending⟩

theorem books_move {withdrawn : Nat → Prop}
    (h : Books withdrawn serving.service serving.served)
    (new : ¬withdrawn serving.jobs.length) {s : ServingStep} (admissible : serving.Admissible s)
    (move : Move conduct serving s next) (other : ∀ job, s ≠ .cancel job)
    : Books withdrawn next.service next.served := by
  cases move with
  | enter request =>
    have hdistinct : ∀ a ∈ serving.served, a.stage.entry.isSome = true →
        a.request.job ≠ request.job := by
      intro a ha hlive
      obtain ⟨job, hjob, rfl⟩ := List.mem_map.mp ha
      exact admissible job hjob (by simpa [ServingJob.served] using hlive)
    have harrive := h.arrive (by simpa [served] using new) hdistinct
    simpa [served, ServingJob.served] using harrive
  | stir found => rwa [served_become_self found (by rfl)]
  | retry found =>
    rw [served_become]
    exact h.advance (getElem?_served found)
  | ask found asks => rwa [served_become_self found (by rfl)]
  | release found returns =>
    rw [served_become]
    exact h.release (getElem?_served found)
  | announce found =>
    -- one who waited is still there to be told, and to the service that is no news
    have hwoken : Serving.served { serving with jobs := wakeAll serving.jobs } = serving.served :=
      map_served_wakeAll serving.jobs
    rw [served_become, hwoken]
    exact (set_eq_self (getElem?_served found)).symm ▸ h
  | publish found =>
    rw [served_become]
    exact h.publish _ (getElem?_served found)
  | @collect index request id outcome found known =>
    rw [served_become]
    exact h.leave outcome (getElem?_served found)
  | cancel job => exact absurd rfl (other job)
  | notify owed =>
    simpa [served] using h

theorem books_start (node : Text)
    : Books (Withdrawn []) (start node).service (start node).served := by
  refine ⟨?_, ?_, ?_, ?_, ?_, ?_, ?_⟩
  . simp [served, start]
  . simp [served, start, VerifyService.start]
  . simp [served, start, VerifyService.start]
  . simp [start, VerifyService.start, VerifyService.isAttached]
  . simp [start, VerifyService.start, VerifyService.known]
  . simp [served, start]
  . simp [start, VerifyService.start, VerifyService.known]

theorem Happened.books (h : Happened conduct node past serving)
    : Books (Withdrawn past) serving.service serving.served := by
  induction h with
  | start => exact books_start node
  | @move past serving next s earlier admissible move ih =>
    by_cases hcancel : ∃ job, s = .cancel job
    . obtain ⟨job, rfl⟩ := hcancel
      rw [withdrawn_of_cancel]
      cases move
      exact ih.cancel job
    . have hother (job : UInt64) : s ≠ .cancel job := fun heq => hcancel ⟨job, heq⟩
      rw [withdrawn_of_other hother]
      exact books_move ih earlier.not_withdrawn admissible move hother

/-!
What this means for the jobs.
-/

def Idle (serving : Serving) (snapshot : Text) : Prop :=
  ∀ job ∈ serving.jobs, job.request.snapshot = snapshot →
    ∀ id, job.phase.stage ≠ .inspecting id

/--
The books of a service at work are kept well: at most one inspection of a snapshot runs, and it is
the one on record, inspections of different snapshots do not exclude each other, an inspection and
the jobs on record agree on which jobs are attached to it, a job is on record from its arrival until
it leaves or is withdrawn, and nothing stays on record when every job has returned.
-/
structure WellKept (conduct : Conduct) (past : List Event) (serving : Serving) : Prop where
  alone : ∀ (i j : Nat) (a b : ServingJob) (p q : InspectionId),
    serving.jobs[i]? = some a → serving.jobs[j]? = some b →
      a.request.snapshot = b.request.snapshot →
      a.phase.stage = .inspecting p → b.phase.stage = .inspecting q → i = j
  registered : ∀ name id, serving.service.running.get? name = some id ↔
    ∃ job ∈ serving.jobs, job.request.snapshot = name ∧ job.phase.stage = .inspecting id
  begins : ∀ (request : VerifyRequest) (next : Serving), serving.Idle request.snapshot →
    serving.service.cancelledEarly.contains request.job = false →
      Move conduct serving (.enter request) next →
        ∃ id, next.jobs = serving.jobs ++ [⟨request, .inspecting id []⟩]
  resumes : ∀ (index : Nat) (request : VerifyRequest) (next : Serving),
    serving.Idle request.snapshot → serving.jobs[index]? = some ⟨request, .awake⟩ →
      ¬Withdrawn past index → Move conduct serving (.retry index) next →
        ∃ id, next.jobs = serving.jobs.set index ⟨request, .inspecting id []⟩
  members : ∀ id job,
    (∃ inspection, serving.service.inspections.get? id = some inspection ∧
      inspection.jobs.contains job = true) ↔
    serving.service.pending.get? job = some (some id)
  pending : ∀ job, serving.service.pending.contains job = true ↔
    ∃ (i : Nat) (a : ServingJob), serving.jobs[i]? = some a ∧ a.request.job = job ∧
      a.phase.outstanding = true ∧ ¬Withdrawn past i
  cleared : (∀ job ∈ serving.jobs, job.phase.outstanding = false) →
    serving.service.pending = .empty ∧ serving.service.running = .empty

theorem Happened.registered (h : Happened conduct node past serving) (name : Text)
    (id : InspectionId)
    : serving.service.running.get? name = some id ↔
      ∃ job ∈ serving.jobs, job.request.snapshot = name ∧ job.phase.stage = .inspecting id := by
  rw [h.books.running]
  constructor
  . rintro ⟨i, a, ha, hname, hstage⟩
    obtain ⟨job, hjob, rfl⟩ := exists_of_getElem?_served ha
    exact ⟨job, List.mem_of_getElem? hjob, hname, hstage⟩
  . rintro ⟨job, hjob, hname, hstage⟩
    obtain ⟨i, hi⟩ := List.mem_iff_getElem?.mp hjob
    exact ⟨i, job.served, getElem?_served hi, hname, hstage⟩

theorem Happened.on_record (h : Happened conduct node past serving) (job : UInt64)
    : serving.service.pending.contains job = true ↔
      ∃ (i : Nat) (a : ServingJob), serving.jobs[i]? = some a ∧ a.request.job = job ∧
        a.phase.outstanding = true ∧ ¬Withdrawn past i := by
  rw [SortedMap.contains_eq_true_iff]
  constructor
  . rintro ⟨entry, hget⟩
    obtain ⟨i, a, ha, hwithdrawn, hjob, hentry⟩ := (h.books.pending job entry).mp hget
    obtain ⟨a, hfound, rfl⟩ := exists_of_getElem?_served ha
    refine ⟨i, a, hfound, hjob, ?_, hwithdrawn⟩
    rw [← ServingPhase.isSome_entry_stage]
    exact Option.isSome_iff_exists.mpr ⟨entry, hentry⟩
  . rintro ⟨i, a, ha, hjob, houtstanding, hwithdrawn⟩
    rw [← ServingPhase.isSome_entry_stage] at houtstanding
    obtain ⟨entry, hentry⟩ := Option.isSome_iff_exists.mp houtstanding
    exact ⟨entry, (h.books.pending job entry).mpr
      ⟨i, a.served, getElem?_served ha, hwithdrawn, hjob, hentry⟩⟩

theorem Happened.free_of_idle (h : Happened conduct node past serving) {snapshot : Text}
    (idle : serving.Idle snapshot) : serving.service.running.get? snapshot = none := by
  rw [Option.eq_none_iff_forall_not_mem]
  intro id hid
  obtain ⟨job, hjob, hname, hstage⟩ := (h.registered snapshot id).mp hid
  exact idle job hjob hname id hstage

/--
The books of a service at work are kept well whatever happens, when no job comes while another one
of its number is outstanding.
-/
theorem wellKept_of_happened (h : Happened conduct node past serving)
    : WellKept conduct past serving := by
  refine ⟨?_, h.registered, ?_, ?_, ?_, h.on_record, ?_⟩
  . intro i j a b p q ha hb hname hp hq
    -- both inspections are the one that is on record, and that has one owner
    have hrunning := (h.registered a.request.snapshot p).mpr
      ⟨a, List.mem_of_getElem? ha, rfl, hp⟩
    have hsame := (h.registered a.request.snapshot q).mpr
      ⟨b, List.mem_of_getElem? hb, hname.symm, hq⟩
    obtain rfl := Option.some.inj (hrunning.symm.trans hsame)
    apply Decidable.byContradiction
    intro hne
    have hapart := h.books.apart i j a.served b.served (getElem?_served ha) (getElem?_served hb) hne
    apply hapart.owners p
    . simp [ServingJob.served, hp, Stage.owned?]
    . simp [ServingJob.served, hq, Stage.owned?]
  . intro request next idle unknown move
    cases move
    have hpending := (serving.service.contains_pending_recorded request.job _).mpr (.inl rfl)
    refine ⟨serving.service.started, ?_⟩
    rw [VerifyService.arrive_of_unknown unknown,
      VerifyService.advance_of_free hpending (h.free_of_idle idle)]
    rfl
  . intro index request next idle found present move
    have hpending := (h.on_record request.job).mpr ⟨index, _, found, rfl, rfl, present⟩
    cases move with
    | retry hfound =>
      obtain rfl := (ServingJob.mk.inj (Option.some.inj (hfound.symm.trans found))).1
      refine ⟨serving.service.started, ?_⟩
      rw [VerifyService.advance_of_free hpending (h.free_of_idle idle)]
      rfl
  . intro id job
    rw [← h.books.members, VerifyService.isAttached, Option.any_eq_true]
  . intro returned
    refine ⟨SortedMap.eq_empty_of_get? ?_, SortedMap.eq_empty_of_get? ?_⟩
    . intro job
      rw [Option.eq_none_iff_forall_not_mem]
      intro entry hentry
      have hpending := SortedMap.contains_eq_true_iff.mpr ⟨entry, hentry⟩
      obtain ⟨i, a, ha, _, houtstanding, _⟩ := (h.on_record job).mp hpending
      simp [returned a (List.mem_of_getElem? ha)] at houtstanding
    . intro snapshot
      apply h.free_of_idle
      intro job hjob _ id hstage
      have houtstanding := job.phase.isSome_entry_stage
      simp [returned job hjob, hstage, Stage.entry] at houtstanding

end Past

theorem wellKept_of_happened_four
    : let inspector : Inspector := ⟨"a", "data"⟩
      let steps : List ServingStep := [.enter ⟨1, "s", 64, []⟩, .enter ⟨2, "s", 64, []⟩,
        .enter ⟨3, "t", 64, []⟩, .enter ⟨4, "s", 128, []⟩, .cancel 1]
      let serving := (start "a").run inspector .empty steps
      serving.service.running.get? "s" = some 0 ∧ serving.service.running.get? "t" = some 1 ∧
        serving.service.pending.entries = [(2, some 0), (3, some 1), (4, none)] ∧
        ∃ past, Happened (inspector.conduct .empty) "a" past serving ∧
          WellKept (inspector.conduct .empty) past serving := by
  intro inspector steps serving
  refine ⟨by decide +kernel, by decide +kernel, by decide +kernel, ?_⟩
  have orderly : (start inspector.node).Orderly inspector .empty steps := by decide +kernel
  obtain ⟨past, h⟩ := happened_run orderly
  exact ⟨past, h, wellKept_of_happened h⟩

end Serving

end SnapshotAudit
