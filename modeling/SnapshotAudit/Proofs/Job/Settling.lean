import SnapshotAudit.Proofs.Job.Delivery
import SnapshotAudit.Proofs.Progress

/-!
This module contains what comes of the jobs that are sent within a process: the first thing that
decides a job is what the one who sent it is told, its service is handed it once, what is kept in
hand are the jobs that have not returned from the threads that run them, and every job comes to its
end.
-/

namespace SnapshotAudit

namespace LocalDelivery

open LocalErrand

variable {threads id : Nat} {delivery next : LocalDelivery} {errand : LocalErrand}

theorem Orderly.contains_kept_iff (h : Orderly threads delivery) (id : Nat)
    : delivery.kept.contains id = true ↔ ∃ errand, delivery.errands[id]? = some errand ∧
        (errand.outstanding = true ∨ errand.returned = true ∧ id ∈ delivery.busy) := by
  rw [SortedMap.contains_eq_true_iff]
  simp only [LocalErrand.outstanding, LocalErrand.returned, Bool.and_eq_true, Bool.not_eq_true',
    Option.isSome_iff_exists]
  constructor
  . rintro ⟨call, hkept⟩
    obtain ⟨⟨errand, found, sent⟩, hgoing⟩ := (h.kept id call).mp hkept
    have hdone := (h.accounts id errand call found sent).done_iff
    refine ⟨errand, found, ?_⟩
    cases hends : errand.past.any LocalEvent.ends with
    | false => exact .inl ⟨⟨call, sent⟩, rfl⟩
    | true => exact .inr ⟨⟨⟨call, sent⟩, rfl⟩, hgoing.resolve_left (absurd (hdone.mpr hends))⟩
  . rintro ⟨errand, found, ⟨⟨call, sent⟩, hgoing⟩ | ⟨⟨⟨call, sent⟩, -⟩, taken⟩⟩
    . refine ⟨call, (h.kept id call).mpr ⟨⟨errand, found, sent⟩, .inl ?_⟩⟩
      rw [ne_eq, (h.accounts id errand call found sent).done_iff, hgoing]
      exact Bool.false_ne_true
    . exact ⟨call, (h.kept id call).mpr ⟨⟨errand, found, sent⟩, .inr taken⟩⟩

theorem Orderly.size_kept (h : Orderly threads delivery)
    : delivery.kept.size = delivery.errands.countP LocalErrand.outstanding +
        delivery.busy.countP fun id => delivery.errands[id]?.any LocalErrand.returned := by
  -- the keys of what is kept are the places of the jobs of both kinds
  have hperm : delivery.kept.keys.Perm ((List.range delivery.errands.length).filter
      (fun i => delivery.errands[i]?.any LocalErrand.outstanding) ++
        delivery.busy.filter fun i => delivery.errands[i]?.any LocalErrand.returned) := by
    apply (List.perm_ext_iff_of_nodup delivery.kept.keys_nodup ?_).mpr
    . intro i
      rw [SortedMap.mem_keys, h.contains_kept_iff, List.mem_append, List.mem_filter,
        List.mem_filter, List.mem_range, Option.any_eq_true, Option.any_eq_true]
      constructor
      . rintro ⟨errand, found, hout | ⟨hback, taken⟩⟩
        . exact .inl ⟨(List.getElem?_eq_some_iff.mp found).1, errand, found, hout⟩
        . exact .inr ⟨taken, errand, found, hback⟩
      . rintro (⟨-, errand, found, hout⟩ | ⟨taken, errand, found, hback⟩)
        . exact ⟨errand, found, .inl hout⟩
        . exact ⟨errand, found, .inr ⟨hback, taken⟩⟩
    . refine List.nodup_append.mpr ⟨List.nodup_range.filter _,
        (List.nodup_append.mp h.distinct).1.filter _, ?_⟩
      rintro i hi j hj rfl
      obtain ⟨errand, found, hout⟩ := (Option.any_eq_true ..).mp (List.mem_filter.mp hi).2
      obtain ⟨other, hfound, hback⟩ := (Option.any_eq_true ..).mp (List.mem_filter.mp hj).2
      obtain rfl : errand = other := Option.some.inj (found.symm.trans hfound)
      rw [returned_of_outstanding hout] at hback
      cases hback
  rw [← SortedMap.length_keys, hperm.length_eq, List.length_append, length_filter_range,
    ← List.countP_eq_length_filter]

def Continues (delivery later : LocalDelivery) : Prop :=
  later.errands.length = delivery.errands.length ∧
    ∀ (id : Nat) (old : LocalErrand), delivery.errands[id]? = some old →
      ∃ new, later.errands[id]? = some new ∧ old.Later new

theorem Continues.refl (delivery : LocalDelivery) : Continues delivery delivery :=
  ⟨rfl, fun _ old found => ⟨old, found, .refl old⟩⟩

theorem Continues.trans {middle later : LocalDelivery} (h : Continues delivery middle)
    (h' : Continues middle later) : Continues delivery later := by
  refine ⟨h'.1.trans h.1, ?_⟩
  intro id old found
  obtain ⟨between, hbetween, hold⟩ := h.2 id old found
  obtain ⟨new, hnew, hlater⟩ := h'.2 id between hbetween
  exact ⟨new, hnew, hold.trans hlater⟩

/--
What is left to happen. A job that waits for a thread has yet to be taken up and to be let go of.
-/
def load (delivery : LocalDelivery) : Nat :=
  (delivery.errands.map LocalErrand.load).sum + 2 * delivery.pool.waiting.length +
    delivery.busy.length

theorem load_set {new : LocalErrand} (there : delivery.errands[id]? = some errand)
    (herrands : next.errands = delivery.errands.set id new)
    (hless : new.load + 2 * next.pool.waiting.length + next.busy.length <
      errand.load + 2 * delivery.pool.waiting.length + delivery.busy.length)
    : next.load < delivery.load := by
  have := sum_map_set new LocalErrand.load there
  unfold load
  rw [herrands]
  omega

theorem Happens.load_lt (happens : Happens delivery next) (h : Orderly threads delivery)
    : next.load < delivery.load := by
  cases happens with
  | due id errand call there sent delayed =>
    apply load_set there rfl
    have hphase : (call.step .due).1.phase = .working :=
      phase_step (show call.Expects .due from delayed)
    rw [pool_take_due delayed]
    simp only [LocalErrand.load, LocalErrand.take, hphase, sent, delayed, Pool.post, busy_take,
      List.length_append, List.length_singleton]
    omega
  | expire id errand call there sent limited =>
    apply load_set there rfl
    have hphase : (call.step .expired).1.phase = call.phase :=
      phase_step (show call.Expects .expired from trivial)
    rw [pool_take_of_ne (by simp)]
    simp only [LocalErrand.load, LocalErrand.take, hphase, sent, limited, busy_take,
      Bool.toNat_false, Bool.toNat_true]
    omega
  | takeUp id errand pool waits there =>
    -- the job is as far as before, but one less waits for a thread
    apply load_set there rfl
    obtain ⟨hwaiting, -, -⟩ := Pool.takeUp?_eq_some waits
    have hload : errand.handOver.load = errand.load := rfl
    rw [hload, hwaiting]
    dsimp only [List.length_cons]
    omega
  | refuse id errand taken there refused =>
    apply load_set there rfl
    have htold : errand.told = [] := by
      cases h.standing id errand there with
      | turnedAway _ _ _ _ told => exact told
      | sentBack _ _ free => exact absurd taken free
      | delayed _ hsent | queued _ hsent | served _ hsent | telling _ hsent
      | finished _ hsent => simp [refused] at hsent
    have := List.length_pos_of_mem taken
    simp only [LocalErrand.load, LocalErrand.tell, refused, htold, leave, Pool.release,
      List.length_erase_of_mem taken, List.nil_append, List.cons_ne_self, if_true, if_false]
    omega
  | comeBack id errand call event taken there sent working ends =>
    apply load_set there rfl
    have hdone : (call.step event).1.phase = .done := phase_of_ends working ends
    rw [pool_take_of_ends ends]
    simp [LocalErrand.load, LocalErrand.take, hdone, sent, working]
  | forget id errand call taken =>
    have := List.length_pos_of_mem taken
    simp only [load, leave, Pool.release, List.length_erase_of_mem taken]
    omega

structure Settled (delivery : LocalDelivery) : Prop where
  errands : ∀ errand ∈ delivery.errands, errand.Settled
  kept : delivery.kept.size = 0

/--
What is true at every time. What was told about a job is that its node is not there, or what the
first event that decided it brought about, and no service was handed a question twice. In hand are
the jobs that have not returned: no service has come back with them, or one has and the thread that
ran the job has not let go of it. It does so when the handler has been called, so that a job counts
for as long as its handler is being told.
-/
structure Truthful (delivery : LocalDelivery) : Prop where
  refused : ∀ errand ∈ delivery.errands, errand.call = none →
    errand.told <+: [.failed (.join ["node ", errand.node, " is not reachable"])] ∧
      errand.handed = []
  told : ∀ errand ∈ delivery.errands, ∀ call, errand.call = some call →
    errand.told = (decided? call errand.past).toList
  handed : ∀ errand ∈ delivery.errands, ∀ call, errand.call = some call →
    errand.handed <+: [call.request]
  inHand : ∀ id, delivery.kept.contains id = true ↔
    ∃ errand, delivery.errands[id]? = some errand ∧
      (errand.outstanding = true ∨ errand.returned = true ∧ id ∈ delivery.busy)
  inFlight : delivery.kept.size = delivery.errands.countP LocalErrand.outstanding +
    delivery.busy.countP fun id => delivery.errands[id]?.any LocalErrand.returned

theorem Orderly.truthful (h : Orderly threads delivery) : delivery.Truthful := by
  refine ⟨?_, ?_, ?_, h.contains_kept_iff, h.size_kept⟩
  . intro errand hmem refused
    obtain ⟨id, there⟩ := List.getElem?_of_mem hmem
    cases h.standing id errand there with
    | turnedAway _ _ _ handed told => simp [told, handed]
    | sentBack _ _ _ _ handed told => simp [told, handed]
    | delayed _ sent | queued _ sent | served _ sent | telling _ sent | finished _ sent =>
      simp [refused] at sent
  . intro errand hmem call sent
    obtain ⟨id, there⟩ := List.getElem?_of_mem hmem
    exact (h.accounts id errand call there sent).told
  . intro errand hmem call sent
    obtain ⟨id, there⟩ := List.getElem?_of_mem hmem
    cases h.standing id errand there with
    | turnedAway _ _ _ handed | sentBack _ _ _ _ handed => simp [handed]
    | delayed _ _ _ _ _ handed | queued _ _ _ _ _ handed => simp [handed]
    | served other hsent _ _ _ handed | telling other hsent _ _ _ handed
    | finished other hsent _ _ _ handed =>
      obtain rfl : call = other := Option.some.inj (sent.symm.trans hsent)
      simp [handed]

end LocalDelivery

end SnapshotAudit
