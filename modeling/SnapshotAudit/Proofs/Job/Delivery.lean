import SnapshotAudit.Ordered.Set
import SnapshotAudit.Pool
import SnapshotAudit.Proofs.Job.LocalErrand
import SnapshotAudit.Proofs.Lists
import SnapshotAudit.Proofs.Ordered.Map

/-!
This module contains the jobs that are sent within a process: what can happen to them and in which
order, as the threads that hand them to their services are free, as delays are over or cut short and
as time runs out. Whatever the order, the jobs, the threads and what is kept in hand fit together.
-/

namespace SnapshotAudit

/--
A dispatcher of jobs within a process: the nodes that are there, whether it comes to its end, its
threads and the jobs that they are at, all jobs that were sent, and those that it has in hand.
-/
structure LocalDelivery where
  nodes : SortedSet Text
  closing : Bool
  pool : Pool Nat
  busy : List Nat
  errands : List LocalErrand
  kept : SortedMap Nat LocalCall

namespace LocalDelivery

def start (threads : Nat) : LocalDelivery :=
  ⟨.empty, false, .ofThreads threads, [], [], .empty⟩

/--
Send a job. When its node is not there, or the dispatcher comes to its end, the threads are left to
tell that.
-/
def send (delivery : LocalDelivery) (node : Text) (request : VerifyRequest) (timeout : Nat)
    : LocalDelivery :=
  let id := delivery.errands.length
  if delivery.closing || !delivery.nodes.contains node then
    { delivery with
      errands := delivery.errands ++ [⟨node, none, false, [], [], []⟩]
      pool := delivery.pool.post id }
  else
    let call := LocalCall.start node request timeout
    { delivery with
      errands := delivery.errands ++ [⟨node, some call, true, [], [], []⟩]
      kept := delivery.kept.insert id call }

/--
Something happens to a job. A service is handed it by the threads, and what is in hand stays so.
-/
def take (delivery : LocalDelivery) (id : Nat) (errand : LocalErrand) (call : LocalCall)
    (event : LocalEvent) : LocalDelivery :=
  { delivery with
    errands := delivery.errands.set id (errand.take call event)
    kept := delivery.kept.modify id fun _ => (call.step event).1
    pool := match (call.step event).2 with
      | some (.handOver _) => delivery.pool.post id
      | _ => delivery.pool }

def leave (delivery : LocalDelivery) (id : Nat) : LocalDelivery :=
  { delivery with pool := delivery.pool.release, busy := delivery.busy.erase id }

def hasten (delivery : LocalDelivery) (id : Nat) : LocalDelivery :=
  match delivery.errands[id]? with
  | none => delivery
  | some errand =>
    match errand.call with
    | none => delivery
    | some call => if call.phase = .delayed then delivery.take id errand call .due else delivery

def cutShort (delivery : LocalDelivery) (meant : LocalCall → Bool) : LocalDelivery :=
  ((delivery.kept.entries.filter fun e => meant e.2).map Prod.fst).foldl hasten delivery

/--
What can happen by itself: a delay or a time limit is over, a free thread takes up a job, a thread
tells that a node is not there, a service comes back to the thread, which then tells what became of
the job, or a thread that has told this lets go of the job.
-/
inductive Happens (delivery : LocalDelivery) : LocalDelivery → Prop where
  | due (id : Nat) (errand : LocalErrand) (call : LocalCall)
    (there : delivery.errands[id]? = some errand) (sent : errand.call = some call)
    (delayed : call.phase = .delayed)
    : Happens delivery (delivery.take id errand call .due)
  | expire (id : Nat) (errand : LocalErrand) (call : LocalCall)
    (there : delivery.errands[id]? = some errand) (sent : errand.call = some call)
    (limited : errand.limited = true)
    : Happens delivery (delivery.take id { errand with limited := false } call .expired)
  | takeUp (id : Nat) (errand : LocalErrand) (pool : Pool Nat)
    (waits : delivery.pool.takeUp? = some (id, pool)) (there : delivery.errands[id]? = some errand)
    : Happens delivery { delivery with
        pool
        busy := id :: delivery.busy
        errands := delivery.errands.set id errand.handOver }
  | refuse (id : Nat) (errand : LocalErrand) (taken : id ∈ delivery.busy)
    (there : delivery.errands[id]? = some errand) (refused : errand.call = none)
    : Happens delivery { delivery.leave id with
        errands := delivery.errands.set id (errand.tell (.notReachable errand.node)) }
  | comeBack (id : Nat) (errand : LocalErrand) (call : LocalCall) (event : LocalEvent)
    (taken : id ∈ delivery.busy) (there : delivery.errands[id]? = some errand)
    (sent : errand.call = some call) (working : call.phase = .working) (ends : event.ends = true)
    : Happens delivery (delivery.take id errand call event)
  | forget (id : Nat) (errand : LocalErrand) (call : LocalCall) (taken : id ∈ delivery.busy)
    (there : delivery.errands[id]? = some errand) (sent : errand.call = some call)
    (done : call.phase = .done)
    : Happens delivery { delivery.leave id with kept := delivery.kept.erase id }

/--
What can happen when others may act as well: nodes come and go, jobs are sent, jobs are cancelled,
and the dispatcher comes to its end.
-/
inductive Step (delivery : LocalDelivery) : LocalDelivery → Prop where
  | happen {next : LocalDelivery} (happens : Happens delivery next) : Step delivery next
  | register (node : Text) : Step delivery { delivery with nodes := delivery.nodes.add node }
  | unregister (node : Text) : Step delivery { delivery with nodes := delivery.nodes.erase node }
  | send (node : Text) (request : VerifyRequest) (timeout : Nat)
    : Step delivery (delivery.send node request timeout)
  | cancel (node : Text) (job : UInt64)
    : Step delivery (delivery.cutShort fun call => call.isFor node job)
  | close : Step delivery { delivery.cutShort (fun _ => true) with closing := true }

inductive Reached (threads : Nat) : LocalDelivery → Prop where
  | start : Reached threads (start threads)
  | step {delivery next : LocalDelivery} (reached : Reached threads delivery)
    (step : Step delivery next) : Reached threads next

/-!
What holds in every state.
-/

open LocalErrand

variable {threads id : Nat} {delivery next : LocalDelivery} {errand : LocalErrand}
variable {call : LocalCall} {event : LocalEvent}

/--
The jobs of a dispatcher, its threads and what it has in hand fit together.
-/
structure Orderly (threads : Nat) (delivery : LocalDelivery) : Prop where
  staffed : delivery.pool.free + delivery.busy.length = threads
  distinct : (delivery.busy ++ delivery.pool.waiting).Nodup
  sent : ∀ id ∈ delivery.busy ++ delivery.pool.waiting, id < delivery.errands.length
  standing : ∀ (id : Nat) (errand : LocalErrand), delivery.errands[id]? = some errand →
    errand.Standing (id ∈ delivery.pool.waiting) (id ∈ delivery.busy)
  accounts : ∀ (id : Nat) (errand : LocalErrand) call, delivery.errands[id]? = some errand →
    errand.call = some call → errand.Accounts call
  kept : ∀ id call, delivery.kept.get? id = some call ↔
    (∃ errand, delivery.errands[id]? = some errand ∧ errand.call = some call) ∧
      (call.phase ≠ .done ∨ id ∈ delivery.busy)

theorem orderly_start (threads : Nat) : Orderly threads (start threads) := by
  constructor <;> simp [start, Pool.ofThreads]

theorem mem_post {pool : Pool Nat} {busy : List Nat} {i : Nat}
    : i ∈ busy ++ (pool.post id).waiting ↔ i ∈ busy ++ pool.waiting ∨ i = id := by
  rw [Pool.post, ← List.append_assoc, List.mem_append, List.mem_singleton]

theorem nodup_post {pool : Pool Nat} {busy : List Nat} (nodup : (busy ++ pool.waiting).Nodup)
    (hid : id ∉ busy ++ pool.waiting) : (busy ++ (pool.post id).waiting).Nodup := by
  rw [Pool.post, ← List.append_assoc]
  apply List.nodup_append.mpr
  refine ⟨nodup, List.pairwise_singleton _ _, ?_⟩
  intro i hi j hj
  rw [List.mem_singleton.mp hj]
  rintro rfl
  exact hid hi

namespace Orderly

variable (h : Orderly threads delivery) (there : delivery.errands[id]? = some errand)

include h there

theorem accounts_set {new : LocalErrand}
    (hnew : ∀ call, new.call = some call → new.Accounts call)
    : ∀ (i : Nat) (e : LocalErrand) call, (delivery.errands.set id new)[i]? = some e →
      e.call = some call → e.Accounts call := by
  intro i e call found sent
  rw [getElem?_set_eq_some there] at found
  rcases found with ⟨-, rfl⟩ | ⟨-, found⟩
  . exact hnew call sent
  . exact h.accounts i e call found sent

theorem standing_set {new : LocalErrand} {waiting busy : List Nat}
    (hnew : new.Standing (id ∈ waiting) (id ∈ busy))
    (hwaiting : ∀ i, i ≠ id → (i ∈ waiting ↔ i ∈ delivery.pool.waiting))
    (hbusy : ∀ i, i ≠ id → (i ∈ busy ↔ i ∈ delivery.busy))
    : ∀ (i : Nat) (e : LocalErrand), (delivery.errands.set id new)[i]? = some e →
      e.Standing (i ∈ waiting) (i ∈ busy) := by
  intro i e found
  rw [getElem?_set_eq_some there] at found
  rcases found with ⟨rfl, rfl⟩ | ⟨hne, found⟩
  . exact hnew
  . exact (h.standing i e found).congr (hwaiting i hne) (hbusy i hne)

theorem kept_set {new : LocalErrand} {busy : List Nat} (hcall : new.call = errand.call)
    (hgoing : ∀ call, errand.call = some call → call.phase ≠ .done)
    (hbusy : ∀ i, i ≠ id → (i ∈ busy ↔ i ∈ delivery.busy))
    : ∀ i call, delivery.kept.get? i = some call ↔
      (∃ e, (delivery.errands.set id new)[i]? = some e ∧ e.call = some call) ∧
        (call.phase ≠ .done ∨ i ∈ busy) := by
  intro i call
  rw [h.kept]
  by_cases hid : i = id
  . subst hid
    simp only [getElem?_set_eq_some there, there, not_true_eq_false, ne_eq, false_and, or_false,
      true_and, exists_eq_left, Option.some.injEq, exists_eq_left', hcall]
    apply and_congr_right
    intro sent
    simp [hgoing call sent]
  . simp [getElem?_set_eq_some there, hid, hbusy i hid]

theorem kept_take {other : LocalErrand} (sent : errand.call = some call)
    (hgoing : (call.step event).1.phase ≠ .done ∨ id ∈ delivery.busy ↔
      call.phase ≠ .done ∨ id ∈ delivery.busy)
    : ∀ i kept, (delivery.kept.modify id fun _ => (call.step event).1).get? i = some kept ↔
      (∃ e, (delivery.errands.set id (other.take call event))[i]? = some e ∧
        e.call = some kept) ∧ (kept.phase ≠ .done ∨ i ∈ delivery.busy) := by
  intro i kept
  have hcall : (other.take call event).call = some (call.step event).1 := rfl
  rw [SortedMap.get?_modify]
  split
  next heq =>
    subst heq
    simp only [Option.map_eq_some_iff, h.kept, there, getElem?_set_eq_some there, ne_eq,
      not_true_eq_false, false_and, or_false, true_and, Option.some.injEq, exists_eq_left',
      exists_eq_left, sent, hcall] at hgoing ⊢
    constructor
    . rintro ⟨_, ⟨rfl, hkept⟩, rfl⟩
      exact ⟨rfl, hgoing.mpr hkept⟩
    . rintro ⟨rfl, hkept⟩
      exact ⟨call, ⟨rfl, hgoing.mp hkept⟩, rfl⟩
  next hne =>
    rw [h.kept]
    simp [getElem?_set_eq_some there, hne]

end Orderly

@[simp]
theorem busy_take : (delivery.take id errand call event).busy = delivery.busy :=
  rfl

theorem pool_take_due (delayed : call.phase = .delayed)
    : (delivery.take id errand call .due).pool = delivery.pool.post id := by
  simp [take, LocalCall.step, delayed]

theorem pool_take_of_ne (hevent : event ≠ .due)
    : (delivery.take id errand call event).pool = delivery.pool := by
  cases event with
  | due => exact absurd rfl hevent
  | expired | returned _ | threw _ =>
    cases hphase : call.phase <;> cases hanswered : call.answered <;>
      simp [take, LocalCall.step, LocalCall.tell, hphase, hanswered]

theorem pool_take_of_ends (ends : event.ends = true)
    : (delivery.take id errand call event).pool = delivery.pool := by
  apply pool_take_of_ne
  rintro rfl
  cases ends

namespace Orderly

variable (h : Orderly threads delivery) (there : delivery.errands[id]? = some errand)
variable (sent : errand.call = some call)

include h there sent

theorem due (delayed : call.phase = .delayed)
    : Orderly threads (delivery.take id errand call .due) := by
  have hpool : (delivery.take id errand call .due).pool = delivery.pool.post id :=
    pool_take_due delayed
  have hphase : (call.step .due).1.phase = .working :=
    phase_step (show call.Expects .due from delayed)
  -- a delayed job is no work yet
  obtain ⟨hunwaiting, hfreed, hhanded⟩ : id ∉ delivery.pool.waiting ∧ id ∉ delivery.busy ∧
      errand.handed = [] := by
    cases h.standing id errand there with
    | turnedAway refused | sentBack refused => simp [refused] at sent
    | delayed _ _ _ unwaiting free handed => exact ⟨unwaiting, free, handed⟩
    | queued other hsent phase | served other hsent phase | telling other hsent phase
    | finished other hsent phase =>
      obtain rfl : call = other := Option.some.inj (sent.symm.trans hsent)
      simp [delayed] at phase
  constructor
  . rw [hpool]
    exact h.staffed
  . rw [hpool]
    apply nodup_post h.distinct
    simp [hunwaiting, hfreed]
  . intro i hi
    rw [hpool] at hi
    apply Nat.lt_of_lt_of_eq ?_ List.length_set.symm
    rcases mem_post.mp hi with hi | rfl
    . exact h.sent i hi
    . exact (List.getElem?_eq_some_iff.mp there).1
  . rw [hpool]
    apply h.standing_set there
    . exact .queued _ rfl hphase (by simp [Pool.post]) hfreed hhanded
    . intro i hne
      simp [Pool.post, hne]
    . intro i _
      rfl
  . apply h.accounts_set there
    intro other hother
    obtain rfl : (call.step .due).1 = other := Option.some.inj hother
    exact (h.accounts id errand call there sent).take delayed
  . exact h.kept_take there sent (by simp [hphase, delayed])

/--
What happens to a job need not move it from where it is among the work of the threads.
-/
theorem take {other : LocalErrand} (accounts : other.Accounts call) (expects : call.Expects event)
    (unmoved : event ≠ .due)
    (standing : (other.take call event).Standing (id ∈ delivery.pool.waiting) (id ∈ delivery.busy))
    (hgoing : (call.step event).1.phase ≠ .done ∨ id ∈ delivery.busy ↔
      call.phase ≠ .done ∨ id ∈ delivery.busy)
    : Orderly threads (delivery.take id other call event) := by
  have hpool : (delivery.take id other call event).pool = delivery.pool := pool_take_of_ne unmoved
  constructor
  . rw [hpool]
    exact h.staffed
  . rw [hpool]
    exact h.distinct
  . intro i hi
    rw [hpool] at hi
    exact Nat.lt_of_lt_of_eq (h.sent i hi) List.length_set.symm
  . rw [hpool]
    apply h.standing_set there standing
    . intro i _
      rfl
    . intro i _
      rfl
  . apply h.accounts_set there
    intro later hlater
    obtain rfl : (call.step event).1 = later := Option.some.inj hlater
    exact accounts.take expects
  . exact h.kept_take there sent hgoing

theorem expire
    : Orderly threads (delivery.take id { errand with limited := false } call .expired) := by
  have expects : call.Expects .expired := trivial
  have hphase : (call.step .expired).1.phase = call.phase := phase_step expects
  have haccounts := h.accounts id errand call there sent
  apply h.take there sent ?_ expects nofun ?_ (by rw [hphase])
  . exact ⟨haccounts.node, haccounts.told, haccounts.answered, haccounts.done_iff⟩
  . have hcall {other : LocalCall} (hsent : errand.call = some other) : call = other :=
      Option.some.inj (sent.symm.trans hsent)
    cases h.standing id errand there with
    | turnedAway refused | sentBack refused => simp [refused] at sent
    | delayed other hsent phase unwaiting free handed =>
      obtain rfl := hcall hsent
      exact .delayed _ rfl (hphase.trans phase) unwaiting free handed
    | queued other hsent phase waiting free handed =>
      obtain rfl := hcall hsent
      exact .queued _ rfl (hphase.trans phase) waiting free handed
    | served other hsent phase unwaiting busy handed =>
      obtain rfl := hcall hsent
      refine .served _ rfl (hphase.trans phase) unwaiting busy ?_
      rw [LocalCall.step_request]
      exact handed
    | telling other hsent phase unwaiting busy handed =>
      obtain rfl := hcall hsent
      refine .telling _ rfl (hphase.trans phase) unwaiting busy ?_
      rw [LocalCall.step_request]
      exact handed
    | finished other hsent phase unwaiting free handed =>
      obtain rfl := hcall hsent
      refine .finished _ rfl (hphase.trans phase) unwaiting free ?_
      rw [LocalCall.step_request]
      exact handed

theorem handed_of_taken (taken : id ∈ delivery.busy)
    : (call.phase = .working ∨ call.phase = .done) ∧ id ∉ delivery.pool.waiting ∧
        errand.handed = [call.request] := by
  cases h.standing id errand there with
  | turnedAway refused | sentBack refused => simp [refused] at sent
  | delayed _ _ _ _ free | queued _ _ _ _ free | finished _ _ _ _ free => exact absurd taken free
  | served other hsent phase unwaiting _ handed =>
    obtain rfl : call = other := Option.some.inj (sent.symm.trans hsent)
    exact ⟨.inl phase, unwaiting, handed⟩
  | telling other hsent phase unwaiting _ handed =>
    obtain rfl : call = other := Option.some.inj (sent.symm.trans hsent)
    exact ⟨.inr phase, unwaiting, handed⟩

omit there sent in
theorem staffed_leave (taken : id ∈ delivery.busy)
    : delivery.pool.release.free + (delivery.busy.erase id).length = threads := by
  have := List.length_pos_of_mem taken
  rw [List.length_erase_of_mem taken, Pool.release, ← h.staffed]
  dsimp only
  omega

theorem comeBack (taken : id ∈ delivery.busy) (working : call.phase = .working)
    (ends : event.ends = true)
    : Orderly threads (delivery.take id errand call event) := by
  obtain ⟨-, hunwaiting, hhanded⟩ := h.handed_of_taken there sent taken
  have hdone : (call.step event).1.phase = .done := phase_of_ends working ends
  apply h.take there sent (h.accounts id errand call there sent) (expects_of_ends working ends)
  . rintro rfl
    cases ends
  . refine .telling _ rfl hdone hunwaiting taken ?_
    rw [LocalCall.step_request]
    exact hhanded
  . simp [taken]

theorem forget (taken : id ∈ delivery.busy) (done : call.phase = .done)
    : Orderly threads { delivery.leave id with kept := delivery.kept.erase id } := by
  have hnodup : delivery.busy.Nodup := (List.nodup_append.mp h.distinct).1
  obtain ⟨-, hunwaiting, hhanded⟩ := h.handed_of_taken there sent taken
  constructor
  . exact h.staffed_leave taken
  . exact h.distinct.sublist (List.erase_sublist.append_right _)
  . intro i hi
    exact h.sent i ((List.erase_sublist.append_right _).subset hi)
  . intro i e found
    by_cases hid : i = id
    . subst hid
      obtain rfl : errand = e := Option.some.inj (there.symm.trans found)
      exact .finished call sent done hunwaiting hnodup.not_mem_erase hhanded
    . exact (h.standing i e found).congr Iff.rfl (List.mem_erase_of_ne hid)
  . exact h.accounts
  . intro i kept
    rw [SortedMap.get?_erase_eq]
    split
    next heq =>
      subst heq
      simp only [reduceCtorEq, leave, hnodup.not_mem_erase, or_false, false_iff, not_and, not_not]
      rintro ⟨e, found, hsent⟩
      obtain rfl : errand = e := Option.some.inj (there.symm.trans found)
      obtain rfl : call = kept := Option.some.inj (sent.symm.trans hsent)
      exact done
    next hid =>
      rw [h.kept]
      simp [leave, List.mem_erase_of_ne hid]

omit sent in
theorem takeUp {pool : Pool Nat} (waits : delivery.pool.takeUp? = some (id, pool))
    : Orderly threads { delivery with
        pool
        busy := id :: delivery.busy
        errands := delivery.errands.set id errand.handOver } := by
  obtain ⟨hwaiting, hfree, -⟩ := Pool.takeUp?_eq_some waits
  -- the work is the same as before, with one piece of it in another place
  have hperm : (id :: delivery.busy ++ pool.waiting).Perm
      (delivery.busy ++ delivery.pool.waiting) := by
    rw [hwaiting, List.cons_append]
    exact List.perm_middle.symm
  have hdistinct := hperm.nodup_iff.mpr h.distinct
  have hnot : id ∉ pool.waiting := by
    intro hmem
    rw [List.cons_append, List.nodup_cons] at hdistinct
    exact hdistinct.1 (List.mem_append_right _ hmem)
  have hwaits : id ∈ delivery.pool.waiting := by
    rw [hwaiting]
    exact List.mem_cons_self
  constructor
  . have := h.staffed
    dsimp only [List.length_cons]
    omega
  . exact hdistinct
  . intro i hi
    exact Nat.lt_of_lt_of_eq (h.sent i (hperm.mem_iff.mp hi)) List.length_set.symm
  . apply h.standing_set there
    . cases h.standing id errand there with
      | turnedAway refused work past handed told =>
        refine .turnedAway refused (.inr List.mem_cons_self) past ?_ told
        simp [handOver, refused, handed]
      | queued other hsent phase waiting free handed =>
        refine .served other hsent phase hnot List.mem_cons_self ?_
        simp [handOver, hsent, handed]
      | sentBack _ unwaiting | delayed _ _ _ unwaiting | served _ _ _ unwaiting
      | telling _ _ _ unwaiting | finished _ _ _ unwaiting => exact absurd hwaits unwaiting
    . intro i hne
      simp [hwaiting, hne]
    . intro i hne
      simp [hne]
  . apply h.accounts_set there
    intro call sent
    have haccounts := h.accounts id errand call there sent
    exact ⟨haccounts.node, haccounts.told, haccounts.answered, haccounts.done_iff⟩
  . have hcall : errand.handOver.call = errand.call := rfl
    apply h.kept_set there hcall
    . intro call sent
      cases h.standing id errand there with
      | turnedAway refused | sentBack refused => simp [refused] at sent
      | delayed _ _ _ unwaiting | served _ _ _ unwaiting | telling _ _ _ unwaiting
      | finished _ _ _ unwaiting => exact absurd hwaits unwaiting
      | queued other hsent phase =>
        obtain rfl : call = other := Option.some.inj (sent.symm.trans hsent)
        simp [phase]
    . intro i hne
      simp [hne]

omit sent in
theorem refuse (taken : id ∈ delivery.busy) (refused : errand.call = none)
    : Orderly threads { delivery.leave id with
        errands := delivery.errands.set id (errand.tell (.notReachable errand.node)) } := by
  have hnodup : delivery.busy.Nodup := (List.nodup_append.mp h.distinct).1
  have hunwaiting : id ∉ delivery.pool.waiting := by
    intro hmem
    exact (List.nodup_append.mp h.distinct).2.2 id taken id hmem rfl
  constructor
  . exact h.staffed_leave taken
  . exact h.distinct.sublist (List.erase_sublist.append_right _)
  . intro i hi
    apply Nat.lt_of_lt_of_eq (h.sent i _) List.length_set.symm
    exact (List.erase_sublist.append_right _).subset hi
  . apply h.standing_set there
    . cases h.standing id errand there with
      | turnedAway _ _ past handed told =>
        refine .sentBack refused hunwaiting hnodup.not_mem_erase past handed ?_
        simp [LocalErrand.tell, told, DispatchResult.notReachable]
      | sentBack _ _ free => exact absurd taken free
      | delayed _ hsent | queued _ hsent | served _ hsent | telling _ hsent
      | finished _ hsent => simp [refused] at hsent
    . intro i _
      rfl
    . intro i hne
      exact List.mem_erase_of_ne hne
  . apply h.accounts_set there
    intro call sent
    rw [show (errand.tell _).call = none from refused] at sent
    cases sent
  . have hcall : (errand.tell (.notReachable errand.node)).call = errand.call := rfl
    apply h.kept_set there hcall
    . simp [refused]
    . intro i hne
      exact List.mem_erase_of_ne hne

end Orderly

theorem Orderly.happens (h : Orderly threads delivery) (happens : Happens delivery next)
    : Orderly threads next := by
  cases happens with
  | due id errand call there sent delayed => exact h.due there sent delayed
  | expire id errand call there sent limited => exact h.expire there sent
  | takeUp id errand pool waits there => exact h.takeUp there waits
  | refuse id errand taken there refused => exact h.refuse there taken refused
  | comeBack id errand call event taken there sent working ends =>
    exact h.comeBack there sent taken working ends
  | forget id errand call taken there sent done => exact h.forget there sent taken done

theorem hasten_eq_or_happens (delivery : LocalDelivery) (id : Nat)
    : delivery.hasten id = delivery ∨ Happens delivery (delivery.hasten id) := by
  unfold hasten
  split
  next => exact .inl rfl
  next errand there =>
    split
    next => exact .inl rfl
    next call sent =>
      split
      next delayed => exact .inr (.due id errand call there sent delayed)
      next => exact .inl rfl

theorem Orderly.cutShort (h : Orderly threads delivery) (meant : LocalCall → Bool)
    : Orderly threads (delivery.cutShort meant) := by
  unfold LocalDelivery.cutShort
  apply List.foldlRecOn (motive := Orderly threads)
  . exact h
  . intro other hother id _
    cases hasten_eq_or_happens other id with
    | inl heq =>
      rw [heq]
      exact hother
    | inr happens => exact hother.happens happens

namespace Orderly

variable (h : Orderly threads delivery)

include h

theorem accounts_append {new : LocalErrand}
    (hnew : ∀ call, new.call = some call → new.Accounts call)
    : ∀ (i : Nat) (e : LocalErrand) call, (delivery.errands ++ [new])[i]? = some e →
      e.call = some call → e.Accounts call := by
  intro i e call found sent
  rw [getElem?_append_singleton] at found
  rcases found with ⟨rfl, rfl⟩ | found
  . exact hnew call sent
  . exact h.accounts i e call found sent

theorem not_mem_new : delivery.errands.length ∉ delivery.busy ++ delivery.pool.waiting :=
  fun hmem => Nat.lt_irrefl _ (h.sent _ hmem)

theorem turnAway (node : Text)
    : Orderly threads { delivery with
        errands := delivery.errands ++ [⟨node, none, false, [], [], []⟩]
        pool := delivery.pool.post delivery.errands.length } := by
  constructor
  . exact h.staffed
  . exact nodup_post h.distinct h.not_mem_new
  . intro i hi
    rw [List.length_append, List.length_singleton]
    rcases mem_post.mp hi with hi | rfl
    . exact Nat.lt_succ_of_lt (h.sent i hi)
    . exact Nat.lt_succ_self _
  . intro i e found
    rw [getElem?_append_singleton] at found
    rcases found with ⟨rfl, rfl⟩ | found
    . refine .turnedAway rfl (.inl ?_) rfl rfl rfl
      simp [Pool.post]
    . refine (h.standing i e found).congr ?_ Iff.rfl
      have : i ≠ delivery.errands.length :=
        Nat.ne_of_lt (List.getElem?_eq_some_iff.mp found).1
      simp [Pool.post, this]
  . apply h.accounts_append
    intro call sent
    cases sent
  . intro i call
    rw [h.kept]
    apply and_congr_left
    intro _
    simp only [getElem?_append_singleton]
    constructor
    . rintro ⟨e, found, sent⟩
      exact ⟨e, .inr found, sent⟩
    . rintro ⟨e, ⟨-, rfl⟩ | found, sent⟩
      . cases sent
      . exact ⟨e, found, sent⟩

theorem accept (node : Text) (request : VerifyRequest) (timeout : Nat)
    : Orderly threads { delivery with
        errands := delivery.errands ++
          [⟨node, some (.start node request timeout), true, [], [], []⟩]
        kept := delivery.kept.insert delivery.errands.length (.start node request timeout) } := by
  have hnone : delivery.errands[delivery.errands.length]? = none :=
    List.getElem?_eq_none (Nat.le_refl _)
  obtain ⟨hbusy, hwaiting⟩ := not_or.mp (mt List.mem_append.mpr h.not_mem_new)
  constructor
  . exact h.staffed
  . exact h.distinct
  . intro i hi
    rw [List.length_append, List.length_singleton]
    exact Nat.lt_succ_of_lt (h.sent i hi)
  . intro i e found
    rw [getElem?_append_singleton] at found
    rcases found with ⟨rfl, rfl⟩ | found
    . exact .delayed _ rfl rfl hwaiting hbusy rfl
    . exact h.standing i e found
  . apply h.accounts_append
    intro call sent
    obtain rfl := Option.some.inj sent
    constructor <;> simp [LocalCall.start, decided?]
  . intro i call
    simp only [SortedMap.get?_insert_eq, getElem?_append_singleton]
    split
    next heq =>
      subst heq
      simp only [hnone, reduceCtorEq, or_false, true_and, exists_eq_left, Option.some.injEq,
        iff_self_and]
      rintro rfl
      simp [LocalCall.start]
    next hne =>
      rw [h.kept]
      simp [hne]

theorem send (node : Text) (request : VerifyRequest) (timeout : Nat)
    : Orderly threads (delivery.send node request timeout) := by
  unfold LocalDelivery.send
  dsimp only
  split
  next => exact h.turnAway node
  next => exact h.accept node request timeout

end Orderly

theorem Orderly.step (h : Orderly threads delivery) (step : Step delivery next)
    : Orderly threads next := by
  cases step with
  | happen happens => exact h.happens happens
  | register node =>
    exact ⟨h.staffed, h.distinct, h.sent, h.standing, h.accounts, h.kept⟩
  | unregister node =>
    exact ⟨h.staffed, h.distinct, h.sent, h.standing, h.accounts, h.kept⟩
  | send node request timeout => exact h.send node request timeout
  | cancel node job => exact h.cutShort _
  | close =>
    have hcut := h.cutShort fun _ => true
    exact ⟨hcut.staffed, hcut.distinct, hcut.sent, hcut.standing, hcut.accounts, hcut.kept⟩

theorem Reached.orderly (reached : Reached threads delivery) : Orderly threads delivery := by
  induction reached with
  | start => exact orderly_start threads
  | step _ step ih => exact ih.step step

end LocalDelivery

end SnapshotAudit
