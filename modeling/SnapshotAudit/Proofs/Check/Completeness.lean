import SnapshotAudit.Proofs.Check.Completion
import SnapshotAudit.Proofs.Check.Schedules
import SnapshotAudit.Proofs.Layout.Verdict
import SnapshotAudit.Proofs.Service.Sharing
import SnapshotAudit.Proofs.Wire.Sizes

/-!
This module contains that nothing is wrong with a snapshot that was laid out. Whoever knows the
snapshot can check it, and when every node that may hold something of it replies, the verdict is
clean and says of every partition what was written.
-/

namespace SnapshotAudit

namespace Layout

open Rendezvous (assign)
open Deployment (question)

variable {before laid : FileTree} {desc : SnapshotDescriptor} {node home : Text} {job : UInt64}
variable {members : List Member} {events : List CheckEvent} {outcome : NodeOutcome}

/-!
The search for the snapshot.
-/

variable (desc) in
def search (laid : FileTree) (root : Text → Text) (nodes : List Text)
    : Except Fault (Option (Text × SnapshotDescriptor)) :=
  CheckRun.firstToKnow (fun node => Catalog.find ⟨root node, node⟩ laid desc.name) nodes

variable (desc) in
/--
A node is asked when nobody in front of it knows the name.
-/
def Asked (laid : FileTree) (root : Text → Text) (nodes : List Text) (node : Text) : Prop :=
  ∃ front back, nodes = front ++ node :: back ∧
    ∀ other ∈ front, Catalog.find ⟨root other, other⟩ laid desc.name = .ok none

theorem Asked.mem {root : Text → Text} {nodes : List Text} (h : Asked desc laid root nodes node)
    : node ∈ nodes := by
  obtain ⟨front, back, rfl, _⟩ := h
  simp

theorem search_eq {root : Text → Text} {nodes : List Text}
    (knows : ∀ node, Asked desc laid root nodes node →
      Catalog.find ⟨root node, node⟩ laid desc.name = .ok none ∨
        Catalog.find ⟨root node, node⟩ laid desc.name = .ok (some desc))
    (known : ∃ node ∈ nodes, Catalog.find ⟨root node, node⟩ laid desc.name ≠ .ok none)
    : ∃ node ∈ nodes, search desc laid root nodes = .ok (some (node, desc)) := by
  induction nodes with
  | nil =>
    obtain ⟨_, hnone, _⟩ := known
    cases hnone
  | cons first rest ih =>
    cases knows first ⟨[], rest, rfl, by simp⟩ with
    | inr hfound =>
      refine ⟨first, List.mem_cons_self, ?_⟩
      simp [search, CheckRun.firstToKnow, hfound, bind, Except.bind, pure, Except.pure]
    | inl hnone =>
      obtain ⟨node, hnode, hknows⟩ := known
      have hlater : node ∈ rest := by
        rcases List.mem_cons.mp hnode with rfl | hlater
        . exact absurd hnone hknows
        . exact hlater
      have hasked (node : Text) (h : Asked desc laid root rest node)
          : Asked desc laid root (first :: rest) node := by
        obtain ⟨front, back, rfl, hfront⟩ := h
        exact ⟨first :: front, back, rfl, List.forall_mem_cons.mpr ⟨hnone, hfront⟩⟩
      obtain ⟨finder, hfinder, hsearch⟩ :=
        ih (fun node h => knows node (hasked node h)) ⟨node, hlater, hknows⟩
      refine ⟨finder, List.mem_cons_of_mem first hfinder, ?_⟩
      rw [← hsearch]
      simp [search, CheckRun.firstToKnow, hnone, bind, Except.bind]

/-!
The replies of the nodes.
-/

/--
A node replies to a job with what its service has returned for it, whatever else the service does
before, meanwhile and afterwards. Nobody has cancelled the job.
-/
def Replies (laid : FileTree) (node : Text) (request : VerifyRequest) (outcome : NodeOutcome)
    : Prop :=
  ∃ past serving index, Serving.Happened ((inspector node).conduct laid) node past serving ∧
    serving.jobs[index]? = some ⟨request, .returned outcome⟩ ∧
    ¬Serving.TurnedAway past index ∧ ¬Serving.Withdrawn past index

theorem Replies.outcome_eq (proper : Proper desc) (hnode : node ∈ desc.baseline)
    {names : List Text}
    (share : HasShare laid desc node (Path.join (snapshotRoot node) desc.name) names)
    (h : Replies laid node (question desc node job) outcome) : outcome = report desc node := by
  obtain ⟨past, serving, index, happened, returned, came, stayed⟩ := h
  have answered : Serving.Answered ((inspector node).conduct laid) past serving.service index
      (question desc node job) outcome := happened.explained.jobs index _ returned
  cases answered with
  | turnedAway early => exact absurd early came
  | withdrawn withdrawn => exact absurd withdrawn stayed
  | shared _ _ shared =>
    -- the inspection may have been started for another job that asked the same question
    obtain ⟨id, asked, told, hsame, _, ⟨⟨_, houtcome⟩, _⟩, untold⟩ := shared
    obtain ⟨other, snapshot, pageSize, groups⟩ := asked
    obtain ⟨rfl, rfl, rfl⟩ := hsame
    have calm (n : Nat) : told.getD (n - 1) false = false := by
      rw [List.getD_eq_getElem?_getD]
      cases hget : told[n - 1]? with
      | none => rfl
      | some answer =>
        have hmem := List.mem_of_getElem? hget
        cases answer with
        | false => rfl
        | true => exact absurd hmem untold
    rw [houtcome]
    exact share.outcome_eq proper hnode other calm

theorem replies_of_run {steps : List ServingStep} {request : VerifyRequest} {index : Nat}
    (orderly : (Serving.start node).Orderly (inspector node) laid steps)
    (returned : ((Serving.start node).run (inspector node) laid steps).jobs[index]? =
      some ⟨request, .returned outcome⟩)
    (unfailed : outcome.failed = false) : Replies laid node request outcome := by
  obtain ⟨past, happened⟩ := Serving.happened_run orderly
  have answered : Serving.Answered ((inspector node).conduct laid) past _ index request outcome :=
    happened.explained.jobs index _ returned
  have kept : ¬(Serving.TurnedAway past index ∨ Serving.Withdrawn past index) := by
    intro gone
    have hfailed := (answered.saysCancelled_iff.mpr gone).failed
    simp [unfailed] at hfailed
  exact ⟨past, _, index, happened, returned, fun came => kept (.inl came),
    fun stayed => kept (.inr stayed)⟩

/--
A check that nobody cancels and that does not run out of time: every node that may hold something
is an online server, and what its participants answer are the replies of their services.
-/
structure Undisturbed (laid : FileTree) (home : Text) (job : UInt64) (desc : SnapshotDescriptor)
    (members : List Member) (events : List CheckEvent) : Prop where
  online : ∀ node, (assign desc).isEligible node = true →
    ∃ m ∈ members, m.role = .server ∧ m.id = node
  timely : .expired ∉ events
  uncancelled : .cancelled ∉ events
  replied : ∀ node ∈ CheckRun.remoteOf home (CheckRun.invited desc members), ∀ result,
    .answered node result ∈ events →
      ∃ outcome, result = .replied outcome ∧ Replies laid node (question desc node job) outcome
  inspected : home ∈ CheckRun.invited desc members → ∀ outcome, .inspected outcome ∈ events →
    Replies laid home (question desc home job) outcome

theorem Undisturbed.gives (undisturbed : Undisturbed laid home job desc members events)
    (proper : Proper desc)
    (shares : ∀ node ∈ desc.baseline, ∃ names,
      HasShare laid desc node (Path.join (snapshotRoot node) desc.name) names)
    : ∀ event ∈ events, Course.Gives home (CheckRun.invited desc members) (report desc) event := by
  have hreport (node : Text) (hnode : node ∈ CheckRun.invited desc members)
      (outcome : NodeOutcome) (h : Replies laid node (question desc node job) outcome)
      : outcome = report desc node := by
    have hbaseline := Assignment.mem_baseline_of_isEligible (CheckRun.mem_invited.mp hnode).1
    obtain ⟨names, share⟩ := shares node hbaseline
    exact h.outcome_eq proper hbaseline share
  intro event hevent
  cases event with
  | answered node result =>
    intro hremote
    obtain ⟨outcome, rfl, hreplies⟩ := undisturbed.replied node hremote result hevent
    rw [hreport node (List.mem_filter.mp hremote).1 outcome hreplies]
    rfl
  | inspected outcome =>
    intro hhome
    rw [hreport home hhome outcome (undisturbed.inspected hhome outcome hevent)]
  | expired => exact absurd hevent undisturbed.timely
  | cancelled => exact absurd hevent undisturbed.uncancelled
  | abandoned => trivial
  | delivered index => trivial

theorem Undisturbed.absent_eq_nil (undisturbed : Undisturbed laid home job desc members events)
    : CheckRun.absent desc members = [] := by
  apply List.eq_nil_iff_forall_not_mem.mpr
  intro node habsent
  obtain ⟨heligible, hnot⟩ := CheckRun.mem_absent.mp habsent
  exact hnot (CheckRun.mem_invited.mpr ⟨heligible, undisturbed.online node heligible⟩)

theorem Undisturbed.agreed_eq (undisturbed : Undisturbed laid home job desc members events)
    (node : Text)
    : (if node ∈ SharedCheck.nodes (assign desc) desc members then
        some (SharedCheck.agreed (assign desc) desc members (report desc) node)
      else none) =
        if (assign desc).isEligible node = true then some (report desc node) else none := by
  have habsent : CheckRun.offline desc (assign desc) (CheckRun.invited desc members) = [] :=
    undisturbed.absent_eq_nil
  have hnodes : node ∈ SharedCheck.nodes (assign desc) desc members ↔
      (assign desc).isEligible node = true := by
    change node ∈ CheckRun.invited desc members ++
      CheckRun.offline desc (assign desc) (CheckRun.invited desc members) ↔ _
    rw [habsent, List.append_nil]
    constructor
    . intro hinvited
      exact (CheckRun.mem_invited.mp hinvited).1
    . intro heligible
      exact CheckRun.mem_invited.mpr ⟨heligible, undisturbed.online node heligible⟩
  have hagreed : SharedCheck.agreed (assign desc) desc members (report desc) node =
      report desc node := by
    change (if node ∈ CheckRun.offline desc (assign desc) (CheckRun.invited desc members) then _
      else _) = _
    rw [habsent, if_neg List.not_mem_nil]
    rfl
  simp only [hnodes, hagreed]

/-!
The check.
-/

theorem Undisturbed.promised_eq {timeout : Nat} {course : Course}
    (undisturbed : Undisturbed laid home job desc members events)
    (scheduled : (SharedCheck.startOn (assign desc) job desc members).Scheduled home (report desc)
      course.check)
    (hcourse : course = (Course.start home timeout job desc members).run events)
    (waiting : course.waiting = []) (inspecting : course.inspecting = false)
    : course.check.promised = [.verdict course.check.run.verdict] := by
  have ledger : Course.Ledger home timeout job desc members events course :=
    hcourse ▸ Course.ledger_run events
  have tally : Course.Tally desc members events course := hcourse ▸ Course.tally_run events
  have granted : course.check.granted = 0 := SharedCheck.granted_of_scheduled scheduled
  have closed : course.check.run.finished = true := by
    by_cases hinvited : CheckRun.invited desc members = []
    . exact tally.alone hinvited
    . apply (Course.finished_iff ledger tally hinvited granted).mpr
      refine .inr ⟨fun node hnode => ?_, by simp [undisturbed.absent_eq_nil]⟩
      exact Course.recorded_of_settled ledger granted waiting inspecting hnode
  cases ledger.told.standing with
  | running running => simp [running] at closed
  | decided _ decided => exact decided
  | withdrawn _ _ cancelled => simp [granted] at cancelled

/--
A snapshot that was laid out is found by whoever knows it or can ask somebody who does, as long as
no stranger who is asked has something else under its name. A stranger is a node outside the
baseline: nothing is laid out for it, so it has under the name what was there before, which in a
fresh base directory is nothing. When all participants of the check have replied the check is over,
with a clean verdict that has the records of the owners of every partition, and no others.
-/
theorem vouches_of_laid (home : Text) (timeout : Nat) (job : UInt64) (desc : SnapshotDescriptor)
    (members : List Member) (events : List CheckEvent) (before laid : FileTree)
    (root : Text → Text) (proper : Proper desc) (tidy : before.Tidy)
    (laidOut : laySnapshot before desc = (laid, none))
    (roots : ∀ node ∈ desc.baseline, root node = snapshotRoot node)
    (strangers : ∀ node, Asked desc laid root (home :: CheckRun.peersOf home members) node →
      node ∉ desc.baseline → Catalog.find ⟨root node, node⟩ laid desc.name = .ok none ∨
        Catalog.find ⟨root node, node⟩ laid desc.name = .ok (some desc))
    (known : ∃ node ∈ home :: CheckRun.peersOf home members,
      Catalog.find ⟨root node, node⟩ laid desc.name ≠ .ok none)
    (undisturbed : Undisturbed laid home job desc members events)
    : (∃ node, search desc laid root (home :: CheckRun.peersOf home members) =
        .ok (some (node, desc))) ∧
      let course := (Course.start home timeout job desc members).run events
      (course.waiting = [] → course.inspecting = false → ∃ verdict,
        course.check.promised = [.verdict verdict] ∧ Vouches desc verdict ∧
          (course.check.owed = [] → course.check.run.result? = some (.verdict verdict))) := by
  have shares := hasShare_laySnapshot proper tidy laidOut
  refine ⟨?_, ?_⟩
  . have hknows : ∀ node, Asked desc laid root (home :: CheckRun.peersOf home members) node →
        Catalog.find ⟨root node, node⟩ laid desc.name = .ok none ∨
          Catalog.find ⟨root node, node⟩ laid desc.name = .ok (some desc) := by
      intro node hasked
      by_cases hbaseline : node ∈ desc.baseline
      . obtain ⟨names, share⟩ := shares node hbaseline
        rw [roots node hbaseline]
        exact .inr (share.find proper hbaseline)
      . exact strangers node hasked hbaseline
    obtain ⟨node, _, hsearch⟩ := search_eq hknows known
    exact ⟨node, hsearch⟩
  . intro course waiting inspecting
    have scheduled : (SharedCheck.startOn (assign desc) job desc members).Scheduled home
        (report desc) course.check := Course.scheduled_run (undisturbed.gives proper shares)
    have hpromised := undisturbed.promised_eq scheduled rfl waiting inspecting
    have hmem : .verdict course.check.run.verdict ∈ course.check.promised := by simp [hpromised]
    obtain ⟨hverdict, houtcomes⟩ :=
      (SharedCheck.agrees_of_scheduled scheduled).of_verdict hmem
    refine ⟨course.check.run.verdict, hpromised, ?_, ?_⟩
    . rw [hverdict]
      exact vouches_aggregate proper fun node => (houtcomes node).trans (undisturbed.agreed_eq node)
    . intro owed
      rw [SharedCheck.promised, owed, List.nil_append] at hpromised
      rw [CheckRun.result?, hpromised]
      rfl

set_option maxRecDepth 100000 in
theorem vouches_of_laid_pair
    : let desc : SnapshotDescriptor :=
        ⟨"s", 1, 64, ["a", "b"], [⟨103, "g", 2, 0, ["a"]⟩, ⟨102, "f", 1, 0, ["b"]⟩]⟩
      let laid := (laySnapshot .empty desc).1
      let members : List Member :=
        [⟨"c", .server, 0, 0⟩, ⟨"a", .server, 0, 0⟩, ⟨"b", .server, 0, 0⟩]
      let events : List CheckEvent := [.answered "b" (.replied (report desc "b")),
        .answered "a" (.replied (report desc "a")), .delivered 0]
      let course := (Course.start "c" 5 7 desc members).run events
      (∃ node, search desc laid snapshotRoot ["c", "a", "b"] = .ok (some (node, desc))) ∧
        ∃ verdict, course.check.run.result? = some (.verdict verdict) ∧
          Vouches desc verdict := by
  intro desc laid members events course
  have proper : Proper desc := by
    refine ⟨by decide, by decide, by decide, by decide, by decide, by decide, by decide, ?_⟩
    have hlength : ∀ node ∈ desc.baseline,
        Encode.Fits (SnapshotMetadata.encode ⟨desc, node⟩).length := by
      unfold Encode.Fits
      decide +kernel
    exact fun node hnode => SnapshotMetadata.fits_of_length (hlength node hnode)
  have laidOut : laySnapshot .empty desc = (laid, none) := by
    have hnone : (laySnapshot .empty desc).2 = none := by decide +kernel
    rw [← hnone]
  have hreplies : ∀ node ∈ desc.baseline,
      Replies laid node (question desc node 7) (report desc node) := by
    let steps (node : Text) : List ServingStep := [.enter (question desc node 7), .ask 0, .ask 0,
      .ask 0, .release 0, .announce 0, .publish 0, .collect 0]
    have orderly : ∀ node ∈ desc.baseline,
        (Serving.start node).Orderly (inspector node) laid (steps node) := by decide +kernel
    have returned : ∀ node ∈ desc.baseline,
        ((Serving.start node).run (inspector node) laid (steps node)).jobs[0]? =
          some ⟨question desc node 7, .returned (report desc node)⟩ := by decide +kernel
    exact fun node hnode => replies_of_run (orderly node hnode) (returned node hnode) rfl
  have undisturbed : Undisturbed laid "c" 7 desc members events := by
    have honline : ∀ node ∈ desc.baseline, ∃ m ∈ members, m.role = .server ∧ m.id = node := by
      decide
    refine ⟨fun node heligible => honline node (Assignment.mem_baseline_of_isEligible heligible),
      by simp [events], by simp [events], ?_, by simp [events]⟩
    intro node _ result hanswered
    have hcases : node = "b" ∧ result = .replied (report desc "b") ∨
        node = "a" ∧ result = .replied (report desc "a") := by
      simpa [events] using hanswered
    rcases hcases with ⟨rfl, rfl⟩ | ⟨rfl, rfl⟩
    . exact ⟨_, rfl, hreplies "b" (by decide)⟩
    . exact ⟨_, rfl, hreplies "a" (by decide)⟩
  have hpeers : CheckRun.peersOf "c" members = ["a", "b"] := by decide +kernel
  have strangers : ∀ node, Asked desc laid snapshotRoot ("c" :: CheckRun.peersOf "c" members) node →
      node ∉ desc.baseline → Catalog.find ⟨snapshotRoot node, node⟩ laid desc.name = .ok none ∨
        Catalog.find ⟨snapshotRoot node, node⟩ laid desc.name = .ok (some desc) := by
    intro node hasked hstranger
    have hnode := hasked.mem
    rw [hpeers] at hnode
    obtain rfl := (List.mem_cons.mp hnode).resolve_right hstranger
    exact .inl (by decide +kernel)
  have known : ∃ node ∈ ("c" : Text) :: CheckRun.peersOf "c" members,
      Catalog.find ⟨snapshotRoot node, node⟩ laid desc.name ≠ .ok none := by
    obtain ⟨names, share⟩ := hasShare_laySnapshot proper FileTree.tidy_empty laidOut "a" (by decide)
    refine ⟨"a", by decide +kernel, ?_⟩
    rw [share.find proper (by decide)]
    exact nofun
  have hvouches := vouches_of_laid "c" 5 7 desc members events .empty laid snapshotRoot proper
    FileTree.tidy_empty laidOut (fun _ _ => rfl) strangers known undisturbed
  rw [hpeers] at hvouches
  refine ⟨hvouches.1, ?_⟩
  obtain ⟨verdict, _, hverdict, hresult⟩ := hvouches.2 (by decide +kernel) (by decide +kernel)
  exact ⟨verdict, hresult (by decide +kernel), hverdict⟩

end Layout

end SnapshotAudit
