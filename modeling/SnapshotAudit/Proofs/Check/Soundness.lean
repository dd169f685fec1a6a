import SnapshotAudit.Layout.Snapshot
import SnapshotAudit.Proofs.Assignment
import SnapshotAudit.Proofs.Check.Course
import SnapshotAudit.Proofs.Service.Serving

/-!
This module contains what a clean verdict is worth. When every node answers with what its own
service has found in its own files, a clean verdict says that each copy of each partition is there
and not damaged, and that the copies of a partition agree.
-/

namespace SnapshotAudit

structure Deployment where
  root : Text → Text
  tree : Text → FileTree

namespace Deployment

variable (deployment : Deployment)

def inspector (node : Text) : Inspector :=
  ⟨node, deployment.root node⟩

def directory (desc : SnapshotDescriptor) (node : Text) : Text :=
  Path.join (deployment.root node) desc.name

def groupDirectory (desc : SnapshotDescriptor) (group : GroupDescriptor) (node : Text) : Text :=
  Path.join (deployment.directory desc node) (FileName.groupDirectory group.name)

/--
What a node answers to a request: that it failed, or what its service returns for the request,
whatever else the service does before, meanwhile and afterwards.
-/
def Answers (node : Text) (request : VerifyRequest) (outcome : NodeOutcome) : Prop :=
  outcome.failed = true ∨ ∃ steps : List ServingStep,
    ⟨request, .returned outcome⟩ ∈
      ((Serving.start node).run (deployment.inspector node) (deployment.tree node) steps).jobs

/--
Every job of a check was executed by the node that it was sent to.
-/
structure Honest (home : Text) (job : UInt64) (desc : SnapshotDescriptor) (members : List Member)
    (events : List CheckEvent) : Prop where
  replied : ∀ node request outcome,
    (node, request) ∈ (CheckRun.start job desc members).remoteJobs home →
      .answered node (.replied outcome) ∈ events → deployment.Answers node request outcome
  inspected : ∀ outcome, .inspected outcome ∈ events →
    deployment.Answers home ((CheckRun.start job desc members).requestFor home) outcome

variable {deployment}
variable {home : Text} {timeout : Nat} {job : UInt64} {desc : SnapshotDescriptor}
variable {members : List Member} {events : List CheckEvent}

/-!
The answers of the nodes.
-/

def question (desc : SnapshotDescriptor) (node : Text) (job : UInt64) : VerifyRequest :=
  ⟨job, desc.name, desc.pageSize, (Rendezvous.assign desc).expectedFor desc node⟩

theorem requestFor_start (node : Text)
    : (CheckRun.start job desc members).requestFor node = question desc node job := by
  simp only [CheckRun.requestFor, CheckRun.start_desc, CheckRun.start_assignment, question]
  rw [CheckRun.start_job]

def Found (deployment : Deployment) (desc : SnapshotDescriptor) (node : Text)
    (outcome : NodeOutcome) : Prop :=
  outcome.failure = none ∧ ∃ job told, outcome =
    (Serving.inspection (deployment.inspector node) (deployment.tree node)
      (question desc node job) told).outcome

theorem Answers.found {node : Text} {outcome : NodeOutcome}
    (h : deployment.Answers node (question desc node job) outcome)
    (hfailure : outcome.failure = none)
    : deployment.Found desc node outcome := by
  have hsucceeded : outcome.failed = false := by simp [NodeOutcome.failed, hfailure]
  have hreported : Serving.Reported (deployment.inspector node) (deployment.tree node)
      (question desc node job) outcome := by
    cases h with
    | inl failed => exact absurd (hsucceeded.symm.trans failed) Bool.false_ne_true
    | inr returned =>
      obtain ⟨steps, hjob⟩ := returned
      exact Serving.reported_of_run (deployment.inspector node) (deployment.tree node) steps hjob
  cases hreported with
  | inl cancelled =>
    obtain ⟨_, _, refused⟩ := cancelled
    exact absurd (hsucceeded.symm.trans refused.failed) Bool.false_ne_true
  | inr inspected =>
    obtain ⟨asked, told, hsame, houtcome⟩ := inspected
    obtain ⟨other, snapshot, pageSize, groups⟩ := asked
    obtain ⟨rfl, rfl, rfl⟩ := (VerifyRequest.sameQuestion_eq_true_iff ..).mp hsame
    exact ⟨hfailure, other, told, houtcome⟩

theorem Found.node_eq {node : Text} {outcome : NodeOutcome}
    (h : deployment.Found desc node outcome) : outcome.node = node := by
  obtain ⟨hfailure, job, told, rfl⟩ := h
  exact Inspector.inspect_node hfailure

theorem Honest.found (honest : deployment.Honest home job desc members events) {node : Text}
    (hserver : ∃ m ∈ members, m.role = .server ∧ m.id = node)
    (heligible : (Rendezvous.assign desc).isEligible node = true)
    {event : CheckEvent} (hevent : event ∈ events) {outcome : NodeOutcome}
    (hsaid : Course.Says home timeout node event outcome) (hfailure : outcome.failure = none)
    : deployment.Found desc node outcome := by
  cases hsaid with
  | replied remote reply =>
    have hjob : (node, question desc node job) ∈
        (CheckRun.start job desc members).remoteJobs home :=
      Course.mem_remoteJobs.mpr ⟨remote, heligible, hserver, rfl⟩
    have hfound := (honest.replied node _ reply hjob hevent).found hfailure
    rwa [show { reply with node := node } = reply by simp only [← hfound.node_eq]]
  | failed remote error => cases hfailure
  | timedOut remote error => cases hfailure
  | inspected own found =>
    subst own
    have hsaid := honest.inspected found hevent
    rw [requestFor_start] at hsaid
    have hfound := hsaid.found hfailure
    rwa [show { found with node := node } = found by simp only [← hfound.node_eq]]
  | expired => cases hfailure

/-!
What a node has found in a clean verdict.
-/

structure Shares (deployment : Deployment) (desc : SnapshotDescriptor) (verdict : Verdict)
    (group : GroupDescriptor) (node : Text) : Prop where
  metafile : Inspector.HoldsMetafile (deployment.tree node)
    (Path.join (deployment.directory desc node) (FileName.metafile node)) desc.name node
  directory : (deployment.tree node).isDirectory (deployment.groupDirectory desc group node) = true
  groupData : Inspector.HoldsGroupData (deployment.tree node)
    (Path.join (deployment.groupDirectory desc group node) FileName.groupData) group.id
  partitions : ∀ p < group.partitions,
    (Rendezvous.assign desc).isOwner ⟨group.id, p⟩ node = true →
      ∃ record, Aggregation.recordAt verdict ⟨group.id, p⟩ node = some record ∧
        Inspector.HoldsPartition (deployment.tree node)
          (Path.join (deployment.groupDirectory desc group node) (FileName.partition p))
          desc.pageSize p record.counter

section Answer

variable {outcomes : SortedMap Text NodeOutcome} {node : Text} {outcome : NodeOutcome}
variable {group : GroupDescriptor} {p : UInt32}

theorem Found.nothing_missing (h : deployment.Found desc node outcome)
    (distinct : (desc.groups.map GroupDescriptor.id).Nodup)
    (hget : outcomes.get? node = some outcome)
    (clean : (aggregate desc (Rendezvous.assign desc) outcomes).clean = true)
    : outcome.missingGroups = [] ∧ outcome.missingPartitions = [] ∧
      outcome.missingMetadata = [] := by
  obtain ⟨hgroups, hpartitions, hmetadata⟩ := Verdict.missing_eq_nil_of_clean clean hget
  obtain ⟨hfailure, job, told, rfl⟩ := h
  refine ⟨?_, ?_, ?_⟩
  . apply List.eq_nil_iff_forall_not_mem.mpr
    intro id hid
    obtain ⟨expected, hexpected, rfl⟩ := Inspector.exists_of_mem_missingGroups hfailure hid
    obtain ⟨group, hgroup, _, rfl⟩ := Assignment.mem_expectedFor.mp hexpected
    have hnone := List.filterMap_eq_nil_iff.mp hgroups _ hid
    simp [Rendezvous.group?_eq_some distinct hgroup] at hnone
  . apply List.eq_nil_iff_forall_not_mem.mpr
    intro key hkey
    obtain ⟨expected, hexpected, p, hp, rfl⟩ :=
      Inspector.exists_of_mem_missingPartitions hfailure hkey
    obtain ⟨group, hgroup, _, rfl⟩ := Assignment.mem_expectedFor.mp hexpected
    have hbound := (Assignment.mem_ownedPartitions.mp hp).1
    have hnone := List.filterMap_eq_nil_iff.mp hpartitions _ hkey
    simp only [Aggregation.groupOfKey?, Rendezvous.group?_eq_some distinct hgroup,
      Option.filter_some, hbound] at hnone
    cases hnone
  . exact List.map_eq_nil_iff.mp hmetadata

theorem record_unique {told : List Bool} (distinct : (desc.groups.map GroupDescriptor.id).Nodup)
    (hgroup : group ∈ desc.groups)
    (hfailure : (Serving.inspection (deployment.inspector node) (deployment.tree node)
      (question desc node job) told).outcome.failure = none)
    {record : PartitionRecord}
    (hrecord : record ∈ (Serving.inspection (deployment.inspector node) (deployment.tree node)
      (question desc node job) told).outcome.partitions)
    (hkey : record.key = ⟨group.id, p⟩)
    : (deployment.inspector node).recordOf? (deployment.tree node) (question desc node job)
        ⟨group.id, group.name, (Rendezvous.assign desc).ownedPartitions group node⟩ p =
      some record := by
  obtain ⟨expected, hexpected, q, _, hfound⟩ :=
    Inspector.recordOf?_of_mem_partitions hfailure hrecord
  obtain ⟨other, hother, _, rfl⟩ := Assignment.mem_expectedFor.mp hexpected
  have hsame := hkey.symm.trans (Inspector.recordOf?_eq_some hfound).1
  simp only [PartitionKey.mk.injEq] at hsame
  obtain ⟨hid, rfl⟩ := hsame
  -- the record is about the same identity, and only one group has it
  have heq : group = other := by
    have hfirst := Rendezvous.group?_eq_some distinct hgroup
    rw [hid, Rendezvous.group?_eq_some distinct hother] at hfirst
    exact (Option.some.inj hfirst).symm
  rw [heq]
  exact hfound

theorem Found.shares (h : deployment.Found desc node outcome)
    (distinct : (desc.groups.map GroupDescriptor.id).Nodup)
    (hget : outcomes.get? node = some outcome)
    (clean : (aggregate desc (Rendezvous.assign desc) outcomes).clean = true)
    (hgroup : group ∈ desc.groups)
    (heligible : ((Rendezvous.assign desc).eligible.getD group.id .empty).contains node = true)
    : deployment.Shares desc (aggregate desc (Rendezvous.assign desc) outcomes) group node := by
  obtain ⟨hgroups, hpartitions, hmetadata⟩ := h.nothing_missing distinct hget clean
  obtain ⟨hfailure, job, told, rfl⟩ := h
  obtain ⟨hmetafile, hcomplete⟩ :=
    Inspector.complete_of_inspect hfailure hgroups hpartitions hmetadata
  have hexpected : ⟨group.id, group.name, (Rendezvous.assign desc).ownedPartitions group node⟩ ∈
      (question desc node job).groups :=
    Assignment.mem_expectedFor.mpr ⟨group, hgroup, heligible, rfl⟩
  obtain ⟨hdirectory, hdata, hrecords⟩ := hcomplete _ hexpected
  have hmetafile := Inspector.holdsMetafile_of_check hmetafile
  have hdata := Inspector.holdsGroupData_of_check hdata
  refine ⟨hmetafile, hdirectory, hdata, ?_⟩
  intro p hp howner
  obtain ⟨record, hrecord, hfound⟩ :=
    hrecords p (Assignment.mem_ownedPartitions.mpr ⟨hp, howner⟩)
  obtain ⟨hkey, hholds⟩ := Inspector.recordOf?_eq_some hfound
  refine ⟨record, ?_, hholds⟩
  rw [Verdict.recordAt_aggregate, hget, Option.bind_some, Aggregation.countingRecord,
    NodeOutcome.failed, hfailure]
  apply Aggregation.lastRecord_eq_some
  . apply List.mem_filter.mpr
    refine ⟨hrecord, ?_⟩
    simp [Aggregation.counts, hkey, Rendezvous.group?_eq_some distinct hgroup, howner]
  . exact hkey
  . intro other hother hsame
    have hunique := record_unique distinct hgroup hfailure (List.mem_filter.mp hother).1 hsame
    exact Option.some.inj (hunique.symm.trans hfound)

end Answer

/-!
The verdict as a whole.
-/

theorem eligible_of_owner (distinct : (desc.groups.map GroupDescriptor.id).Nodup)
    {group : GroupDescriptor} (hgroup : group ∈ desc.groups) {p : UInt32}
    (hp : p < group.partitions) {node : Text}
    (howner : node ∈ (Rendezvous.assign desc).owners.getD ⟨group.id, p⟩ [])
    : ((Rendezvous.assign desc).eligible.getD group.id .empty).contains node = true := by
  rw [Rendezvous.owners_of_distinct distinct hgroup hp] at howner
  rw [SortedMap.getD, Rendezvous.eligible_of_distinct distinct hgroup]
  exact (SortedSet.contains_ofElements _ _).mpr (Rendezvous.admitted_of_mem_ownersOf howner)

end Deployment

end SnapshotAudit
