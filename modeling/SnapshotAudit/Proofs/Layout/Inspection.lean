import SnapshotAudit.Proofs.Check.Soundness
import SnapshotAudit.Proofs.Layout.Snapshot

/-!
This module contains what a node makes of its share of a snapshot that was laid out: it knows what
the snapshot is, and an inspection that is not told to stop finds all of the share and nothing else.
-/

namespace SnapshotAudit

namespace Layout

open Deployment (question)

def record (group : Int32) (partition : UInt32) : PartitionRecord :=
  ⟨⟨group, partition⟩, firstCounter partition, true, true, (pagesPerPartition - 1).toUInt32⟩

def report (desc : SnapshotDescriptor) (node : Text) : NodeOutcome :=
  { NodeOutcome.blank node with
    partitions := ((Rendezvous.assign desc).expectedFor desc node).flatMap fun expected =>
      expected.partitions.map (record expected.id) }

def inspector (node : Text) : Inspector :=
  ⟨node, snapshotRoot node⟩

variable {tree : FileTree} {desc : SnapshotDescriptor} {node : Text} {names : List Text}
variable {request : VerifyRequest}

/-!
The catalog.
-/

theorem HasShare.find (proper : Proper desc) (hnode : node ∈ desc.baseline)
    (share : HasShare tree desc node (Path.join (snapshotRoot node) desc.name) names)
    : Catalog.find ⟨snapshotRoot node, node⟩ tree desc.name = .ok (some desc) := by
  obtain ⟨id, hfile, hbytes⟩ := share.metafile.read
  have hread : Metafile.readSnapshot tree
      (Path.join (Path.join (snapshotRoot node) desc.name) (FileName.metafile node)) =
        .ok (some ⟨desc, node⟩) := by
    simp only [Metafile.readSnapshot, Metafile.read, FileTree.read, hfile, bind, Except.bind, pure,
      Except.pure, hbytes, (SnapshotMetadata.exact_encode (proper.fits node hnode)).whole]
  have hown : Catalog.descriptorFor? desc.name (some ⟨desc, node⟩) = some desc := by
    simp [Catalog.descriptorFor?, Option.filter_some]
  simp only [Catalog.find, Catalog.search, Catalog.directory, share.directory.isDirectory, if_true,
    hread, hown]

/-!
The checks of an inspection.
-/

section Checks

variable (hsnapshot : request.snapshot = desc.name)

include hsnapshot

theorem HasShare.checkMetafile (proper : Proper desc) (hnode : node ∈ desc.baseline)
    (share : HasShare tree desc node (Path.join (snapshotRoot node) desc.name) names)
    : (inspector node).checkMetafile tree request = .ok [] := by
  obtain ⟨id, hfile, hbytes⟩ := share.metafile.read
  unfold Inspector.checkMetafile
  simp only [Inspector.directory, inspector, hsnapshot, hfile, hbytes,
    (SnapshotMetadata.exact_encode (proper.fits node hnode)).whole]
  simp

variable {group : GroupDescriptor} {partitions : List UInt32} {data : GroupData}
variable {groupNames : List Text} {pageSize : UInt32}

theorem HasGroup.isDirectory
    (has : HasGroup tree pageSize (Path.join (Path.join (snapshotRoot node) desc.name)
      (FileName.groupDirectory group.name)) groupNames data partitions)
    : tree.isDirectory ((inspector node).groupDirectory request
        ⟨group.id, group.name, partitions⟩) = true := by
  rw [Inspector.groupDirectory, Inspector.directory, hsnapshot]
  exact has.directory.isDirectory

theorem HasGroup.checkGroupData (fits : Encode.Fits data.name.length) (hid : data.id = group.id)
    (has : HasGroup tree pageSize (Path.join (Path.join (snapshotRoot node) desc.name)
      (FileName.groupDirectory group.name)) groupNames data partitions)
    : (inspector node).checkGroupData tree request ⟨group.id, group.name, partitions⟩ =
      .ok [] := by
  obtain ⟨id, hfile, hbytes⟩ := has.groupData.read
  unfold Inspector.checkGroupData
  simp only [Inspector.groupDirectory, Inspector.directory, inspector, hsnapshot, hfile, hbytes,
    (GroupData.exact_encode fits).whole, hid]
  simp

theorem HasGroup.checkPartition (hpageSize : request.pageSize = pageSize)
    (minimum : PageLayout.minimumSize ≤ pageSize.toNat)
    (has : HasGroup tree pageSize (Path.join (Path.join (snapshotRoot node) desc.name)
      (FileName.groupDirectory group.name)) groupNames data partitions)
    {p : UInt32} (hp : p ∈ partitions) (maximum : p ≤ PageLayout.maximumPartition)
    : (inspector node).checkPartition tree request ⟨group.id, group.name, partitions⟩ p =
      .ok (some (record group.id p)) := by
  obtain ⟨bytes, pages, hlaid, hshows⟩ := has.partitions p hp
  obtain ⟨id, hfile, rfl⟩ := hshows.read
  obtain ⟨file, hsize, haudit⟩ := hlaid.audited minimum maximum
    (Path.join (Path.join (Path.join (snapshotRoot node) desc.name)
      (FileName.groupDirectory group.name)) (FileName.partition p))
  unfold Inspector.checkPartition
  simp only [Inspector.groupDirectory, Inspector.directory, inspector, hsnapshot, hfile, hpageSize,
    hsize, bind, Except.bind, haudit]
  rfl

end Checks

/-!
The inspection.
-/

structure Complete (tree : FileTree) (node : Text) (request : VerifyRequest)
    (expected : ExpectedGroup) : Prop where
  directory : tree.isDirectory ((inspector node).groupDirectory request expected) = true
  groupData : (inspector node).checkGroupData tree request expected = .ok []
  partitions : ∀ p ∈ expected.partitions,
    (inspector node).checkPartition tree request expected p = .ok (some (record expected.id p))

theorem Complete.intact {expected : ExpectedGroup} (h : Complete tree node request expected)
    : (inspector node).Intact tree request expected where
  groupData _ := ⟨[], h.groupData⟩
  partitions _ p hp := ⟨_, h.partitions p hp⟩

theorem Complete.findings_eq {expected : ExpectedGroup} (h : Complete tree node request expected)
    : (inspector node).findings tree request expected =
      { NodeOutcome.blank node with
        partitions := expected.partitions.map (record expected.id) } := by
  have hrecords : expected.partitions.filterMap
      ((inspector node).recordOf? tree request expected) =
        expected.partitions.map (record expected.id) := by
    rw [← List.filterMap_eq_map]
    apply List.filterMap_congr
    intro p hp
    rw [Inspector.recordOf?, h.partitions p hp]
    rfl
  have hlacks : expected.partitions.filter
      ((inspector node).lacks tree request expected) = [] := by
    apply List.filter_eq_nil_iff.mpr
    intro p hp
    rw [Inspector.lacks, h.partitions p hp]
    simp [Except.toOption]
  simp only [Inspector.findings, h.directory, if_true, hrecords, hlacks, h.groupData,
    Except.toOption]
  rfl

theorem HasShare.complete (proper : Proper desc)
    (share : HasShare tree desc node (Path.join (snapshotRoot node) desc.name) names)
    (hnode : node ∈ desc.baseline) (job : UInt64) {expected : ExpectedGroup}
    (hexpected : expected ∈ (Rendezvous.assign desc).expectedFor desc node)
    : Complete tree node (question desc node job) expected := by
  obtain ⟨group, hgroup, heligible, rfl⟩ := Assignment.mem_expectedFor.mp hexpected
  have has := share.groups group hgroup heligible
  have hsnapshot : (question desc node job).snapshot = desc.name := rfl
  have hdata := has.checkGroupData hsnapshot ((proper.fits node hnode).names group hgroup) rfl
  refine ⟨has.isDirectory hsnapshot, hdata, fun p hp => ?_⟩
  apply has.checkPartition hsnapshot rfl proper.pageSize hp
  -- a group has no more partitions than can be told apart in a page
  have hbound := (Assignment.mem_ownedPartitions.mp hp).1
  have hcount := proper.partitions group hgroup
  have hmaximum : PageLayout.maximumPartition.toNat = 65535 := rfl
  rw [UInt32.lt_iff_toNat_lt] at hbound
  rw [UInt32.le_iff_toNat_le]
  omega

theorem HasShare.outcome_eq (proper : Proper desc) (hnode : node ∈ desc.baseline)
    (share : HasShare tree desc node (Path.join (snapshotRoot node) desc.name) names)
    (job : UInt64) {cancelled : Nat → Bool} (calm : ∀ n, cancelled n = false)
    : ((inspector node).inspect tree (question desc node job) cancelled).1.outcome =
      report desc node := by
  have complete (expected : ExpectedGroup) (hexpected : expected ∈ (question desc node job).groups)
      : Complete tree node (question desc node job) expected :=
    share.complete proper hnode job hexpected
  have hmetafile : (inspector node).checkMetafile tree (question desc node job) = .ok [] :=
    share.checkMetafile rfl proper hnode
  have hdirectory : tree.isDirectory
      ((inspector node).directory (question desc node job)) = true := by
    rw [Inspector.directory]
    exact share.directory.isDirectory
  have hfailure := Inspector.failure_of_intact calm proper.name.nonempty hdirectory hmetafile
    fun expected hexpected => (complete expected hexpected).intact
  obtain ⟨missing, _, hmissing, _, houtcome⟩ := Inspector.inspect_ok hfailure
  obtain rfl : [] = missing := by simpa using hmetafile.symm.trans hmissing
  have hfound : (question desc node job).groups.map
        ((inspector node).findings tree (question desc node job)) =
      (question desc node job).groups.map fun expected =>
        { NodeOutcome.blank node with
          partitions := expected.partitions.map (record expected.id) } :=
    List.map_congr_left fun expected hexpected => (complete expected hexpected).findings_eq
  rw [houtcome]
  simp only [Inspector.enter, hfound]
  simp [report, NodeOutcome.blank, List.flatMap_map, inspector, question]

end Layout

end SnapshotAudit
