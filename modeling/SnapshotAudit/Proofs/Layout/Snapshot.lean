import Mathlib.Data.List.Forall2
import SnapshotAudit.Layout.Snapshot
import SnapshotAudit.Proofs.Assignment
import SnapshotAudit.Proofs.FileTree.Changes
import SnapshotAudit.Proofs.Layout.Names
import SnapshotAudit.Proofs.Layout.Pages
import SnapshotAudit.Proofs.Wire.RoundTrip

/-!
This module contains what is there when a snapshot was laid out: every node of the baseline has its
metafile and, for every group that it is asked for, the group data and the partitions that it owns.
-/

namespace SnapshotAudit

namespace FileTree

variable {tree next last : FileTree} {names above : List Text} {name : Text}

theorem placeOf_concat (own : Path.isDots name = false) (h : placeOf above = .inside names)
    : placeOf (above ++ [name]) = .inside (names ++ [name]) := by
  rw [placeOf] at h ⊢
  rw [List.foldl_append, h]
  exact step_own own

end FileTree

namespace Layout

open FileTree

variable {tree next : FileTree} {dir : Text} {above names : List Text}
variable {pageSize partition : UInt32}

/-!
A partition.
-/

theorem writes_go {pages : List PageSource} {start : FileTree} {file : Text} {bytes : Bytes}
    (plain : Path.Plain dir above) (hfile : Path.IsName file) (own : Path.isDots file = false)
    (hplace : placeOf above = .inside names) (writes : Writes start tree dir file names bytes)
    (h : writePartition.go (Path.join dir file) pageSize tree pages = (next, none))
    : ∃ images, List.Forall₂ (fun page image => page.bytes pageSize = .ok image) pages images ∧
        Writes start next dir file names (bytes ++ images.flatten) := by
  induction pages generalizing tree bytes with
  | nil =>
    cases h
    exact ⟨[], .nil, by simpa using writes⟩
  | cons page rest ih =>
    rw [writePartition.go] at h
    cases himage : page.bytes pageSize with
    | error fault =>
      rw [himage] at h
      cases h
    | ok image =>
      simp only [himage, bind, Except.bind, orCannotCreate] at h
      split at h
      next => cases h
      next longer hwritten =>
        split at hwritten
        next happended =>
          cases hwritten
          obtain ⟨images, himages, hwrites⟩ := ih (writes.append plain hfile own hplace happended) h
          exact ⟨image :: images, .cons himage himages, by simpa using hwrites⟩
        next => cases hwritten

def HasPartition (tree : FileTree) (pageSize : UInt32) (dir : Text) (names : List Text)
    (partition : UInt32) : Prop :=
  ∃ bytes pages, LaidFile pageSize partition bytes pages ∧
    tree.Shows (Path.join dir (FileName.partition partition))
      (names ++ [FileName.partition partition]) (.file bytes)

theorem laidFile_of_images {images : List Bytes}
    (h : List.Forall₂ (fun page image => page.bytes pageSize = .ok image)
      ((List.range pagesPerPartition).map (fixedPage partition)) images)
    : LaidFile pageSize partition images.flatten images := by
  have hlength : images.length = pagesPerPartition := by simpa using h.length_eq.symm
  refine ⟨rfl, hlength, ?_⟩
  intro index page hpage
  obtain ⟨hin, rfl⟩ := List.getElem?_eq_some_iff.mp hpage
  have hindex : index < pagesPerPartition := hlength ▸ hin
  have himage := h.get (by simpa using hindex) hin
  simp only [List.get_eq_getElem, List.getElem_map, List.getElem_range] at himage
  exact laid_fixedPage hindex himage

theorem writes_writePartition (tidy : tree.Tidy) (plain : Path.Plain dir above)
    (hplace : placeOf above = .inside names)
    (h : writePartition tree (Path.join dir (FileName.partition partition)) pageSize partition =
      (next, none))
    : ∃ bytes pages, LaidFile pageSize partition bytes pages ∧
        Writes tree next dir (FileName.partition partition) names bytes := by
  have hname := FileName.isName_partition partition
  have own := FileName.own_partition partition
  unfold writePartition at h
  cases hwrite : tree.write (Path.join dir (FileName.partition partition)) [] with
  | error error =>
    simp only [hwrite, orCannotCreate] at h
    cases h
  | ok empty =>
    simp only [hwrite, orCannotCreate] at h
    obtain ⟨others, hothers, hwrites⟩ := tidy.write plain hname own hwrite
    obtain rfl : names = others := by simpa using hplace.symm.trans hothers
    obtain ⟨images, himages, hwrites⟩ := writes_go plain hname own hplace hwrites h
    exact ⟨_, images, laidFile_of_images himages, by simpa using hwrites⟩

/-!
A directory with a file that describes what is in it.
-/

theorem writes_layDirectory {file : Text} {bytes : Bytes} (tidy : tree.Tidy)
    (plain : Path.Plain dir above) (hfile : Path.IsName file) (own : Path.isDots file = false)
    (h : layDirectory tree dir file bytes = (next, none))
    : ∃ names, placeOf above = .inside names ∧ Writes tree next dir file names bytes := by
  have hgrows := grows_createDirectories tidy.rooted dir
  obtain ⟨made, hmade, hattempt⟩ := andThen_ok h
  rw [hmade] at hgrows
  have hwritten := attempt_ok hattempt
  unfold Metafile.write at hwritten
  split at hwritten
  next hwrite =>
    cases hwritten
    obtain ⟨names, hplace, hwrites⟩ := (tidy.grows hgrows).write plain hfile own hwrite
    exact ⟨names, hplace, hwrites.tidy, (hgrows.spares _).trans hwrites.spares,
      hwrites.directory, hwrites.file⟩
  next => cases hwritten

/-!
A group.
-/

def InGroup (names other : List Text) : Prop :=
  other = names ++ [FileName.groupData] ∨ ∃ p, other = names ++ [FileName.partition p]

structure HasGroup (tree : FileTree) (pageSize : UInt32) (dir : Text) (names : List Text)
    (data : GroupData) (partitions : List UInt32) : Prop where
  directory : tree.Shows dir names .directory
  groupData : tree.Shows (Path.join dir FileName.groupData) (names ++ [FileName.groupData])
    (.file data.encode)
  partitions : ∀ p ∈ partitions, HasPartition tree pageSize dir names p

variable {touched : List Text → Prop}

theorem HasPartition.extends (h : HasPartition tree pageSize dir names partition)
    (hnext : tree.Extends next touched)
    (spared : ¬touched (names ++ [FileName.partition partition]))
    : HasPartition next pageSize dir names partition := by
  obtain ⟨bytes, pages, hfile, hshows⟩ := h
  exact ⟨bytes, pages, hfile, hshows.file hnext spared⟩

theorem HasGroup.extends {data : GroupData} {partitions : List UInt32}
    (h : HasGroup tree pageSize dir names data partitions) (hnext : tree.Extends next touched)
    (spared : ∀ other, InGroup names other → ¬touched other)
    : HasGroup next pageSize dir names data partitions where
  directory := h.directory.directory hnext
  groupData := h.groupData.file hnext (spared _ (.inl rfl))
  partitions p hp := (h.partitions p hp).extends hnext (spared _ (.inr ⟨p, rfl⟩))

theorem hasGroup_layGroup {desc : SnapshotDescriptor} {expected : ExpectedGroup}
    {group : GroupDescriptor} (tidy : tree.Tidy)
    (plain : Path.Plain (Path.join dir (FileName.groupDirectory expected.name)) above)
    (hplace : placeOf above = .inside names) (hgroup : desc.group? expected.id = some group)
    (distinct : expected.partitions.Nodup)
    (h : layGroup desc dir tree expected = (next, none))
    : next.Tidy ∧ tree.Extends next (InGroup names) ∧
      HasGroup next desc.pageSize (Path.join dir (FileName.groupDirectory expected.name)) names
        ⟨group.id, group.name, group.partitions, group.backups⟩ expected.partitions := by
  simp only [layGroup, hgroup] at h
  generalize Path.join dir (FileName.groupDirectory expected.name) = groupDir at plain h ⊢
  obtain ⟨made, hlaid, hrest⟩ := andThen_ok h
  obtain ⟨others, hothers, hwrites⟩ := writes_layDirectory tidy plain
    FileName.isName_groupData FileName.own_groupData hlaid
  obtain rfl : names = others := by simpa using hplace.symm.trans hothers
  have hsequence := sequence_ok distinct
    (I := fun current => current.Tidy ∧ tree.Extends current (InGroup names) ∧
      HasGroup current desc.pageSize groupDir names
        ⟨group.id, group.name, group.partitions, group.backups⟩ [])
    (P := fun p current => HasPartition current desc.pageSize groupDir names p)
    ?step ⟨hwrites.tidy, hwrites.spares.mono fun _ => .inl,
      hwrites.directory, hwrites.file, by simp⟩ hrest
  case step =>
    rintro p _ current later ⟨htidy, hextends, hgroup⟩ hrun
    obtain ⟨bytes, pages, hfile, hwrites⟩ := writes_writePartition htidy plain hplace hrun
    refine ⟨⟨hwrites.tidy, ?_, ?_⟩, ⟨bytes, pages, hfile, hwrites.file⟩, ?_⟩
    . exact hextends.trans (hwrites.spares.mono fun _ heq => .inr ⟨p, heq⟩)
    . refine ⟨hgroup.directory.directory hwrites.spares,
        hgroup.groupData.file hwrites.spares ?_, by simp⟩
      intro heq
      exact FileName.partition_ne_groupData p (List.append_singleton_inj.mp heq).2.symm
    . intro other _ hne hother
      apply hother.extends hwrites.spares
      intro heq
      exact hne (FileName.partition_injective (List.append_singleton_inj.mp heq).2)
  obtain ⟨⟨htidy, hextends, hgroup⟩, hpartitions⟩ := hsequence
  exact ⟨htidy, hextends, hgroup.directory, hgroup.groupData, hpartitions⟩

/-!
The share of a node.
-/

/--
A snapshot that can be laid out and checked: its nodes are distinct and its groups have distinct
identities, names can be those of files, and a metafile can hold all of it.
-/
structure Proper (desc : SnapshotDescriptor) : Prop where
  name : Path.IsName desc.name
  nodes : desc.baseline.Nodup
  nodeNames : ∀ node ∈ desc.baseline, Path.IsName node
  ids : (desc.groups.map GroupDescriptor.id).Nodup
  groupNames : ∀ group ∈ desc.groups, Path.IsName group.name ∧
    group.id = GroupDescriptor.idOfName group.name
  partitions : ∀ group ∈ desc.groups, group.partitions.toNat ≤ 65536
  pageSize : PageLayout.minimumSize ≤ desc.pageSize.toNat
  fits : ∀ node ∈ desc.baseline, SnapshotMetadata.Fits ⟨desc, node⟩

def shareNames (node snapshot : Text) : List Text :=
  [base, node, FileName.snapshots, snapshot]

def InShare (node : Text) (names other : List Text) : Prop :=
  other = names ++ [FileName.metafile node] ∨
    ∃ group, InGroup (names ++ [FileName.groupDirectory group]) other

structure HasShare (tree : FileTree) (desc : SnapshotDescriptor) (node dir : Text)
    (names : List Text) : Prop where
  directory : tree.Shows dir names .directory
  metafile : tree.Shows (Path.join dir (FileName.metafile node))
    (names ++ [FileName.metafile node]) (.file (SnapshotMetadata.encode ⟨desc, node⟩))
  groups : ∀ group ∈ desc.groups,
    ((Rendezvous.assign desc).eligible.getD group.id .empty).contains node = true →
      HasGroup tree desc.pageSize (Path.join dir (FileName.groupDirectory group.name))
        (names ++ [FileName.groupDirectory group.name])
        ⟨group.id, group.name, group.partitions, group.backups⟩
        ((Rendezvous.assign desc).ownedPartitions group node)

variable {desc : SnapshotDescriptor} {node other : Text}

theorem HasShare.extends (h : HasShare tree desc node dir names)
    (hnext : tree.Extends next touched)
    (spared : ∀ other, InShare node names other → ¬touched other)
    : HasShare next desc node dir names where
  directory := h.directory.directory hnext
  metafile := h.metafile.file hnext (spared _ (.inl rfl))
  groups group hgroup heligible := (h.groups group hgroup heligible).extends hnext
    fun other hother => spared other (.inr ⟨group.name, hother⟩)

theorem plain_snapshotRoot (hnode : Path.IsName node)
    : Path.Plain (snapshotRoot node) [base, node, FileName.snapshots] := by
  have hbase : Path.IsName base := by decide
  exact (hbase.plain.join hnode).join FileName.isName_snapshots

theorem length_snapshotRoot (hnode : Path.IsName node)
    : (snapshotRoot node).length = node.length + 15 := by
  have hbase : Path.IsName base := by decide
  have hnames : base.length = 4 ∧ FileName.snapshots.length = 9 := by decide
  rw [snapshotRoot, (hbase.plain.join hnode).join_eq FileName.isName_snapshots,
    hbase.plain.join_eq hnode]
  simp only [List.length_append, List.length_cons, hnames]
  omega

theorem plain_share (hnode : Path.IsName node) (hsnapshot : Path.IsName desc.name)
    : Path.Plain (Path.join (snapshotRoot node) desc.name) (shareNames node desc.name) :=
  (plain_snapshotRoot hnode).join hsnapshot

theorem exists_of_inGroup {names other : List Text} (h : InGroup names other)
    : ∃ file, other = names ++ [file] ∧ ∀ node, file ≠ FileName.metafile node := by
  rcases h with rfl | ⟨p, rfl⟩
  . exact ⟨_, rfl, FileName.groupData_ne_metafile⟩
  . exact ⟨_, rfl, FileName.partition_ne_metafile p⟩

theorem eq_of_inGroup {names others other : List Text} (h : InGroup names other)
    (h' : InGroup others other) : names = others := by
  obtain ⟨file, rfl, _⟩ := exists_of_inGroup h
  obtain ⟨_, heq, _⟩ := exists_of_inGroup h'
  exact (List.append_singleton_inj.mp heq).1

theorem Proper.eq_of_name (proper : Proper desc) {group another : GroupDescriptor}
    (hgroup : group ∈ desc.groups) (hanother : another ∈ desc.groups)
    (hname : group.name = another.name) : group = another := by
  have hid : group.id = another.id := by
    rw [(proper.groupNames group hgroup).2, (proper.groupNames another hanother).2, hname]
  have hfirst := Rendezvous.group?_eq_some proper.ids hgroup
  rw [hid, Rendezvous.group?_eq_some proper.ids hanother] at hfirst
  exact (Option.some.inj hfirst).symm

theorem hasShare_layNode (proper : Proper desc) (hnode : node ∈ desc.baseline)
    (tidy : tree.Tidy) (h : layNode desc (Rendezvous.assign desc) tree node = (next, none))
    : ∃ names, placeOf (shareNames node desc.name) = .inside names ∧ next.Tidy ∧
        tree.Extends next (InShare node names) ∧
        HasShare next desc node (Path.join (snapshotRoot node) desc.name) names := by
  have plain := plain_share (proper.nodeNames node hnode) proper.name
  unfold layNode at h
  dsimp only at h
  generalize Path.join (snapshotRoot node) desc.name = dir at plain h ⊢
  obtain ⟨made, hlaid, hrest⟩ := andThen_ok h
  obtain ⟨names, hplace, hwrites⟩ := writes_layDirectory tidy plain
    (FileName.isName_metafile (proper.nodeNames node hnode)) (FileName.own_metafile node) hlaid
  have hsequence := sequence_ok
    (Assignment.nodup_expectedFor (Rendezvous.assign desc) node proper.ids)
    (I := fun current => current.Tidy ∧ tree.Extends current (InShare node names) ∧
      current.Shows dir names .directory ∧
      current.Shows (Path.join dir (FileName.metafile node))
        (names ++ [FileName.metafile node]) (.file (SnapshotMetadata.encode ⟨desc, node⟩)))
    (P := fun expected current => ∀ group, desc.group? expected.id = some group →
      HasGroup current desc.pageSize (Path.join dir (FileName.groupDirectory expected.name))
        (names ++ [FileName.groupDirectory expected.name])
        ⟨group.id, group.name, group.partitions, group.backups⟩ expected.partitions)
    ?step ⟨hwrites.tidy, hwrites.spares.mono fun _ => .inl, hwrites.directory, hwrites.file⟩ hrest
  case step =>
    rintro expected hexpected current later ⟨htidy, hextends, hdirectory, hmetafile⟩ hrun
    obtain ⟨group, hgroup, heligible, rfl⟩ := Assignment.mem_expectedFor.mp hexpected
    have hname := FileName.isName_groupDirectory (proper.groupNames group hgroup).1
    obtain ⟨htidy, hspares, hhas⟩ := hasGroup_layGroup htidy (plain.join hname)
      (placeOf_concat (FileName.own_groupDirectory group.name) hplace)
      (Rendezvous.group?_eq_some proper.ids hgroup)
      (Assignment.nodup_ownedPartitions _ group node) hrun
    refine ⟨⟨htidy, ?_, hdirectory.directory hspares, hmetafile.file hspares ?_⟩, ?_, ?_⟩
    . exact hextends.trans (hspares.mono fun other hother => .inr ⟨group.name, hother⟩)
    . intro hin
      obtain ⟨file, heq, _⟩ := exists_of_inGroup hin
      simpa using congrArg List.length heq
    . intro found hfound
      obtain rfl : group = found := by
        simpa [Rendezvous.group?_eq_some proper.ids hgroup] using hfound
      exact hhas
    . intro another hanother hne hearlier found hfound
      apply (hearlier found hfound).extends hspares
      intro other hother hin
      apply hne
      obtain ⟨second, hsecond, _, rfl⟩ := Assignment.mem_expectedFor.mp hanother
      have hsame := (List.append_singleton_inj.mp (eq_of_inGroup hother hin)).2
      rw [proper.eq_of_name hsecond hgroup (FileName.groupDirectory_injective hsame)]
  obtain ⟨⟨htidy, hextends, hdirectory, hmetafile⟩, hgroups⟩ := hsequence
  refine ⟨names, hplace, htidy, hextends, hdirectory, hmetafile, ?_⟩
  intro group hgroup heligible
  exact hgroups _ (Assignment.mem_expectedFor.mpr ⟨group, hgroup, heligible, rfl⟩) group
    (Rendezvous.group?_eq_some proper.ids hgroup)

/-!
The snapshot as a whole.
-/

theorem step_base (node : Text)
    : node = ("." : Text) ∧ Place.step (.inside [base]) node = .inside [base] ∨
      node = (".." : Text) ∧ Place.step (.inside [base]) node = .inside [] ∨
      Place.step (.inside [base]) node = .inside [base, node] := by
  by_cases hself : node = ("." : Text)
  . subst hself
    exact .inl ⟨rfl, rfl⟩
  . by_cases hback : node = (".." : Text)
    . subst hback
      exact .inr (.inl ⟨rfl, rfl⟩)
    . refine .inr (.inr (step_own ?_))
      simp only [Path.isDots, Bool.or_eq_false_iff, decide_eq_false_iff_not]
      exact ⟨hself, hback⟩

theorem step_base_injective
    (h : Place.step (.inside [base]) node = Place.step (.inside [base]) other) : node = other := by
  have hnode := step_base node
  have hother := step_base other
  grind

theorem step_concat_injective {names others : List Text} {last snapshot : Text}
    (h : Place.step (.inside (names ++ [last])) snapshot =
      Place.step (.inside (others ++ [last])) snapshot)
    : names = others := by
  unfold Place.step at h
  split at h
  next => simpa using h
  next =>
    split at h
    next => simpa using h
    next => simpa using h

theorem placeOf_shareNames_injective {snapshot : Text}
    (h : placeOf (shareNames node snapshot) = placeOf (shareNames other snapshot))
    : node = other := by
  have hplace (node : Text) : ∃ names, Place.step (.inside [base]) node = .inside names ∧
      placeOf (shareNames node snapshot) =
        Place.step (.inside (names ++ [FileName.snapshots])) snapshot := by
    have hinside : ∃ names, Place.step (.inside [base]) node = .inside names := by
      rcases step_base node with ⟨_, hnode⟩ | ⟨_, hnode⟩ | hnode
      all_goals exact ⟨_, hnode⟩
    obtain ⟨names, hnames⟩ := hinside
    refine ⟨names, hnames, ?_⟩
    have hbase : Place.step (.inside []) base = .inside [base] := step_own (by decide)
    simp only [placeOf, shareNames, List.foldl_cons, List.foldl_nil, hbase, hnames,
      step_own FileName.own_snapshots]
  obtain ⟨names, hnames, hnode⟩ := hplace node
  obtain ⟨others, hothers, hother⟩ := hplace other
  rw [hnode, hother] at h
  apply step_base_injective
  rw [hnames, hothers, step_concat_injective h]

theorem not_inShare_of_ne {names others : List Text} {snapshot : Text}
    (hplace : placeOf (shareNames node snapshot) = .inside names)
    (hplace' : placeOf (shareNames other snapshot) = .inside others) (hne : node ≠ other)
    {file : List Text} (h : InShare node names file) : ¬InShare other others file := by
  rcases h with rfl | ⟨group, hgroup⟩
  . rintro (heq | ⟨group, hgroup⟩)
    . exact hne (FileName.metafile_injective (List.append_singleton_inj.mp heq).2)
    . obtain ⟨file, heq, hfile⟩ := exists_of_inGroup hgroup
      exact hfile node (List.append_singleton_inj.mp heq).2.symm
  . rintro (rfl | ⟨another, hanother⟩)
    . obtain ⟨file, heq, hfile⟩ := exists_of_inGroup hgroup
      exact hfile other (List.append_singleton_inj.mp heq).2.symm
    . have hnames := (List.append_singleton_inj.mp (eq_of_inGroup hgroup hanother)).1
      exact hne (placeOf_shareNames_injective (hplace.trans (hnames ▸ hplace'.symm)))

/--
When a snapshot was laid out, every node of its baseline has its share.
-/
theorem hasShare_laySnapshot (proper : Proper desc) (tidy : tree.Tidy)
    (h : laySnapshot tree desc = (next, none))
    : ∀ node ∈ desc.baseline, ∃ names,
        HasShare next desc node (Path.join (snapshotRoot node) desc.name) names := by
  have hbase : Path.IsName base := by decide
  have own : Path.isDots base = false := by decide
  obtain ⟨empty, hremoved, hrest⟩ := andThen_ok h
  have hsequence := sequence_ok proper.nodes
    (I := FileTree.Tidy)
    (P := fun node current => ∃ names,
      placeOf (shareNames node desc.name) = .inside names ∧
        HasShare current desc node (Path.join (snapshotRoot node) desc.name) names)
    ?step (tidy.remove hbase own hremoved) hrest
  case step =>
    intro node hnode current later htidy hrun
    obtain ⟨names, hplace, hlater, hspares, hshare⟩ :=
      hasShare_layNode proper hnode htidy hrun
    refine ⟨hlater, ⟨names, hplace, hshare⟩, ?_⟩
    rintro other _ hne ⟨others, hothers, hearlier⟩
    exact ⟨others, hothers,
      hearlier.extends hspares fun file => not_inShare_of_ne hothers hplace hne⟩
  intro node hnode
  obtain ⟨names, _, hshare⟩ := hsequence.2 node hnode
  exact ⟨names, hshare⟩

end Layout

end SnapshotAudit
