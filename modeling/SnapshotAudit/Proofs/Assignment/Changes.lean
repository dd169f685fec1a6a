import Mathlib.Data.List.Forall2
import SnapshotAudit.Proofs.Assignment.Ranking
import SnapshotAudit.Proofs.Lists

/-!
This module contains what becomes of an assignment when the snapshot is another one: when a node is
missing in it, when it says the same in another order, and when a group has more backups.
-/

namespace SnapshotAudit

namespace GroupDescriptor

def Alike (a b : GroupDescriptor) : Prop :=
  ∃ nodeFilter, (∀ node, node ∈ nodeFilter ↔ node ∈ a.nodeFilter) ∧
    b = { a with nodeFilter := nodeFilter }

theorem Alike.id_eq {a b : GroupDescriptor} (h : Alike a b) : b.id = a.id := by
  obtain ⟨_, _, rfl⟩ := h
  rfl

theorem Alike.admits_eq {a b : GroupDescriptor} (h : Alike a b) : b.admits = a.admits := by
  obtain ⟨nodeFilter, hfilter, rfl⟩ := h
  have hempty : nodeFilter = [] ↔ a.nodeFilter = [] := by
    simp only [List.eq_nil_iff_forall_not_mem, hfilter]
  funext node
  rw [Bool.eq_iff_iff]
  simp [admits, hempty, hfilter]

end GroupDescriptor

namespace SnapshotDescriptor

def without (desc : SnapshotDescriptor) (node : Text) : SnapshotDescriptor :=
  { desc with baseline := desc.baseline.filter (· ≠ node) }

def withBackups (desc : SnapshotDescriptor) (id : Int32) (backups : UInt32) : SnapshotDescriptor :=
  { desc with
    groups := desc.groups.map fun group =>
      if group.id = id then { group with backups := backups } else group }

/--
Another snapshot has the same nodes and the same groups, whatever the order in which it lists them
and the filters of the groups list theirs.
-/
structure Rearranged (desc other : SnapshotDescriptor) : Prop where
  baseline : other.baseline.Perm desc.baseline
  groups : ∃ groups, List.Forall₂ GroupDescriptor.Alike desc.groups groups ∧
    other.groups.Perm groups

end SnapshotDescriptor

namespace Rendezvous

variable {desc other : SnapshotDescriptor} {group : GroupDescriptor} {partition : UInt32}

/-!
A node that is missing.
-/

theorem Sole.without (sole : Sole desc group) (node : Text) : Sole (desc.without node) group :=
  ⟨sole.mem, sole.once⟩

theorem admitted_without (desc : SnapshotDescriptor) (group : GroupDescriptor) (node : Text)
    : admitted (desc.without node) group = (admitted desc group).filter (· ≠ node) := by
  simp only [admitted, SnapshotDescriptor.without, List.filter_filter, Bool.and_comm]

theorem ownersOf_without (desc : SnapshotDescriptor) (group : GroupDescriptor) (partition : UInt32)
    (node : Text)
    : ownersOf (desc.without node) group partition =
      ((ranking (admitted desc group) group.id partition).filter (· ≠ node)).take
        (group.backups.toNat + 1) := by
  rw [ownersOf, admitted_without, filter_ranking]

/--
Without a node, its partitions keep their other owners in front, and all other partitions have the
owners that they had. When no node is repeated, at most one takes the place of the one that is
missing.
-/
theorem owners_without (sole : Sole desc group) (hpartition : partition < group.partitions)
    (node : Text)
    : ∃ owners remaining,
        (assign desc).owners.get? ⟨group.id, partition⟩ = some owners ∧
        (assign (desc.without node)).owners.get? ⟨group.id, partition⟩ = some remaining ∧
        owners.filter (· ≠ node) <+: remaining ∧
        (node ∉ owners → remaining = owners) ∧
        (desc.baseline.Nodup → (remaining.filter (· ∉ owners)).length ≤ 1) := by
  refine ⟨ownersOf desc group partition, ownersOf (desc.without node) group partition, ?_, ?_, ?_⟩
  . rw [sole.owners_eq, if_pos hpartition]
  . rw [(sole.without node).owners_eq, if_pos hpartition]
  . rw [ownersOf_without, ownersOf]
    refine ⟨filter_take_comes_first _ _ _, ?_, ?_⟩
    . intro hnode
      apply take_filter_eq
      intro owner howner
      simpa using ne_of_mem_of_not_mem howner hnode
    . intro distinct
      exact length_new_le_one (nodup_ranking (distinct.filter _)) _ _

theorem owners_without_primary
    : let desc : SnapshotDescriptor := ⟨"s", 1, 64, ["a", "b", "c", "d"], [⟨1, "g", 2, 1, []⟩]⟩
      (assign desc).owners.get? ⟨1, 0⟩ = some [("c" : Text), "b"] ∧
      (∃ remaining, (assign (desc.without "c")).owners.get? ⟨1, 0⟩ = some remaining ∧
        [("b" : Text)] <+: remaining ∧
        (remaining.filter (· ∉ [("c" : Text), "b"])).length ≤ 1) ∧
      (assign (desc.without "d")).owners.get? ⟨1, 0⟩ = some [("c" : Text), "b"] := by
  intro desc
  have sole : Sole desc ⟨1, "g", 2, 1, []⟩ := ⟨by decide +kernel, by decide +kernel⟩
  have hranking : [("c" : Text), "b", "a", "d"] = ranking (admitted desc ⟨1, "g", 2, 1, []⟩) 1 0 :=
    Ranks.eq_ranking ⟨by decide +kernel, by decide +kernel⟩
  have hget : (assign desc).owners.get? ⟨1, 0⟩ = some [("c" : Text), "b"] := by
    rw [sole.owners_eq, if_pos (by decide), ownersOf, ← hranking]
    rfl
  have hwithout (node : Text) := owners_without sole (by decide : (0 : UInt32) < 2) node
  refine ⟨hget, ?_, ?_⟩
  . obtain ⟨owners, remaining, howners, hremaining, hkept, _, hnew⟩ := hwithout "c"
    obtain rfl := Option.some.inj (howners.symm.trans hget)
    exact ⟨remaining, hremaining, hkept, hnew (by decide +kernel)⟩
  . obtain ⟨owners, remaining, howners, hremaining, _, hsame, _⟩ := hwithout "d"
    obtain rfl := Option.some.inj (howners.symm.trans hget)
    rw [hremaining, hsame (by decide +kernel)]

/-!
The same snapshot in another order.
-/

theorem map_id_of_alike {groups twins : List GroupDescriptor}
    (h : List.Forall₂ GroupDescriptor.Alike groups twins)
    : twins.map GroupDescriptor.id = groups.map GroupDescriptor.id := by
  induction h with
  | nil => rfl
  | cons hfirst _ ih => simp [hfirst.id_eq, ih]

theorem exists_alike_of_mem {groups twins : List GroupDescriptor}
    (h : List.Forall₂ GroupDescriptor.Alike groups twins) (hgroup : group ∈ groups)
    : ∃ twin ∈ twins, group.Alike twin := by
  induction h with
  | nil => cases hgroup
  | cons hfirst _ ih =>
    cases hgroup with
    | head => exact ⟨_, List.mem_cons_self, hfirst⟩
    | tail _ hrest =>
      obtain ⟨twin, htwin, halike⟩ := ih hrest
      exact ⟨twin, List.mem_cons_of_mem _ htwin, halike⟩

theorem Sole.exists_twin (sole : Sole desc group) (rearranged : desc.Rearranged other)
    : ∃ twin, Sole other twin ∧ group.Alike twin := by
  obtain ⟨twins, halike, hperm⟩ := rearranged.groups
  obtain ⟨twin, htwin, hsame⟩ := exists_alike_of_mem halike sole.mem
  refine ⟨twin, ⟨hperm.mem_iff.mpr htwin, ?_⟩, hsame⟩
  rw [(hperm.map _).count_eq, map_id_of_alike halike, hsame.id_eq]
  exact sole.once

theorem admitted_of_alike (rearranged : desc.Rearranged other) {twin : GroupDescriptor}
    (alike : group.Alike twin) : (admitted other twin).Perm (admitted desc group) := by
  rw [admitted, alike.admits_eq]
  exact rearranged.baseline.filter _

theorem owners_rearranged (sole : Sole desc group) (rearranged : desc.Rearranged other)
    (partition : UInt32)
    : (assign other).owners.get? ⟨group.id, partition⟩ =
      (assign desc).owners.get? ⟨group.id, partition⟩ := by
  obtain ⟨twin, sole', alike⟩ := sole.exists_twin rearranged
  have hadmitted := admitted_of_alike rearranged alike
  obtain ⟨nodeFilter, _, rfl⟩ := alike
  have howners := sole'.owners_eq partition
  rw [ownersOf, ranking_congr hadmitted] at howners
  exact howners.trans (sole.owners_eq partition).symm

theorem eligible_rearranged (sole : Sole desc group) (rearranged : desc.Rearranged other)
    : (assign other).eligible.get? group.id = (assign desc).eligible.get? group.id := by
  obtain ⟨twin, sole', alike⟩ := sole.exists_twin rearranged
  have hadmitted := admitted_of_alike rearranged alike
  rw [sole.eligible_eq, ← alike.id_eq, sole'.eligible_eq,
    SortedSet.ofElements_congr fun node => hadmitted.mem_iff]

/-!
More backups.
-/

theorem Sole.withBackups (sole : Sole desc group) (backups : UInt32)
    : Sole (desc.withBackups group.id backups) { group with backups := backups } where
  mem := List.mem_map.mpr ⟨group, sole.mem, by simp⟩
  once := by
    have hids : (desc.withBackups group.id backups).groups.map GroupDescriptor.id =
        desc.groups.map GroupDescriptor.id := by
      rw [SnapshotDescriptor.withBackups, List.map_map]
      apply List.map_congr_left
      intro g _
      simp only [Function.comp_apply]
      split <;> rfl
    rw [hids]
    exact sole.once

theorem ownersOf_withBackups (desc : SnapshotDescriptor) {group : GroupDescriptor}
    {backups : UInt32} (h : group.backups ≤ backups) (partition : UInt32)
    : ownersOf desc group partition <+:
      ownersOf (desc.withBackups group.id backups) { group with backups := backups } partition := by
  apply List.take_prefix_take_left
  have := UInt32.le_iff_toNat_le.mp h
  dsimp only
  omega

theorem head?_ownersOf (desc : SnapshotDescriptor) (group : GroupDescriptor) (partition : UInt32)
    : (ownersOf desc group partition).head? =
      (ranking (admitted desc group) group.id partition).head? := by
  simp [ownersOf, List.head?_take]

/--
What a group is assigned follows from the order of the nodes that it admits, which is the only one
there is. Neither the order in which a snapshot lists things nor a repeated entry of a filter has a
part in it, and more backups leave the owners that there are where they stand.
-/
theorem determined_by_ranking (sole : Sole desc group)
    : (∀ partition < group.partitions, ∃ ranked,
        (∀ nodes, Ranks group.id partition (desc.baseline.filter group.admits) nodes ↔
          nodes = ranked) ∧
        (assign desc).owners.get? ⟨group.id, partition⟩ =
          some (ranked.take
            (min (group.backups.toNat + 1) (desc.baseline.countP group.admits)))) ∧
      (∀ other, desc.Rearranged other →
        (∀ partition, (assign other).owners.get? ⟨group.id, partition⟩ =
          (assign desc).owners.get? ⟨group.id, partition⟩) ∧
        (assign other).eligible.get? group.id = (assign desc).eligible.get? group.id) ∧
      ∀ backups, group.backups ≤ backups → ∀ partition < group.partitions, ∃ owners more,
        (assign desc).owners.get? ⟨group.id, partition⟩ = some owners ∧
        (assign (desc.withBackups group.id backups)).owners.get? ⟨group.id, partition⟩ =
          some (owners ++ more) ∧
        (owners ++ more).head? = owners.head? := by
  refine ⟨?_, ?_, ?_⟩
  . intro partition hpartition
    refine ⟨ranking (admitted desc group) group.id partition, fun nodes => ranks_iff, ?_⟩
    rw [sole.owners_eq, if_pos hpartition, ownersOf, ← length_admitted,
      ← length_ranking (admitted desc group) group.id partition, ← List.take_eq_take_min]
  . intro other rearranged
    exact ⟨owners_rearranged sole rearranged, eligible_rearranged sole rearranged⟩
  . intro backups hbackups partition hpartition
    obtain ⟨more, hmore⟩ := ownersOf_withBackups desc hbackups partition
    refine ⟨ownersOf desc group partition, more, ?_, ?_, ?_⟩
    . rw [sole.owners_eq, if_pos hpartition]
    . rw [hmore]
      exact ((sole.withBackups backups).owners_eq partition).trans (if_pos hpartition)
    . rw [hmore, head?_ownersOf, head?_ownersOf]
      rfl

theorem determined_by_ranking_four
    : let desc : SnapshotDescriptor := ⟨"s", 1, 64, ["a", "b", "c", "d"],
        [⟨7, "h", 3, 0, []⟩, ⟨1, "g", 2, 1, ["a", "b", "c"]⟩]⟩
      let other : SnapshotDescriptor := ⟨"s", 1, 64, ["d", "c", "b", "a"],
        [⟨1, "g", 2, 1, ["c", "a", "b", "a"]⟩, ⟨7, "h", 3, 0, []⟩]⟩
      (assign desc).owners.get? ⟨1, 0⟩ = some [("c" : Text), "b"] ∧
      (assign other).owners.get? ⟨1, 0⟩ = some [("c" : Text), "b"] ∧
      (assign other).eligible.get? 1 = (assign desc).eligible.get? 1 ∧
      ∃ more, (assign (desc.withBackups 1 9)).owners.get? ⟨1, 0⟩ =
        some ([("c" : Text), "b"] ++ more) := by
  intro desc other
  have sole : Sole desc ⟨1, "g", 2, 1, ["a", "b", "c"]⟩ := ⟨by decide +kernel, by decide +kernel⟩
  have hranking : [("c" : Text), "b", "a"] =
      ranking (admitted desc ⟨1, "g", 2, 1, ["a", "b", "c"]⟩) 1 0 :=
    Ranks.eq_ranking ⟨by decide +kernel, by decide +kernel⟩
  have hget : (assign desc).owners.get? ⟨1, 0⟩ = some [("c" : Text), "b"] := by
    rw [sole.owners_eq, if_pos (by decide), ownersOf, ← hranking]
    rfl
  have hfilter (a b c node : Text) : node ∈ [c, a, b, a] ↔ node ∈ [a, b, c] := by
    simp only [List.mem_cons, List.not_mem_nil]
    tauto
  have rearranged : desc.Rearranged other := by
    refine ⟨by decide +kernel, [⟨7, "h", 3, 0, []⟩, ⟨1, "g", 2, 1, ["c", "a", "b", "a"]⟩], ?_,
      by decide +kernel⟩
    exact .cons ⟨[], fun node => .rfl, rfl⟩ (.cons ⟨_, hfilter "a" "b" "c", rfl⟩ .nil)
  obtain ⟨_, hrearranged, hraised⟩ := determined_by_ranking sole
  obtain ⟨howners, heligible⟩ := hrearranged other rearranged
  obtain ⟨owners, more, hold, hnew, _⟩ := hraised 9 (by decide) 0 (by decide)
  obtain rfl := Option.some.inj (hold.symm.trans hget)
  exact ⟨hget, (howners 0).trans hget, heligible, more, hnew⟩

end Rendezvous

end SnapshotAudit
