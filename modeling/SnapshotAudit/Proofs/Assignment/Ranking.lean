import SnapshotAudit.Proofs.Assignment

/-!
This module contains that the nodes can be ranked for a partition in one way only, however they are
sorted, and what the owners at the front of the ranking are because of that.
-/

namespace SnapshotAudit

namespace Rendezvous

/-!
The order in which nodes stand.
-/

theorem goesFirst_iff {a b : UInt64 × Text}
    : goesFirst a b = true ↔ b.1 < a.1 ∨ (a.1 = b.1 ∧ (compare a.2 b.2).isLE = true) := by
  unfold goesFirst
  split
  next hne => simp [hne]
  next heq =>
    have heq : a.1 = b.1 := by simpa using heq
    simp [heq]

theorem goesFirst_trans (a b c : UInt64 × Text) (hab : goesFirst a b = true)
    (hbc : goesFirst b c = true) : goesFirst a c = true := by
  rw [goesFirst_iff] at *
  obtain hab | ⟨hab, hnames⟩ := hab
  . obtain hbc | ⟨hbc, _⟩ := hbc
    . exact .inl (UInt64.lt_trans hbc hab)
    . exact .inl (hbc ▸ hab)
  . obtain hbc | ⟨hbc, hrest⟩ := hbc
    . exact .inl (hab ▸ hbc)
    . exact .inr ⟨hab.trans hbc, Std.TransCmp.isLE_trans hnames hrest⟩

theorem goesFirst_total (a b : UInt64 × Text) : (goesFirst a b || goesFirst b a) = true := by
  rw [Bool.or_eq_true, goesFirst_iff, goesFirst_iff]
  by_cases heq : a.1 = b.1
  . rw [Std.OrientedOrd.eq_swap (a := b.2)]
    cases compare a.2 b.2 <;> simp [heq]
  . obtain hlt | hgt := UInt64.lt_or_lt_of_ne heq
    . exact .inr (.inl hlt)
    . exact .inl (.inl hgt)

def Precedes (group : Int32) (partition : UInt32) (a b : Text) : Prop :=
  weight b group partition < weight a group partition ∨
    (weight a group partition = weight b group partition ∧ (compare a b).isLE = true)

instance (group : Int32) (partition : UInt32) (a b : Text)
    : Decidable (Precedes group partition a b) :=
  inferInstanceAs (Decidable (_ ∨ _))

theorem Precedes.antisymm {group : Int32} {partition : UInt32} {a b : Text}
    (hab : Precedes group partition a b) (hba : Precedes group partition b a) : a = b := by
  obtain hab | ⟨heq, hab⟩ := hab
  . obtain hba | ⟨heq, _⟩ := hba
    . exact absurd (UInt64.lt_trans hab hba) (UInt64.lt_irrefl _)
    . simp [heq] at hab
  . obtain hba | ⟨_, hba⟩ := hba
    . simp [heq] at hba
    -- nodes of equal weights are told apart by their names
    . exact Std.LawfulEqOrd.eq_of_compare (Std.OrientedCmp.isLE_antisymm hab hba)

/-!
The only way to rank nodes.
-/

structure Ranks (group : Int32) (partition : UInt32) (nodes ranked : List Text) : Prop where
  perm : ranked.Perm nodes
  ordered : ranked.Pairwise (Precedes group partition)

variable {group : Int32} {partition : UInt32} {nodes ranked : List Text}

theorem ranks_ranking (nodes : List Text) (group : Int32) (partition : UInt32)
    : Ranks group partition nodes (ranking nodes group partition) where
  perm := by
    have h := (List.mergeSort_perm
      (nodes.map fun node => (weight node group partition, node)) goesFirst).map Prod.snd
    simpa [List.map_map, Function.comp_def, ranking] using h
  ordered := by
    apply List.pairwise_map.mpr
    apply (List.pairwise_mergeSort goesFirst_trans goesFirst_total _).imp_of_mem
    intro a b ha hb hfirst
    obtain ⟨first, _, rfl⟩ := List.mem_map.mp (List.mem_mergeSort.mp ha)
    obtain ⟨second, _, rfl⟩ := List.mem_map.mp (List.mem_mergeSort.mp hb)
    exact goesFirst_iff.mp hfirst

theorem Ranks.eq_ranking (h : Ranks group partition nodes ranked)
    : ranked = ranking nodes group partition := by
  have hranking := ranks_ranking nodes group partition
  exact (h.perm.trans hranking.perm.symm).eq_of_pairwise
    (fun _ _ _ _ hab hba => hab.antisymm hba) h.ordered hranking.ordered

theorem ranks_iff
    : Ranks group partition nodes ranked ↔ ranked = ranking nodes group partition := by
  constructor
  . exact Ranks.eq_ranking
  . rintro rfl
    exact ranks_ranking nodes group partition

theorem ranking_congr {others : List Text} (h : nodes.Perm others)
    : ranking nodes group partition = ranking others group partition := by
  have hranking := ranks_ranking nodes group partition
  exact Ranks.eq_ranking ⟨hranking.perm.trans h, hranking.ordered⟩

theorem filter_ranking (keep : Text → Bool)
    : (ranking nodes group partition).filter keep =
      ranking (nodes.filter keep) group partition := by
  have hranking := ranks_ranking nodes group partition
  exact Ranks.eq_ranking ⟨hranking.perm.filter keep, hranking.ordered.filter keep⟩

@[simp]
theorem length_ranking (nodes : List Text) (group : Int32) (partition : UInt32)
    : (ranking nodes group partition).length = nodes.length :=
  (ranks_ranking nodes group partition).perm.length_eq

theorem nodup_ranking (h : nodes.Nodup) : (ranking nodes group partition).Nodup :=
  (ranks_ranking nodes group partition).perm.nodup_iff.mpr h

/-!
The owners of a partition.
-/

section Owners

variable {desc : SnapshotDescriptor} {group : GroupDescriptor} {partition : UInt32}

theorem length_admitted (desc : SnapshotDescriptor) (group : GroupDescriptor)
    : (admitted desc group).length = desc.baseline.countP group.admits :=
  List.countP_eq_length_filter.symm

theorem length_ownersOf (desc : SnapshotDescriptor) (group : GroupDescriptor) (partition : UInt32)
    : (ownersOf desc group partition).length =
      min (group.backups.toNat + 1) (desc.baseline.countP group.admits) := by
  rw [ownersOf, List.length_take, length_ranking, length_admitted]

theorem nodup_ownersOf (h : desc.baseline.Nodup) : (ownersOf desc group partition).Nodup :=
  (nodup_ranking (h.filter _)).sublist (List.take_sublist _ _)

end Owners

end Rendezvous

end SnapshotAudit
