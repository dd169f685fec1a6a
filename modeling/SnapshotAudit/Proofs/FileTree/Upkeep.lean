import Mathlib.Tactic.SplitIfs
import SnapshotAudit.Proofs.FileTree.Listings

/-!
This module contains that directories stay in order: whatever is written, made, removed, renamed or
copied in a tree, every directory holds its entries in the order of their names, and all of these
are names.
-/

namespace SnapshotAudit

namespace Text

theorem zero_not_mem_beforeZero (t : Text) : 0 ∉ t.beforeZero := by
  intro h
  simpa using List.all_eq_true.mp List.all_takeWhile 0 h

theorem of_mem_splitAt {separator : UInt8} {t piece : Text} (h : piece ∈ splitAt separator t)
    : separator ∉ piece ∧ piece ⊆ t := by
  induction t generalizing piece with
  | nil =>
    obtain rfl : piece = [] := by simpa [splitAt] using h
    simp
  | cons b rest ih =>
    rw [splitAt] at h
    split at h
    next =>
      rcases List.mem_cons.mp h with rfl | hrest
      . simp
      . exact ⟨(ih hrest).1, List.subset_cons_of_subset b (ih hrest).2⟩
    next hne =>
      split at h
      next hnil => exact absurd hnil (splitAt_ne_nil separator rest)
      next first pieces hpieces =>
        rcases List.mem_cons.mp h with rfl | hlater
        . have hfirst : first ∈ splitAt separator rest := by simp [hpieces]
          obtain ⟨hwhole, hsubset⟩ := ih hfirst
          exact ⟨by simp [Ne.symm hne, hwhole], List.cons_subset_cons b hsubset⟩
        . have hpiece : piece ∈ splitAt separator rest := by simp [hpieces, hlater]
          obtain ⟨hwhole, hsubset⟩ := ih hpiece
          exact ⟨hwhole, List.subset_cons_of_subset b hsubset⟩

end Text

namespace Path

variable {path name : Text}

structure IsOwn (name : Text) : Prop where
  isName : IsName name
  undotted : isDots name = false

theorem isName_of_mem_components (clean : 0 ∉ path) (h : name ∈ components path) : IsName name := by
  obtain ⟨hmem, hnonempty⟩ := List.mem_filter.mp h
  obtain ⟨hwhole, hsubset⟩ := Text.of_mem_splitAt hmem
  exact ⟨by simpa using hnonempty, hwhole, fun hzero => clean (hsubset hzero)⟩

theorem isName_of_mem_names (clean : 0 ∉ path) (h : name ∈ names path) : IsName name := by
  rcases List.mem_append.mp h with hmem | hdot
  . exact isName_of_mem_components clean hmem
  . split at hdot
    next =>
      obtain rfl := List.mem_singleton.mp hdot
      decide
    next => cases hdot

end Path

namespace Branch

variable {branch lower new : Branch} {name : Text} {names : List Text}

structure InOrder (entries : List (Text × Branch)) : Prop where
  sorted : entries.Pairwise fun a b => compare a.1 b.1 = .lt
  named : ∀ e ∈ entries, Path.IsOwn e.1

theorem inOrder_nil : InOrder [] :=
  ⟨.nil, by simp⟩

def Orderly (branch : Branch) : Prop :=
  ∀ names lower, branch.at? names = some lower → InOrder lower.entries

theorem Orderly.at (h : branch.Orderly) (hlower : branch.at? names = some lower)
    : lower.Orderly := by
  intro more deeper hdeeper
  apply h (names ++ more)
  rw [at?_append, hlower]
  exact hdeeper

theorem Orderly.child (h : branch.Orderly) (hchild : branch.child? name = some lower)
    : lower.Orderly := by
  have hlower : branch.at? [name] = some lower := by simp [at?, hchild]
  exact h.at hlower

theorem Orderly.inOrder (h : branch.Orderly) : InOrder branch.entries :=
  h [] branch rfl

theorem orderly_of_children (h : InOrder branch.entries)
    (hchildren : ∀ name child, branch.child? name = some child → child.Orderly)
    : branch.Orderly := by
  intro names lower hlower
  cases names with
  | nil =>
    cases hlower
    exact h
  | cons name rest =>
    obtain ⟨child, hchild, hrest⟩ := Option.bind_eq_some_iff.mp hlower
    exact hchildren name child hchild rest lower hrest

theorem orderly_of_leaf (hleaf : branch.entries = []) : branch.Orderly := by
  apply orderly_of_children
  . rw [hleaf]
    exact inOrder_nil
  . intro name child hchild
    simp [child?, hleaf, SortedMap.lookup] at hchild

theorem Orderly.own (h : branch.Orderly) (hchild : branch.child? name = some lower)
    : Path.IsOwn name :=
  h.inOrder.named _ ((SortedMap.lookup_eq_some_iff h.inOrder.sorted name lower).mp hchild)

theorem Orderly.setChild (h : branch.Orderly) (hname : Path.IsOwn name) (hnew : new.Orderly)
    : (branch.setChild name new).Orderly := by
  cases branch with
  | file id => exact h
  | directory entries =>
    apply orderly_of_children
    . refine ⟨SortedMap.place_increasing name _ h.inOrder.sorted, ?_⟩
      intro e he
      rcases SortedMap.mem_place he with heq | hold
      . exact heq ▸ hname
      . exact h.inOrder.named e hold
    . intro other child hchild
      rw [child?_setChild] at hchild
      split at hchild
      next =>
        cases hchild
        exact hnew
      next => exact h.child hchild

theorem Orderly.set (h : branch.Orderly) (hnames : ∀ name ∈ names, Path.IsOwn name)
    (hnew : new.Orderly) : (branch.set names new).Orderly := by
  induction names generalizing branch with
  | nil => exact hnew
  | cons name rest ih =>
    obtain ⟨hname, hrest⟩ := List.forall_mem_cons.mp hnames
    refine h.setChild hname (ih ?_ hrest)
    cases hchild : branch.child? name with
    | none => exact orderly_of_leaf rfl
    | some child => exact h.child hchild

theorem Orderly.erase (h : branch.Orderly) (names : List Text) : (branch.erase names).Orderly := by
  induction names generalizing branch with
  | nil => exact h
  | cons name rest ih =>
    cases rest with
    | nil =>
      cases branch with
      | file id => exact h
      | directory entries =>
        apply orderly_of_children
        . exact ⟨h.inOrder.sorted.filter _,
            fun e he => h.inOrder.named e (List.mem_filter.mp he).1⟩
        . intro other child hchild
          rw [child?_erase] at hchild
          split at hchild
          next => cases hchild
          next => exact h.child hchild
    | cons second rest =>
      unfold Branch.erase
      split
      next => exact h
      next child hchild => exact h.setChild (h.own hchild) (ih (h.child hchild))

end Branch

namespace Place

variable {place : Place} {name : Text} {names : List Text}

def Own (place : Place) : Prop :=
  ∀ names, place = .inside names → ∀ name ∈ names, Path.IsOwn name

theorem own_origin (path : Text) : (origin path).Own := by
  intro names horigin
  unfold origin at horigin
  split at horigin
  next => cases horigin
  next =>
    cases horigin
    simp

theorem Own.step (h : place.Own) (hname : Path.IsName name) : (place.step name).Own := by
  intro names hstep
  unfold Place.step at hstep
  split at hstep
  next => exact h names hstep
  next hdot =>
    split at hstep
    next =>
      split at hstep
      next => cases hstep
      next above _ =>
        cases hstep
        exact fun other hother => h above rfl other (List.dropLast_subset above hother)
      next => exact h names hstep
    next hdots =>
      have hundotted : Path.isDots name = false := by
        rw [Path.isDots, Bool.or_eq_false_iff]
        exact ⟨decide_eq_false hdot, decide_eq_false hdots⟩
      split at hstep
      next above =>
        cases hstep
        exact List.forall_mem_append.mpr ⟨h above rfl, by simpa using ⟨hname, hundotted⟩⟩
      next => cases hstep

theorem Own.foldl_step (h : place.Own) (hnames : ∀ name ∈ names, Path.IsName name)
    : (names.foldl Place.step place).Own := by
  induction names generalizing place with
  | nil => exact h
  | cons name rest ih =>
    obtain ⟨hname, hrest⟩ := List.forall_mem_cons.mp hnames
    exact ih (h.step hname) hrest

end Place

theorem of_bind_eq_ok {ε α β : Type} {first : Except ε α} {second : α → Except ε β} {b : β}
    (h : first >>= second = .ok b) : ∃ a, first = .ok a ∧ second a = .ok b := by
  cases first with
  | error error => cases h
  | ok a => exact ⟨a, rfl, h⟩

namespace FileTree

variable {tree next : FileTree} {path name : Text} {names : List Text} {place : Place}

/-!
Where the paths of a tree lead to.
-/

theorem own_of_walk (h : place.Own) (hnames : ∀ name ∈ names, Path.IsName name) {target : Place}
    (hwalk : tree.walk place names = .ok target) : target.Own := by
  rw [walk_eq hwalk]
  exact h.foldl_step hnames

theorem own_of_resolve (h : tree.resolve path = .ok place) : place.Own := by
  unfold resolve at h
  dsimp only at h
  split at h
  next => cases h
  next =>
    split at h
    next => cases h
    next =>
      refine own_of_walk (Place.own_origin _) (fun name hname => ?_) h
      exact Path.isName_of_mem_names (Text.zero_not_mem_beforeZero path) hname

theorem own_of_lastName {last : LastName} (h : tree.lastName path = .ok last) : last.place.Own := by
  have hname (name : Text) (h : name ∈ Path.components path.beforeZero) : Path.IsName name :=
    Path.isName_of_mem_components (Text.zero_not_mem_beforeZero path) h
  unfold lastName at h
  dsimp only at h
  split at h
  next => cases h
  next =>
    split at h
    next => cases h
    next =>
      obtain ⟨directory, hwalk, h⟩ := of_bind_eq_ok h
      split at h
      next => cases h
      next => cases h
      next =>
        cases h
        refine (own_of_walk (Place.own_origin _) (fun name hmem => ?_) hwalk).step ?_
        . exact hname name (List.dropLast_subset _ hmem)
        . cases hlast : (Path.components path.beforeZero).getLast? with
          | none => exact (by decide : Path.IsName ("." : Text))
          | some name => exact hname name (List.mem_of_getLast? hlast)

theorem own_descend (h : place.Own) (hnames : ∀ name ∈ names, Path.IsName name)
    : (tree.descend place names).1.Own ∧
      ∀ name ∈ (tree.descend place names).2, Path.IsName name := by
  induction names generalizing place with
  | nil => exact ⟨h, hnames⟩
  | cons name rest ih =>
    obtain ⟨hname, hrest⟩ := List.forall_mem_cons.mp hnames
    rw [descend]
    split
    next => exact ih (h.step hname) hrest
    next => exact ⟨h, hnames⟩

/-!
Changes that go well.
-/

theorem proper_iff : tree.Proper ↔ tree.top.Orderly := by
  constructor
  . intro proper names lower hlower
    refine ⟨proper.sorted names lower hlower, fun e he => ?_⟩
    obtain ⟨hname, hundotted⟩ := proper.named names lower hlower e he
    exact ⟨hname, hundotted⟩
  . intro orderly
    refine ⟨fun names lower hlower => (orderly names lower hlower).sorted, ?_⟩
    intro names lower hlower e he
    have hown := (orderly names lower hlower).named e he
    exact ⟨hown.isName, hown.undotted⟩

theorem proper_empty : FileTree.empty.Proper :=
  proper_iff.mpr (Branch.orderly_of_leaf rfl)

section Changed

variable (proper : tree.Proper)

include proper

theorem Proper.setBytes (id : FileId) (bytes : Bytes) : (tree.setBytes id bytes).Proper :=
  proper_iff.mpr (proper_iff.mp proper :)

theorem Proper.enter {branch : Branch} (hown : Place.Own (.inside names)) (hbranch : branch.Orderly)
    : (tree.enter names branch).Proper :=
  proper_iff.mpr ((proper_iff.mp proper).set (hown names rfl) hbranch)

theorem Proper.addFile (hown : Place.Own (.inside names)) (bytes : Bytes)
    : (tree.addFile names bytes).Proper :=
  proper_iff.mpr ((proper_iff.mp proper).set (hown names rfl) (Branch.orderly_of_leaf rfl))

theorem Proper.update {f : Bytes → Bytes} (h : tree.update path f = .ok next) : next.Proper := by
  unfold FileTree.update at h
  obtain ⟨last, hlast, h⟩ := of_bind_eq_ok h
  split at h
  next => cases h
  next =>
    obtain ⟨old, _, h⟩ := of_bind_eq_ok h
    split at h
    next => cases h
    next =>
      cases h
      exact proper.setBytes _ _
    next names hplace _ =>
      cases h
      exact proper.addFile (hplace ▸ own_of_lastName hlast) _
    next => cases h

theorem Proper.modify {f : Bytes → Bytes} (h : tree.modify path f = .ok next) : next.Proper := by
  obtain ⟨id, _, h⟩ := of_bind_eq_ok h
  cases h
  exact proper.setBytes _ _

theorem Proper.resize {size : Nat} (h : tree.resize path size = .ok next) : next.Proper := by
  unfold FileTree.resize at h
  split at h
  next hmodify =>
    cases h
    exact proper.modify hmodify
  next => cases h

theorem Proper.makeDirectory (h : tree.makeDirectory path = .ok next) : next.Proper := by
  unfold FileTree.makeDirectory at h
  obtain ⟨last, hlast, h⟩ := of_bind_eq_ok h
  split at h
  next => cases h
  next =>
    obtain ⟨old, _, h⟩ := of_bind_eq_ok h
    split at h
    next names hplace _ =>
      cases h
      exact proper.enter (hplace ▸ own_of_lastName hlast) (Branch.orderly_of_leaf rfl)
    next => cases h
    next => cases h

theorem Proper.move {source target : LastName} (hown : target.place.Own)
    (h : tree.move source target = .ok next) : next.Proper := by
  unfold FileTree.move at h
  obtain ⟨_, _, h⟩ := of_bind_eq_ok h
  split at h
  next old new _ hnew =>
    split at h
    next => cases h
    next branch hbranch =>
      obtain ⟨_, _, h⟩ := of_bind_eq_ok h
      have orderly := proper_iff.mp proper
      split_ifs at h
      . cases h
        exact proper
      . split at h
        next => cases h
        next =>
          cases h
          exact proper_iff.mpr ((orderly.erase old).set (hown new hnew) (orderly.at hbranch))
  next => cases h

theorem Proper.rename {source target : Text} (h : tree.rename source target = .ok next)
    : next.Proper := by
  unfold FileTree.rename at h
  dsimp only at h
  split at h
  next renamed hrenamed =>
    cases h
    obtain ⟨old, _, hrenamed⟩ := of_bind_eq_ok hrenamed
    obtain ⟨new, hnew, hrenamed⟩ := of_bind_eq_ok hrenamed
    split at hrenamed
    next => cases hrenamed
    next => exact proper.move (own_of_lastName hnew) hrenamed
  next => cases h

theorem Proper.copyFile {id : FileId} (h : tree.copyFile id path = .ok next) : next.Proper := by
  unfold FileTree.copyFile at h
  obtain ⟨old, _, h⟩ := of_bind_eq_ok h
  split at h
  next => cases h
  next =>
    split at h
    next => cases h
    next => exact proper.update h
  next => exact proper.update h

/-!
Changes that stay when they end with a fault.
-/

theorem Proper.makeDirectories (hown : place.Own) (hnames : ∀ name ∈ names, Path.IsName name)
    : (tree.makeDirectories place names).1.Proper := by
  induction names generalizing tree place with
  | nil => exact proper
  | cons name rest ih =>
    obtain ⟨hname, hrest⟩ := List.forall_mem_cons.mp hnames
    have hnext := hown.step hname
    rw [FileTree.makeDirectories]
    split
    next => exact proper
    next =>
      dsimp only
      split
      next => exact ih proper hnext hrest
      next => exact proper
      next made _ hmade =>
        exact ih (proper.enter (hmade ▸ hnext) (Branch.orderly_of_leaf rfl)) hnext hrest
      next => exact proper

theorem Proper.makeMissing (hown : place.Own) (hnames : ∀ name ∈ names, Path.IsName name)
    : (tree.makeMissing place names).1.Proper := by
  unfold FileTree.makeMissing
  split
  next => exact proper
  next =>
    dsimp only
    split_ifs
    . exact proper
    . exact proper
    . exact proper
    . exact proper.makeDirectories hown hnames

theorem Proper.createDirectories (path : Text) : (tree.createDirectories path).1.Proper := by
  have hnames (name : Text) (hname : name ∈
      if path.beforeZero.length < path.length then Path.names path.beforeZero
      else Path.components path.beforeZero) : Path.IsName name := by
    split at hname
    next => exact Path.isName_of_mem_names (Text.zero_not_mem_beforeZero path) hname
    next => exact Path.isName_of_mem_components (Text.zero_not_mem_beforeZero path) hname
  unfold FileTree.createDirectories FileTree.makePath
  dsimp only
  split
  next => exact proper
  next => exact proper
  next => exact proper
  next =>
    split
    next => exact proper
    next =>
      split
      next => exact proper
      next =>
        obtain ⟨hown, hmissing⟩ := own_descend (Place.own_origin path.beforeZero) hnames
        exact proper.makeMissing hown hmissing

theorem Proper.put {bytes : Bytes} (h : tree.put path bytes = .ok next) : next.Proper := by
  have hmade : ∀ directory : Text, (if directory.isEmpty then (tree, none)
      else tree.createDirectories directory).1.Proper := by
    intro directory
    split
    next => exact proper
    next => exact proper.createDirectories directory
  unfold FileTree.put at h
  dsimp only at h
  split at h
  next => cases h
  next hwrite =>
    cases h
    exact (hmade _).update hwrite
  next => cases h

theorem Proper.remove (path : Text) : (tree.remove path).1.Proper := by
  unfold FileTree.remove
  split
  next names hresolve =>
    have hemptied : (tree.enter names (.directory [])).Proper :=
      proper.enter (own_of_resolve hresolve) (Branch.orderly_of_leaf rfl)
    dsimp only
    split
    next =>
      split
      next => exact hemptied
      next => exact hemptied
    next => exact proper_iff.mpr ((proper_iff.mp proper).erase names)
  next => exact proper
  next => exact proper
  next => exact proper

theorem Proper.attempt {ε : Type} {result : Except ε FileTree}
    (h : ∀ next, result = .ok next → next.Proper) : (tree.attempt result).1.Proper := by
  cases result with
  | error error => exact proper
  | ok next => exact h next rfl

theorem Proper.sequence {α ε : Type} {run : FileTree → α → FileTree × Option ε}
    (h : ∀ tree step, tree.Proper → (run tree step).1.Proper) (steps : List α)
    : (tree.sequence steps run).1.Proper := by
  induction steps generalizing tree with
  | nil => exact proper
  | cons step rest ih =>
    have hrun := h tree step proper
    rw [FileTree.sequence]
    split
    next hfailed => rwa [hfailed] at hrun
    next hdone =>
      rw [hdone] at hrun
      exact ih hrun

end Changed

theorem proper_andThen {ε : Type} {first : FileTree × Option ε}
    {second : FileTree → FileTree × Option ε} (hfirst : first.1.Proper)
    (hsecond : ∀ tree, tree.Proper → (second tree).1.Proper) : (andThen first second).1.Proper := by
  obtain ⟨made, error⟩ := first
  cases error with
  | some error => exact hfirst
  | none => exact hsecond made hfirst

theorem Proper.copyDeep (proper : tree.Proper) (levels : Nat) (source target : Text)
    : (copyDeep levels tree source target).1.Proper := by
  induction levels generalizing tree source target with
  | zero => exact proper
  | succ levels ih =>
    rw [FileTree.copyDeep]
    split
    next => exact proper
    next => exact proper
    next =>
      split
      next => exact proper
      next =>
        split
        next => exact proper.attempt fun _ => proper.copyFile
        next => exact proper.attempt fun _ => proper.copyFile
        next => exact proper
        next =>
          refine proper_andThen ?_ fun made hmade => ?_
          . split
            next => exact proper
            next => exact proper.attempt fun _ => proper.makeDirectory
          . exact hmade.sequence (fun _ step hproper => ih hproper _ _) _

/-!
Any changes, one after another.
-/

inductive Change where
  | write (path : Text) (bytes : Bytes)
  | append (path : Text) (bytes : Bytes)
  | overwrite (path : Text) (offset : Nat) (patch : Bytes)
  | resize (path : Text) (size : Nat)
  | put (path : Text) (bytes : Bytes)
  | makeDirectory (path : Text)
  | createDirectories (path : Text)
  | remove (path : Text)
  | rename (source target : Text)
  | copy (source target : Text)

def changed (tree : FileTree) (change : Change) : FileTree :=
  match change with
  | .write path bytes => (tree.attempt (tree.write path bytes)).1
  | .append path bytes => (tree.attempt (tree.append path bytes)).1
  | .overwrite path offset patch => (tree.attempt (tree.overwrite path offset patch)).1
  | .resize path size => (tree.attempt (tree.resize path size)).1
  | .put path bytes => (tree.attempt (tree.put path bytes)).1
  | .makeDirectory path => (tree.attempt (tree.makeDirectory path)).1
  | .createDirectories path => (tree.createDirectories path).1
  | .remove path => (tree.remove path).1
  | .rename source target => (tree.attempt (tree.rename source target)).1
  | .copy source target => (tree.copy source target).1

theorem Proper.changed (proper : tree.Proper) (change : Change) : (tree.changed change).Proper := by
  cases change with
  | write => exact proper.attempt fun _ => proper.update
  | append => exact proper.attempt fun _ => proper.update
  | overwrite => exact proper.attempt fun _ => proper.modify
  | resize => exact proper.attempt fun _ => proper.resize
  | put => exact proper.attempt fun _ => proper.put
  | makeDirectory => exact proper.attempt fun _ => proper.makeDirectory
  | createDirectories path => exact proper.createDirectories path
  | remove path => exact proper.remove path
  | rename => exact proper.attempt fun _ => proper.rename
  | copy source target => exact proper.copyDeep maximumPath source target

theorem proper_of_changes (changes : List Change) : (changes.foldl changed .empty).Proper := by
  suffices h : ∀ tree : FileTree, tree.Proper → (changes.foldl changed tree).Proper from
    h .empty proper_empty
  induction changes with
  | nil => exact fun _ proper => proper
  | cons change rest ih => exact fun tree proper => ih _ (proper.changed change)

end FileTree

end SnapshotAudit
