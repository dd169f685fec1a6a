import SnapshotAudit.Ordered.Map
import SnapshotAudit.Text

/-!
This module contains the shape of a tree of files: directories within directories, and the names
that lead through them. Nothing here knows what is in a file.
-/

namespace SnapshotAudit

abbrev FileId := Nat

inductive Entry where
  | directory
  | file (id : FileId)
deriving DecidableEq

inductive Branch where
  | file (id : FileId)
  | directory (entries : List (Text × Branch))

namespace Branch

instance : Inhabited Branch where
  default := .directory []

def entry (branch : Branch) : Entry :=
  match branch with
  | .file id => .file id
  | .directory _ => .directory

def entries (branch : Branch) : List (Text × Branch) :=
  match branch with
  | .file _ => []
  | .directory entries => entries

def child? (branch : Branch) (name : Text) : Option Branch :=
  SortedMap.lookup name branch.entries

def setChild (branch : Branch) (name : Text) (new : Branch) : Branch :=
  match branch with
  | .file id => .file id
  | .directory entries => .directory (SortedMap.place name (fun _ => new) entries)

def at? (branch : Branch) (names : List Text) : Option Branch :=
  match names with
  | [] => some branch
  | name :: rest => (branch.child? name).bind fun child => child.at? rest

def set (branch : Branch) (names : List Text) (new : Branch) : Branch :=
  match names with
  | [] => new
  | name :: rest =>
    branch.setChild name (((branch.child? name).getD (.directory [])).set rest new)

def erase (branch : Branch) (names : List Text) : Branch :=
  match names with
  | [] => branch
  | [name] =>
    match branch with
    | .file id => .file id
    | .directory entries => .directory (entries.filter fun e => e.1 ≠ name)
  | name :: rest =>
    match branch.child? name with
    | none => branch
    | some child => branch.setChild name (child.erase rest)

mutual

/--
Everything below a branch, under names that begin with the given ones. A directory comes in front of
what it holds.
-/
def listed (names : List Text) (branch : Branch) : List (List Text × Entry) :=
  match branch with
  | .file _ => []
  | .directory entries => listedAll names entries
termination_by structural branch

def listedAll (names : List Text) (entries : List (Text × Branch)) : List (List Text × Entry) :=
  match entries with
  | [] => []
  | (name, branch) :: rest =>
    (names ++ [name], branch.entry) :: listed (names ++ [name]) branch ++ listedAll names rest
termination_by structural entries

end

theorem child?_setChild (entries : List (Text × Branch)) (name other : Text) (new : Branch)
    : ((directory entries).setChild name new).child? other =
      if compare other name = .eq then some new else (directory entries).child? other := by
  obtain ⟨_, _, h⟩ := SortedMap.lookup_place name other (fun _ => new) entries
  exact h

@[simp]
theorem at?_nil (branch : Branch) : branch.at? [] = some branch := rfl

@[simp]
theorem set_nil (branch new : Branch) : branch.set [] new = new := rfl

end Branch

end SnapshotAudit
