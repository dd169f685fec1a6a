import SnapshotAudit.FileTree.Branch
import SnapshotAudit.FileTree.Path

/-!
This module contains the tree of files that nodes keep their snapshots in. A file has an identity of
its own: who has opened it goes on reading it whatever happens to its name, and sees what is written
into it later.
-/

namespace SnapshotAudit

inductive PathError where
  | notFound
  | notDirectory
  | isDirectory
  | nameTooLong
  | alreadyThere
  | notEmpty
  | invalid
  | busy
deriving DecidableEq

namespace PathError

def message (error : PathError) : Text :=
  match error with
  | notFound => "No such file or directory"
  | notDirectory => "Not a directory"
  | isDirectory => "Is a directory"
  | nameTooLong => "File name too long"
  | alreadyThere => "File exists"
  | notEmpty => "Directory not empty"
  | invalid => "Invalid argument"
  | busy => "Device or resource busy"

end PathError

/--
Where a walk through a tree has come to: to names below the top of the tree, to a directory above
it, about which nothing is known, or to something unknown below such a directory.
-/
inductive Place where
  | inside (names : List Text)
  | above
  | unknown
deriving DecidableEq

namespace Place

def origin (path : Text) : Place :=
  if Path.isAbsolute path then above else inside []

def step (place : Place) (name : Text) : Place :=
  if name = ("." : Text) then place
  else if name = (".." : Text) then
    match place with
    | inside [] => above
    | inside names => inside names.dropLast
    | other => other
  else
    match place with
    | inside names => inside (names ++ [name])
    | _ => unknown

end Place

/--
A tree of directories and files: its shape, and the bytes of every file by its identity.
-/
structure FileTree where
  top : Branch
  contents : SortedMap FileId Bytes
  fresh : FileId

namespace FileTree

def empty : FileTree :=
  ⟨.directory [], .empty, 0⟩

instance : Inhabited FileTree where
  default := empty

def maximumName : Nat := 255

def maximumPath : Nat := 4096

def entry? (tree : FileTree) (place : Place) : Option Entry :=
  match place with
  | .inside names => (tree.top.at? names).map Branch.entry
  | .above => some .directory
  | .unknown => none

/--
Walk through directories along some names. What the last name stands for need not exist.
-/
def walk (tree : FileTree) (place : Place) (names : List Text) : Except PathError Place :=
  match names with
  | [] => .ok place
  | name :: rest =>
    match tree.entry? place with
    | none => .error .notFound
    | some (.file _) => .error .notDirectory
    | some .directory =>
      if maximumName < name.length then .error .nameTooLong
      else walk tree (place.step name) rest

def resolve (tree : FileTree) (path : Text) : Except PathError Place :=
  let path := path.beforeZero
  if path.isEmpty then .error .notFound
  else if maximumPath ≤ path.length then .error .nameTooLong
  else tree.walk (.origin path) (Path.names path)

structure LastName where
  directory : Place
  name : Text
  slashed : Bool

def LastName.place (last : LastName) : Place :=
  last.directory.step last.name

def lastName (tree : FileTree) (path : Text) : Except PathError LastName :=
  let path := path.beforeZero
  let names := Path.components path
  if path.isEmpty then .error .notFound
  else if maximumPath ≤ path.length then .error .nameTooLong
  else do
    let directory ← tree.walk (.origin path) names.dropLast
    match tree.entry? directory with
    | none => .error .notFound
    | some (.file _) => .error .notDirectory
    | some .directory =>
      .ok ⟨directory, names.getLast?.getD ".", path.getLast? = some Path.separator⟩

/--
What the last name of a path stands for, if anything. It is found only when it is not too long.
-/
def lookup (tree : FileTree) (last : LastName) : Except PathError (Option Entry) :=
  if maximumName < last.name.length then .error .nameTooLong else .ok (tree.entry? last.place)

def status (tree : FileTree) (path : Text) : Except PathError Entry := do
  match tree.entry? (← tree.resolve path) with
  | none => .error .notFound
  | some entry => .ok entry

def isDirectory (tree : FileTree) (path : Text) : Bool :=
  match tree.status path with
  | .ok .directory => true
  | _ => false

def isFile (tree : FileTree) (path : Text) : Bool :=
  match tree.status path with
  | .ok (.file _) => true
  | _ => false

def file (tree : FileTree) (path : Text) : Except PathError FileId := do
  match ← tree.status path with
  | .directory => .error .isDirectory
  | .file id => .ok id

def bytesOf (tree : FileTree) (id : FileId) : Bytes :=
  tree.contents.getD id []

def read (tree : FileTree) (path : Text) : Except PathError Bytes := do
  return tree.bytesOf (← tree.file path)

def children (tree : FileTree) (path : Text) : List (Text × Entry) :=
  match tree.resolve path with
  | .ok (.inside names) =>
    (((tree.top.at? names).map Branch.entries).getD []).map fun e => (e.1, e.2.entry)
  | _ => []

def listing (tree : FileTree) : List Text :=
  ((tree.top.listed []).map fun e =>
    let path := Text.joinWith [Path.separator] e.1
    match e.2 with
    | .directory => path ++ [Path.separator]
    | .file id => Text.join [path, " ", .decimal (tree.bytesOf id).length]).mergeSort
      fun a b => (compare a b).isLE

end FileTree

end SnapshotAudit
