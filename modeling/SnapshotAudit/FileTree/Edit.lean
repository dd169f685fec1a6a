import SnapshotAudit.Failure
import SnapshotAudit.FileTree.Basic

/-!
This module contains the changes to a tree of files: making directories, writing, removing, renaming
and copying. Writing to a file that exists changes the bytes of that same file.
-/

namespace SnapshotAudit

namespace FileTree

def setBytes (tree : FileTree) (id : FileId) (bytes : Bytes) : FileTree :=
  { tree with contents := tree.contents.insert id bytes }

def enter (tree : FileTree) (names : List Text) (branch : Branch) : FileTree :=
  { tree with top := tree.top.set names branch }

def addFile (tree : FileTree) (names : List Text) (bytes : Bytes) : FileTree where
  top := tree.top.set names (.file tree.fresh)
  contents := tree.contents.insert tree.fresh bytes
  fresh := tree.fresh + 1

/--
Change the file that a path stands for. Without a file there one is made from nothing. A path that
ends in a separator or in dots asks for a directory.
-/
def update (tree : FileTree) (path : Text) (f : Bytes → Bytes) : Except PathError FileTree := do
  let last ← tree.lastName path
  if last.slashed || Path.isDots last.name then .error .isDirectory
  else
    match ← tree.lookup last, last.place with
    | some .directory, _ => .error .isDirectory
    | some (.file id), _ => .ok (tree.setBytes id (f (tree.bytesOf id)))
    | none, .inside names => .ok (tree.addFile names (f []))
    | none, _ => .error .notFound

def write (tree : FileTree) (path : Text) (bytes : Bytes) : Except PathError FileTree :=
  tree.update path fun _ => bytes

def append (tree : FileTree) (path : Text) (bytes : Bytes) : Except PathError FileTree :=
  tree.update path fun old => old ++ bytes

def modify (tree : FileTree) (path : Text) (f : Bytes → Bytes) : Except PathError FileTree := do
  let id ← tree.file path
  return tree.setBytes id (f (tree.bytesOf id))

def resized (size : Nat) (bytes : Bytes) : Bytes :=
  bytes.take size ++ List.replicate (size - bytes.length) 0

def overwritten (offset : Nat) (patch bytes : Bytes) : Bytes :=
  resized offset bytes ++ patch ++ bytes.drop (offset + patch.length)

def overwrite (tree : FileTree) (path : Text) (offset : Nat) (patch : Bytes)
    : Except PathError FileTree :=
  tree.modify path (overwritten offset patch)

def pathFault (what : Text) (error : PathError) (paths : List Text) : Fault :=
  .system (.join ["filesystem error: ", what, ": ", error.message,
    .join (paths.map fun path => .join [" [", path, "]"])])

def resize (tree : FileTree) (path : Text) (size : Nat) : Except Fault FileTree :=
  match tree.modify path (resized size) with
  | .ok tree => .ok tree
  | .error error => .error (pathFault "cannot resize file" error [path])

def descend (tree : FileTree) (place : Place) (names : List Text) : Place × List Text :=
  match names with
  | [] => (place, [])
  | name :: rest =>
    if tree.entry? (place.step name) = some .directory then descend tree (place.step name) rest
    else (place, names)

/--
Make the directories along some names one after another, as far as they do not exist. What was made
before an error stays.
-/
def makeDirectories (tree : FileTree) (place : Place) (names : List Text)
    : FileTree × Option PathError :=
  match names with
  | [] => (tree, none)
  | name :: rest =>
    if maximumName < name.length then (tree, some .nameTooLong)
    else
      let next := place.step name
      match tree.entry? next, next with
      | some .directory, _ => makeDirectories tree next rest
      | some (.file _), _ => (tree, some .alreadyThere)
      | none, .inside made => makeDirectories (tree.enter made (.directory [])) next rest
      | none, _ => (tree, some .notFound)

def maximumMissing : Nat := 1000

/--
Make the directories that are missing below a place. Nothing is made when there are too many of
them, or when a file stands where the first of several should be.
-/
def makeMissing (tree : FileTree) (place : Place) (names : List Text)
    : FileTree × Option PathError :=
  match names with
  | [] => (tree, none)
  | first :: rest =>
    let blocked :=
      match tree.entry? (place.step first) with
      | some (.file _) => !rest.isEmpty
      | _ => false
    let missing := (if blocked then rest else names).filter fun name => !Path.isDots name
    if maximumMissing < missing.length then (tree, some .nameTooLong)
    else if blocked then (tree, some .notDirectory)
    else tree.makeDirectories place names

/--
Make a directory and the directories above it. A separator at the end of the path does not count,
unless a zero byte follows it.
-/
def makePath (tree : FileTree) (path : Text) : FileTree × Option PathError :=
  let cut := path.beforeZero
  match tree.status path with
  | .ok .directory => (tree, none)
  | .ok (.file _) => (tree, some .notDirectory)
  | .error .nameTooLong => (tree, some .nameTooLong)
  | .error _ =>
    if path.isEmpty then (tree, some .invalid)
    else if cut.isEmpty then (tree, some .notFound)
    else
      let names := if cut.length < path.length then Path.names cut else Path.components cut
      let (place, missing) := tree.descend (.origin cut) names
      tree.makeMissing place missing

def createDirectories (tree : FileTree) (path : Text) : FileTree × Option Fault :=
  let (tree, error) := tree.makePath path
  (tree, error.map fun error => pathFault "cannot create directories" error [path])

def put (tree : FileTree) (path : Text) (bytes : Bytes) : Except Fault FileTree := do
  let directory := Path.directoryOf path
  let (tree, fault) := if directory.isEmpty then (tree, none) else tree.createDirectories directory
  match fault, tree.write path bytes with
  | some fault, _ => throw fault
  | none, .ok tree => return tree
  | none, .error error => throw (.system (.join ["cannot write ", path, ": ", error.message]))

def sequence {α ε : Type} (tree : FileTree) (steps : List α)
    (run : FileTree → α → FileTree × Option ε) : FileTree × Option ε :=
  match steps with
  | [] => (tree, none)
  | step :: rest =>
    match run tree step with
    | (tree, some error) => (tree, some error)
    | (tree, none) => sequence tree rest run

def attempt {ε : Type} (tree : FileTree) (result : Except ε FileTree) : FileTree × Option ε :=
  match result with
  | .ok tree => (tree, none)
  | .error error => (tree, some error)

def andThen {ε : Type} (first : FileTree × Option ε) (second : FileTree → FileTree × Option ε)
    : FileTree × Option ε :=
  match first with
  | (tree, some error) => (tree, some error)
  | (tree, none) => second tree

/--
Remove everything that a path stands for. A path that leads nowhere leaves the tree as it is. A
directory that is named by dots loses everything in it and stays, and that is a fault if the path
still leads to it.
-/
def remove (tree : FileTree) (path : Text) : FileTree × Option Fault :=
  match tree.resolve path with
  | .ok (.inside names) =>
    let last := (Path.components path.beforeZero).getLast?
    if last.any Path.isDots then
      let emptied := tree.enter names (.directory [])
      match emptied.status path with
      | .ok _ => (emptied, some (pathFault "cannot remove" .invalid [path]))
      | .error _ => (emptied, none)
    else ({ tree with top := tree.top.erase names }, none)
  | .error .notDirectory => (tree, some (pathFault "cannot remove" .notDirectory [path]))
  | .error .nameTooLong => (tree, some (pathFault "cannot remove all" .nameTooLong [path]))
  | _ => (tree, none)

def refusal? (moved : Branch) (old : Option Branch) : Option PathError :=
  match moved, old with
  | _, none => none
  | .file _, some (.file _) => none
  | .file _, some (.directory _) => some .isDirectory
  | .directory _, some (.file _) => some .notDirectory
  | .directory _, some (.directory entries) => if entries.isEmpty then none else some .notEmpty

/--
Move what has one name to another, in place of a file or an empty directory that had the name
before. Only a directory may be named with a separator at the end, and none gets below itself.
-/
def move (tree : FileTree) (source target : LastName) : Except PathError FileTree := do
  discard <| tree.lookup source
  match source.place, target.place with
  | .inside old, .inside new =>
    match tree.top.at? old with
    | none => .error .notFound
    | some branch =>
      discard <| tree.lookup target
      if branch.entry ≠ .directory && (source.slashed || target.slashed) then .error .notDirectory
      else if old = new then .ok tree
      else if old.isPrefixOf new then .error .invalid
      else if new.isPrefixOf old then .error .notEmpty
      else
        match refusal? branch (tree.top.at? new) with
        | some error => .error error
        | none => .ok { tree with top := (tree.top.erase old).set new branch }
  | _, _ => .error .notFound

def rename (tree : FileTree) (source target : Text) : Except Fault FileTree :=
  let renamed : Except PathError FileTree := do
    let old ← tree.lastName source
    let new ← tree.lastName target
    if Path.isDots old.name || Path.isDots new.name then .error .busy else tree.move old new
  match renamed with
  | .ok tree => .ok tree
  | .error error => .error (pathFault "cannot rename" error [source, target])

def makeDirectory (tree : FileTree) (path : Text) : Except PathError FileTree := do
  let last ← tree.lastName path
  if Path.isDots last.name then .error .alreadyThere
  else
    match ← tree.lookup last, last.place with
    | none, .inside names => .ok (tree.enter names (.directory []))
    | none, _ => .error .notFound
    | some _, _ => .error .alreadyThere

def status? (tree : FileTree) (path : Text) : Except PathError (Option Entry) :=
  match tree.status path with
  | .ok entry => .ok (some entry)
  | .error .notFound | .error .notDirectory => .ok none
  | .error error => .error error

def copyFile (tree : FileTree) (id : FileId) (target : Text) : Except PathError FileTree := do
  match ← tree.status? target with
  | some .directory => .error .invalid
  | some (.file old) =>
    if old = id then .error .alreadyThere else tree.write target (tree.bytesOf id)
  | none => tree.write target (tree.bytesOf id)

def same (tree : FileTree) (source target : Text) : Bool :=
  match tree.resolve source, tree.resolve target with
  | .ok a, .ok b => a = b && (tree.entry? a).isSome
  | _, _ => false

/--
Copy what a path stands for, at most so many levels deep. A file that is copied to a directory keeps
its name, and what is in a directory is copied entry by entry.
-/
def copyDeep (levels : Nat) (tree : FileTree) (source target : Text)
    : FileTree × Option PathError :=
  match levels with
  | 0 => (tree, some .nameTooLong)
  | levels + 1 =>
    match tree.status source, tree.status? target with
    | .error error, _ | _, .error error => (tree, some error)
    | .ok entry, .ok old =>
      if tree.same source target then (tree, some .alreadyThere)
      else
        match entry, old with
        | .file id, some .directory =>
          attempt tree (tree.copyFile id (Path.join target (Path.fileNameOf source)))
        | .file id, _ => attempt tree (tree.copyFile id target)
        | .directory, some (.file _) => (tree, some .isDirectory)
        | .directory, _ =>
          let made := if old.isSome then (tree, none) else attempt tree (tree.makeDirectory target)
          andThen made fun tree =>
            sequence tree (tree.children source) fun tree (name, _) =>
              copyDeep levels tree (Path.join source name) (Path.join target name)

def copy (tree : FileTree) (source target : Text) : FileTree × Option Fault :=
  let (tree, error) := tree.copyDeep maximumPath source target
  (tree, error.map fun error => pathFault "cannot copy" error [source, target])

end FileTree

end SnapshotAudit
