import SnapshotAudit.Text

/-!
This module contains paths as texts: how they are joined, cut into names and split from their
extension. Nothing here looks at a tree.
-/

namespace SnapshotAudit

namespace Path

def separator : UInt8 := 47

def isAbsolute (path : Text) : Bool :=
  path.head? = some separator

/--
Go from a directory to a path below it. Nothing is put in between when the left side is empty or
ends in a separator, and an absolute right side stands alone.
-/
def join (left right : Text) : Text :=
  if isAbsolute right then right
  else if left.isEmpty || left.getLast? = some separator then left ++ right
  else left ++ separator :: right

def components (path : Text) : List Text :=
  (path.splitAt separator).filter fun name => !name.isEmpty

/--
The names that are walked through. A separator at the end asks for a directory, as a last name `.`
does.
-/
def names (path : Text) : List Text :=
  components path ++ if path.getLast? = some separator then [("." : Text)] else []

def isDots (name : Text) : Bool :=
  name = ("." : Text) || name = (".." : Text)

def fileNameOf (path : Text) : Text :=
  (path.reverse.takeWhile (· ≠ separator)).reverse

def directoryOf (path : Text) : Text :=
  (path.reverse.dropWhile (· ≠ separator)).reverse

/--
The extension of a file name: from its last dot on. A name without a dot, or with a dot in front and
no other, has none.
-/
def extensionOf (name : Text) : Text :=
  if isDots name then []
  else
    match name.reverse.span (· ≠ 46) with
    | (_, []) => []
    | (_, [_]) => []
    | (tail, dot :: _) => dot :: tail.reverse

end Path

end SnapshotAudit
