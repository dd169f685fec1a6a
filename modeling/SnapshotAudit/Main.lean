import SnapshotAudit.Cluster.Nodes

/-!
This module contains the program: one node that is started from the command line. It stands alone in
its cluster, and the files that it sees are those whose paths come on the standard input, one a
line.
-/

namespace SnapshotAudit

namespace Program

def addFile (files : FileTree) (path : String) : IO FileTree := do
  let bytes ← IO.FS.readBinFile path
  match files.put path bytes.data.toList with
  | .ok files => return files
  | .error fault => throw (IO.userError ((String.fromUTF8? ⟨fault.message.toArray⟩).getD path))

def filesOf (paths : IO.FS.Stream) : IO FileTree := do
  let mut files : FileTree := .empty
  for path in ← paths.lines do
    files ← addFile files path
  return files

def printLines (output : IO.FS.Stream) (printed : List Text) : IO Unit := do
  for line in Text.printedLines printed do
    output.write ⟨(line ++ ("\n" : Text)).toArray⟩
  output.flush

end Program

end SnapshotAudit

open SnapshotAudit in
def main (arguments : List String) : IO UInt32 := do
  let files ← Program.filesOf (← IO.getStdin)
  let run := Cluster.runProgram (arguments.map fun (argument : String) => (argument : Text))
  let ((ending, printed), _) := run (Cluster.start files)
  Program.printLines (← IO.getStdout) printed
  match ending with
  | .exit code => return code.toUInt32
  | .forever =>
    repeat IO.sleep 60000
    return 0
