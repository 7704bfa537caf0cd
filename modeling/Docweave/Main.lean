import Docweave.CommandLine.Program

set_option autoImplicit false

/-! # The command line

The files below the current directory are read, the program runs on them, and what it changes is
written back; of the files elsewhere nothing is seen but the directories that lead there. Standard input
is read only if the program wants it: the program then runs again with it, as nothing was printed or
written before. -/

namespace Docweave

/-- What bytes are, as the content of a file. -/
def FileContent.ofBytes (bytes : ByteArray) : FileContent :=
  match String.fromUTF8? bytes with
  | some data => .text data
  | none => .binary

/-- The value of an action, or another one if it fails. -/
def valueOr {α : Type} (other : α) (act : IO α) : IO α := tryCatch act fun _ => return other

/-- A file or directory as it is on disk. Links and devices are left out, and what cannot be read is
taken for bytes that are no text, or for an empty directory. -/
partial def FileNode.ofDisk (entry : IO.FS.DirEntry) : IO (Option (String × FileNode)) := do
  match (← entry.path.symlinkMetadata).type with
  | .dir =>
    let entries ← valueOr #[] entry.path.readDir
    return some (entry.fileName, .directory (← entries.toList.filterMapM FileNode.ofDisk))
  | .file =>
    let content ← valueOr .binary (FileContent.ofBytes <$> IO.FS.readBinFile entry.path)
    return some (entry.fileName, .file content)
  | _ => return none

/-- The current directory with all that is below it, and the way there from the root. -/
def Disk.ofCurrent : IO Disk := do
  let directory ← IO.currentDir
  let entries ← (← directory.readDir).toList.filterMapM FileNode.ofDisk
  let place := (FilePath.segments ⟨directory.toString⟩).filter (!·.isEmpty)
  return ⟨(FileNode.directory []).plant place (.directory entries), place⟩

/-- All that a stream still holds. -/
partial def readRest (stream : IO.FS.Stream) (before : ByteArray) : IO ByteArray := do
  let block ← stream.read 65536
  if block.isEmpty then return before else readRest stream (before ++ block)

/-- The variables that the program looks at. -/
def environmentNames : List String :=
  ["RUST_LOG", "RUST_LOG_STYLE", "DEBUG", "TERM", "NO_COLOR", "CLICOLOR_FORCE"]

/-- The outcome of the program on the files of the current directory. -/
def runOnDisk (arguments : List String) : IO (Disk × Outcome) := do
  let files ← Disk.ofCurrent
  let environment ← environmentNames.filterMapM fun name => do
    return (← IO.getEnv name).map fun value => (name, value)
  let outcome := Invocation.run ⟨arguments, environment, ⟨files, .binary⟩⟩
  match outcome.world.input with
  | .binary => return (files, outcome)
  | .text _ =>
    let input := FileContent.ofBytes (← readRest (← IO.getStdin) .empty)
    return (files, Invocation.run ⟨arguments, environment, ⟨files, input⟩⟩)

end Docweave

/-- Runs the program. -/
def main (arguments : List String) : IO UInt32 := do
  let (files, outcome) ← Docweave.runOnDisk arguments
  for found in outcome.world.files.root.changesSince files.root do
    match found.content with
    | .text data => IO.FS.writeFile ("/" ++ found.path.text) data
    | .binary => pure ()
  IO.print outcome.output
  IO.eprint outcome.errors
  return outcome.exitCode.toUInt32
