import Multiversion.Program

/-! The command.

The files below the working directory are read into a disk, the program runs on
it, and what it changed is written back. Other files are out of reach. No modules
of remaps are built in. -/
namespace Multiversion.Command

/-- The disk with what is below a directory, as deep as paths go. -/
def load : Nat → Array IO.FS.DirEntry → Location → Disk → IO Disk
  | 0, _, _, d => pure d
  | depth + 1, entries, l, d => do
    let mut d := d
    for entry in entries do
      let here := l ++ [entry.fileName.toText]
      if ← entry.path.isDir then
        d ← load depth (← entry.path.readDir) here (d.put here .directory)
      else d := d.put here (.file (← IO.FS.readBinFile entry.path))
    pure d

/-- A text as a string. A half of a surrogate pair, which no string can hold, is
replaced. -/
def string (s : Text) : String := String.ofList (s.map fun c => c.toChar?.getD '\uFFFD')

/-- A location as a path. -/
def path (l : Location) : String := string (Disk.pathBelow "/".toText l)

/-- Removes what is no longer there. -/
def removeOld (before after : Disk) : IO Unit := do
  for (l, node) in before.tree.entries.reverse do
    if (after.node? l).isNone then
      match node with
      | .file _ => IO.FS.removeFile (path l)
      | .directory => pure ()
  for (l, node) in before.tree.entries do
    if after.node? l = none ∧ node = .directory then
      if (after.node? l.dropLast).isSome then IO.FS.removeDirAll (path l)

/-- Writes what is new or has changed. -/
def writeNew (before after : Disk) : IO Unit := do
  for (l, node) in after.tree.entries do
    if before.node? l ≠ some node then
      match node with
      | .directory => IO.FS.createDirAll (path l)
      | .file content => IO.FS.writeBinFile (path l) content

end Multiversion.Command

open Multiversion in
/-- Runs the program below the working directory. -/
def main (arguments : List String) : IO UInt32 := do
  let here ← IO.currentDir
  let working := (Path.names here.toString.toText).filter (!·.isEmpty)
  let before ← Command.load 4096 (← here.readDir) working (.fresh working)
  let outcome := Program.run [] (arguments.map String.toText) before
  Command.removeOld before outcome.disk
  Command.writeNew before outcome.disk
  IO.print (Command.string outcome.stdout)
  IO.eprint (Command.string outcome.stderr)
  match outcome.status with
  | .ok status => pure (UInt32.ofNat status)
  | .error escape =>
    IO.eprintln (Command.string escape.message)
    pure 1
