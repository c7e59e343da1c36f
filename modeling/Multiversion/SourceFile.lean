import Multiversion.Disk
import Multiversion.Document
import Multiversion.Report
import Multiversion.Text.Utf8

/-! The conversion of one file.

The file is read, decoded, handed to the remap and converted before anything is
written, so a failure before that leaves the disk as it was. Messages that surfaced
stay in the report also when the file fails. -/
namespace Multiversion

/-- A callback that is given the lines of a file: their new texts with messages, or
a failure in words of its own. -/
abbrev Remap := List Text → Except Text (List Remapped)

/-- The callback that changes nothing. -/
def Remap.identity : Remap := fun lines => .ok (Source.unchanged lines)

/-- Why a file has no result. -/
inductive Failure where
  /-- One of its lines cannot be read. -/
  | source (error : Block.Error)
  /-- A file or directory is not what it needs to be. -/
  | disk (error : Disk.Error)
  /-- It is not UTF-8. -/
  | encoding (fault : Utf8.Fault)
  /-- The remap failed. -/
  | remap (message : Text)
  /-- The remap gave back another number of lines. -/
  | lineCount (given expected : Nat)
  /-- A directory of sources is not there. -/
  | noSource
  /-- A message about it cannot be printed. -/
  | terminal (fault : Terminal.Fault)

/-- The wording of a failure, the file left out. -/
def Failure.cause : Failure → Text
  | source error => error.message
  | disk error => error.message
  | encoding fault => fault.message
  | remap message => message
  | lineCount given expected =>
    "remap returned ".toText ++ Literal.ofNat given ++ " lines for ".toText ++
      Literal.ofNat expected ++ " input lines".toText
  | noSource => "source directory does not exist".toText
  | terminal fault => fault.message

/-- The wording of the failure of a file. A layout error names the file itself. -/
def Failure.message (file : Text) : Failure → Text
  | source (.layout error) => error.message
  | failure => "Failed to convert file ".toText ++ file ++ ": ".toText ++ failure.cause

/-- The disk that is worked on, and the report of the work. -/
structure Workspace where
  disk : Disk
  report : Report

namespace Workspace

/-- An action on the disk as an action on the workspace. -/
def onDisk {α : Type} (action : Disk.Action α) : EStateM Failure Workspace α := fun w =>
  match action w.disk with
  | .ok a disk => .ok a { w with disk }
  | .error e disk => .error (.disk e) { w with disk }

/-- An action on the report as an action on the workspace. -/
def onReport {α : Type} (action : Report.Action α) : EStateM Failure Workspace α := fun w =>
  match action w.report with
  | .ok a report => .ok a { w with report }
  | .error fault report => .error (.terminal fault) { w with report }

end Workspace

namespace SourceFile

/-- The document that a file holds. -/
def load (d : Disk) (path : Text) : Except Failure Document :=
  match d.read path with
  | .error e => .error (.disk e)
  | .ok content =>
    match Utf8.decode content with
    | .error fault => .error (.encoding fault)
    | .ok text => .ok (.ofText text)

/-- The lines with what the remap makes of them. -/
def remapLines (remap : Remap) (lines : List Text) : Except Failure (List Source.Line) :=
  match remap lines with
  | .error message => .error (.remap message)
  | .ok remapped =>
    if remapped.length = lines.length then .ok (Source.pair lines remapped)
    else .error (.lineCount remapped.length lines.length)

/-- Writes a document, making the directories it needs. -/
def store (path : Text) (document : Document) : Disk.Action Unit := do
  if Path.parent path ≠ [] then Disk.makeDirectories (Path.parent path)
  Disk.writeText path document.toText

/-- Converts one file to another one. -/
def convert (env : Environment) (k : Keywords) (remap : Remap) (source target : Text) :
    EStateM Failure Workspace Unit := fun w =>
  match load w.disk source with
  | .error failure => .error failure w
  | .ok document =>
    match remapLines remap document.lines with
    | .error failure => .error failure w
    | .ok lines =>
      let outcome := Source.convert k ⟨env, source⟩ lines
      match Workspace.onReport (Report.addDiagnostics outcome.diagnostics) w with
      | .error failure w => .error failure w
      | .ok _ w =>
        match outcome.result with
        | .error e => .error (.source e) w
        | .ok text =>
          match Workspace.onDisk (store target { document with lines := text }) w with
          | .error failure w => .error failure w
          | .ok _ w => .ok () { w with report := w.report.addProcessed }

end SourceFile

end Multiversion
