import Multiversion.Source
import Multiversion.Terminal

/-! The report of a run.

A report collects the diagnostics that surfaced, the files that failed and the
counts of the files that did not, and it prints what it is told as it goes. It
counts as failed from the first diagnostic or failure on. What cannot be printed is
in the report all the same; `print_eq_ok` says that only a stripped stream refuses
to print. -/
namespace Multiversion

/-- A file that failed, with the wording of its failure. -/
structure FileFailure where
  file : Text
  message : Text
deriving DecidableEq, Repr

/-- What is known about a run. -/
structure Report where
  diagnostics : List Diagnostic
  errors : List FileFailure
  processed : Nat
  copied : Nat
  skipped : Nat
  failed : Bool
  /-- Where it is printed. -/
  stream : Terminal.Stream
deriving DecidableEq, Repr

/-- The line that is printed for a diagnostic. -/
def Diagnostic.render (coloured : Bool) (d : Diagnostic) : Text :=
  let place := d.file ++ ":".toText ++ Literal.ofNat d.line ++ ": ".toText
  if coloured then
    Terminal.magenta ++ place ++ Terminal.red ++ d.message ++ Terminal.reset
  else place ++ d.message

/-- The line that is printed for a failure. -/
def FileFailure.render (coloured : Bool) (f : FileFailure) : Text :=
  let text := "Error: ".toText ++ f.message
  if coloured then Terminal.red ++ text ++ Terminal.reset else text

namespace Report

/-- The report before anything happened. -/
def fresh (stream : Terminal.Stream) : Report := ⟨[], [], 0, 0, 0, false, stream⟩

/-- The report is printed with colours. -/
def coloured (r : Report) : Bool := r.stream.mode = .coloured

/-- An action on a report. What is added stays also when it cannot be printed. -/
abbrev Action := EStateM Terminal.Fault Report

/-- Prints a line. -/
def print (line : Text) : Action Unit := fun r =>
  match r.stream.writeLine line with
  | .ok stream => .ok () { r with stream }
  | .error fault => .error fault r

/-- A diagnostic surfaced. -/
def addDiagnostic (d : Diagnostic) : Action Unit := do
  modify fun r => { r with diagnostics := r.diagnostics ++ [d], failed := true }
  print (d.render (← get).coloured)

/-- Diagnostics surfaced, one after the other. -/
def addDiagnostics (ds : List Diagnostic) : Action Unit := ds.forM addDiagnostic

/-- A file failed. -/
def addError (f : FileFailure) : Action Unit := do
  modify fun r => { r with errors := r.errors ++ [f], failed := true }
  print (f.render (← get).coloured)

/-- A file was converted. -/
def addProcessed (r : Report) : Report := { r with processed := r.processed + 1 }

/-- A file was copied. -/
def addCopied (r : Report) : Report := { r with copied := r.copied + 1 }

/-- A file was left to the overwrites. -/
def addSkipped (r : Report) : Report := { r with skipped := r.skipped + 1 }

/-! ### Lemmas -/

theorem print_eq_ok (line : Text) {r : Report} (h : r.stream.mode ≠ .stripped) :
    print line r =
      .ok () { r with stream := ⟨r.stream.mode, r.stream.printed ++ line ++ "\n".toText⟩ } := by
  have first := Terminal.Stream.write_eq_ok_of_not_stripped line h
  have second := Terminal.Stream.write_eq_ok_of_not_stripped "\n".toText
    (s := ⟨r.stream.mode, r.stream.printed ++ line⟩) h
  simp only [print, Terminal.Stream.writeLine, first, Except.bind]
  rw [second]

end Report

end Multiversion
