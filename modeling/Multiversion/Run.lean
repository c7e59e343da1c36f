import Multiversion.SourceFile

/-! Runs.

A run takes entries, each a directory of sources and the directory that is
generated from it. The generated directories are removed first, if that is asked
for; then every file below every source directory is one task: left out if the
overwrites have it, converted if a suffix gives its keywords, and copied
otherwise. A task that fails is recorded and the run goes on; what cannot be
recorded escapes. -/
namespace Multiversion

/-- A directory of sources, the directory its results go to, and the directory
whose files stand in for results. -/
structure Entry where
  source : Text
  generated : Text
  overwrites : Option Text
deriving DecidableEq, Repr

/-- The entry of three paths. An empty path of overwrites is none. -/
def Entry.make (source generated : Text) (overwrites : Option Text) : Entry :=
  ⟨source, generated, overwrites.filter (!·.isEmpty)⟩

namespace Run

/-- What is the same for all files of a run. -/
structure Settings where
  environment : Environment
  keywords : SuffixMap
  remap : Remap
  /-- Tasks do not wait for each other, so that all are done whatever escapes. -/
  parallel : Bool

/-- One file of one entry, by its path below the source directory. -/
structure Task where
  entry : Entry
  file : Text
deriving DecidableEq, Repr

namespace Task

/-- The path of the source file. -/
def source (t : Task) : Text := Path.join t.entry.source t.file

/-- The path of the result. -/
def target (t : Task) : Text := Path.join t.entry.generated t.file

/-- The overwrites have the file. -/
def overwritten (d : Disk) (t : Task) : Bool :=
  match t.entry.overwrites with
  | none => false
  | some directory => d.isPresent (Path.join directory t.file)

end Task

/-- Copies a file, making the directories it needs. -/
def copyFile (source target : Text) : Disk.Action Unit := do
  Disk.makeDirectories (Path.parent target)
  Disk.copy source target

/-- What is not recorded but ends a run. -/
inductive Escape where
  /-- A directory cannot be removed, or no disk can be given a path. -/
  | disk (error : Disk.Error)
  /-- A failure cannot be printed. -/
  | terminal (fault : Terminal.Fault)

/-- The wording of what ends a run. -/
def Escape.message : Escape → Text
  | disk error => error.message
  | terminal fault => fault.message

/-- An action on the workspace, with what can end a run. -/
abbrev Action := EStateM Escape Workspace

/-- Records the failure of a file. -/
def recordFailure (file : Text) (failure : Failure) : Action Unit := fun w =>
  match Report.addError ⟨file, failure.message file⟩ w.report with
  | .ok _ report => .ok () { w with report }
  | .error fault report => .error (.terminal fault) { w with report }

/-- Works on one file. -/
def perform (settings : Settings) (t : Task) : Action Unit := fun w =>
  if t.overwritten w.disk then .ok () { w with report := w.report.addSkipped }
  else
    match settings.keywords.keywordsFor (Path.base t.source) with
    | none =>
      match copyFile t.source t.target w.disk with
      | .ok _ disk => .ok () { disk, report := w.report.addCopied }
      | .error e disk =>
        if e.isRefusal then recordFailure t.source (.disk e) { w with disk }
        else .error (.disk e) { w with disk }
    | some k =>
      match SourceFile.convert settings.environment k settings.remap t.source t.target w with
      | .ok _ w => .ok () w
      | .error failure w => recordFailure t.source failure w

/-- Works on files in order. The first that escapes counts, and nothing is done behind
it unless the tasks are parallel. -/
def performAll (settings : Settings) : List Task → Action Unit
  | [] => pure ()
  | t :: rest => fun w =>
    match perform settings t w with
    | .ok _ w => performAll settings rest w
    | .error escape w =>
      if settings.parallel then
        match performAll settings rest w with
        | .ok _ w | .error _ w => .error escape w
      else .error escape w

/-- Removes the generated directory of an entry, if there is one. -/
def cleanEntry (entry : Entry) : Action Unit := fun w =>
  if w.disk.isDirectory entry.generated then
    match Disk.removeTree entry.generated w.disk with
    | .ok _ disk => .ok () { w with disk }
    | .error e disk => .error (.disk e) { w with disk }
  else .ok () w

/-- The tasks of one entry. -/
def tasksOf (d : Disk) (entry : Entry) : List Task :=
  (d.files entry.source).map fun file => ⟨entry, file⟩

/-- The tasks of all entries. -/
def tasks (d : Disk) (entries : List Entry) : List Task := entries.flatMap (tasksOf d)

/-- Records an entry whose source directory is not there. -/
def checkEntry (entry : Entry) : Action Unit := do
  let w ← get
  if w.disk.isDirectory entry.source then pure () else recordFailure entry.source .noSource

/-- Works on all files of all entries. -/
def run (settings : Settings) (clean : Bool) (entries : List Entry) : Action Unit := do
  if clean then entries.forM cleanEntry
  entries.forM checkEntry
  let w ← get
  performAll settings (tasks w.disk entries)

end Run

end Multiversion
