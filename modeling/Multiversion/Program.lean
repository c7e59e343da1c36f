import Multiversion.CommandLine.Arguments
import Multiversion.Config
import Multiversion.Extension
import Multiversion.Json.Writer

/-! The program.

The arguments are read, the configuration is put together, the run is done, and
the report is saved and summed up. A bad argument or configuration ends the
program with status 2 before anything is touched; a run with failures ends with
status 1. Neither stream shows colours. -/
namespace Multiversion

namespace Report

/-- The report as it is saved. -/
def toJson (r : Report) : Json :=
  let count (n : Nat) : Json := .integer n
  .object [
    ("summary".toText, .object [
      ("files_processed".toText, count r.processed),
      ("files_copied".toText, count r.copied),
      ("files_skipped".toText, count r.skipped),
      ("diagnostics".toText, count r.diagnostics.length),
      ("errors".toText, count r.errors.length),
      ("failed".toText, .bool r.failed)]),
    ("diagnostics".toText, .array (r.diagnostics.map fun d => .object [
      ("file".toText, .string d.file),
      ("line".toText, count d.line),
      ("message".toText, .string d.message)])),
    ("errors".toText, .array (r.errors.map fun f => .object [
      ("file".toText, .string f.file),
      ("message".toText, .string f.message)]))]

end Report

namespace Program

/-- A failure that is not reported but ends the program. -/
inductive Escape where
  | config (error : Config.Error)
  | extension (error : Extension.Error)
  | disk (error : Disk.Error)
  /-- Something cannot be printed. -/
  | terminal (fault : Terminal.Fault)
  /-- The number of jobs has been taken back. -/
  | noJobs

/-- The wording of a failure that ends the program. -/
def Escape.message : Escape → Text
  | config e => e.message
  | extension e => e.message
  | disk e => e.message
  | terminal fault => fault.message
  | noJobs => "'>' not supported between instances of 'list' and 'int'".toText

/-- What ends a run ends the program. -/
def Escape.ofRun : Run.Escape → Escape
  | .disk e => disk e
  | .terminal fault => terminal fault

/-- What the program works on. -/
structure State where
  stdout : Terminal.Stream
  stderr : Terminal.Stream
  disk : Disk

/-- A step of the program. What it has printed and written stands also when it
fails. -/
abbrev Action := EStateM Escape State

/-! ### Printing -/

/-- Prints a text at once, for those who read results. -/
def write (text : Text) : Action Unit := fun s =>
  match s.stdout.write text with
  | .ok stdout => .ok () { s with stdout }
  | .error fault => .error (.terminal fault) s

/-- Prints a text at once, for those who look for mistakes. -/
def writeError (text : Text) : Action Unit := fun s =>
  match s.stderr.write text with
  | .ok stderr => .ok () { s with stderr }
  | .error fault => .error (.terminal fault) s

/-- Prints a line. -/
def print (line : Text) : Action Unit := do
  write line
  write "\n".toText

/-- Prints a line about a mistake. -/
def printError (line : Text) : Action Unit := do
  writeError (Terminal.red ++ line)
  writeError "\n".toText

/-! ### The plan -/

/-- A plan that is ready to be run. -/
structure Plan where
  config : Config
  remap : Remap

/-- Why there is no plan. -/
inductive Stop where
  /-- Something is wrong with the configuration. -/
  | refused (message : Text)
  | escaped (escape : Escape)

/-- What became of the filling of a configuration. -/
def stopOf : Config.Error → Stop
  | .problem p => .refused p.message
  | e => .escaped (.config e)

/-- The text of an option, if it has one that is not empty. -/
def given (value : Option Text) : Option Text := value.filter (!·.isEmpty)

/-- What the arguments add to a configuration, before the positional ones. -/
def configure (d : Disk) (a : CommandLine.Arguments) : Config.Action Unit := do
  if let some path := given a.config then Config.load d path
  if let some definitions := given a.define then Config.parseDefines definitions
  a.keywords.forM Config.parseKeywords

/-- The plan that the arguments ask for. -/
def plan (library : List Extension) (d : Disk) (a : CommandLine.Arguments) : Except Stop Plan :=
  match configure d a .fresh with
  | .error e _ => .error (stopOf e)
  | .ok _ config =>
    let config? : Except Stop Config :=
      match given a.source, given a.generated with
      | none, none => .ok config
      | some source, some generated =>
        .ok { config with entries := config.entries ++ [.make source generated a.overwrites] }
      | _, _ => .error (.refused "Both SOURCE and GENERATED are required".toText)
    match config? with
    | .error stop => .error stop
    | .ok config =>
      match given a.remap with
      | none => .ok ⟨config, .identity⟩
      | some target =>
        match Extension.load library target with
        | .ok remap => .ok ⟨config, remap⟩
        | .error (.problem p) => .error (.refused p.message)
        | .error e => .error (.escaped (.extension e))

/-! ### The run -/

/-- The line that says what is going to be done. -/
def announcement (c : Config) : Text :=
  "Preprocessing ".toText ++ Literal.ofNat c.entries.length ++ " source folder(s) with ".toText ++
    c.environment.display

/-- The line that sums up a run without failures. -/
def summary (r : Report) : Text :=
  "Done. ".toText ++ Literal.ofNat r.processed ++ " preprocessed, ".toText ++
    Literal.ofNat r.copied ++ " copied, ".toText ++ Literal.ofNat r.skipped ++
    " overwritten.".toText

/-- Runs a plan. Its report is printed where mistakes are. -/
def preprocess (p : Plan) (clean parallel : Bool) : Action Report := fun s =>
  let settings : Run.Settings := ⟨p.config.environment, p.config.keywords, p.remap, parallel⟩
  match Run.run settings clean p.config.entries ⟨s.disk, .fresh s.stderr⟩ with
  | .ok _ w => .ok w.report { s with stderr := w.report.stream, disk := w.disk }
  | .error e w => .error (.ofRun e) { s with stderr := w.report.stream, disk := w.disk }

/-- Saves a report. -/
def save (path : Text) (r : Report) : Action Unit := fun s =>
  match Disk.writeText path (r.toJson.pretty 0) s.disk with
  | .ok _ disk => .ok () { s with disk }
  | .error e disk => .error (.disk e) { s with disk }

/-- Runs a plan and reports on it. -/
def execute (a : CommandLine.Arguments) (p : Plan) : Action Nat := do
  print (Terminal.cyan ++ announcement p.config)
  match a.jobs with
  | none => throw .noJobs
  | some jobs =>
    let r ← preprocess p (!a.noClean) (1 < jobs)
    if let some path := given a.report then
      save path r
      print (Terminal.cyan ++ "Report saved to ".toText ++ path)
    if r.failed then
      printError "Failed to preprocess sources. See errors above for details.".toText
      pure 1
    else
      print (Terminal.green ++ summary r)
      pure 0

/-- Ends the program with status 2 and a message. -/
def refuse (message : Text) : Action Nat := do
  printError ("Error: ".toText ++ message)
  pure 2

/-- What the program does with its arguments, given the modules that remaps can be
taken from. -/
def work (library : List Extension) (arguments : List Text) : Action Nat := do
  match CommandLine.read arguments with
  | .error refusal =>
    writeError CommandLine.usage
    writeError ("commentpp: error: ".toText ++ refusal.message ++ "\n".toText)
    pure 2
  | .ok .help =>
    write CommandLine.help
    pure 0
  | .ok (.run a) =>
    let s ← get
    match plan library s.disk a with
    | .error (.refused message) => refuse message
    | .error (.escaped escape) => throw escape
    | .ok p =>
      if p.config.entries.isEmpty then
        refuse "nothing to preprocess, give SOURCE GENERATED or a --config with entries".toText
      else execute a p

/-- What the program leaves behind: its status or the failure that ended it, what
it printed, and the disk. -/
structure Outcome where
  status : Except Escape Nat
  stdout : Text
  stderr : Text
  disk : Disk

/-- The program on a disk. Neither stream shows colours. -/
def run (library : List Extension) (arguments : List Text) (d : Disk) : Outcome :=
  match work library arguments ⟨.fresh .stripped, .fresh .stripped, d⟩ with
  | .ok status s => ⟨.ok status, s.stdout.printed, s.stderr.printed, s.disk⟩
  | .error escape s => ⟨.error escape, s.stdout.printed, s.stderr.printed, s.disk⟩

end Program

end Multiversion
