import Multiversion.Json.Reader
import Multiversion.Run

/-! Configurations.

A configuration holds the variables, the suffixes and the entries of a run. It is
filled from definitions such as `MC=11605,FABRIC`, from assignments such as
`.txt=cfg`, and from JSON files; each adds to what is there. What is wrong is
reported as a problem; what was added before the problem stays. -/
namespace Multiversion

/-- The variables, suffixes and entries of a run. -/
structure Config where
  environment : Environment
  keywords : SuffixMap
  entries : List Entry

namespace Config

/-- The sections of a configuration file. -/
inductive Section where
  | vars
  | keywords
  | entries
deriving DecidableEq, Repr

/-- The key of a section. -/
def Section.key : Section → Text
  | vars => "vars".toText
  | keywords => "keywords".toText
  | entries => "entries".toText

/-- What a section must be. -/
def Section.expected : Section → Text
  | entries => "a list".toText
  | _ => "an object".toText

/-- What can be wrong with a configuration. -/
inductive Problem where
  /-- The value of a variable is a floating-point number. -/
  | fraction (name : Text) (value : Binary64)
  /-- The value of a variable is no literal. -/
  | notLiteral (name : Text) (value : Json)
  /-- An assignment of a suffix has no equals sign, or there is none. -/
  | noAssignment (option : Option Text)
  /-- No keyword set has that name. -/
  | unknownProfile (name : Text)
  /-- A keyword set lacks tokens. -/
  | missingKeywords (names : List Text)
  /-- A keyword set is neither a name nor an object. -/
  | notProfile (value : Json)
  /-- The file cannot be read, or holds no JSON. -/
  | unreadable (path : Text) (error : Option Disk.Error)
  /-- The file holds another value than an object. -/
  | notObject (path : Text)
  /-- A section of the file is of the wrong type. -/
  | badSection (name : Section) (path : Text) (value : Json)
  /-- An entry is no object. -/
  | entryNotObject (path : Text) (entry : Json)
  /-- An entry lacks one of its directories. -/
  | entryIncomplete (path : Text) (entry : Json)

/-- The wording of a problem. -/
def Problem.message : Problem → Text
  | fraction name value =>
    "Value of '".toText ++ name ++ "' is a number with a fraction (".toText ++
      Json.showFloat value ++ "), quote versions like \"1.10\"".toText
  | notLiteral name value =>
    "Value of '".toText ++ name ++ "' must be an integer or a version, got ".toText ++
      value.display
  | noAssignment option =>
    "Expected SUFFIX=PROFILE, got ".toText ++ (option.map Text.quoted).getD "[]".toText
  | unknownProfile name =>
    "Unknown keyword profile '".toText ++ name ++ "' (known: ".toText ++
      Text.join ", ".toText (Keywords.profiles.map Prod.fst) ++ ")".toText
  | missingKeywords names => "Missing keywords: ".toText ++ Text.join ", ".toText names
  | notProfile value =>
    "Keyword profile must be a name or an object, got ".toText ++ value.display
  | unreadable path error =>
    "Error loading config ".toText ++ path ++ ": ".toText ++
      match error with
      | some e => e.message
      | none => []
  | notObject path => "Config ".toText ++ path ++ " must contain a JSON object".toText
  | badSection name path value =>
    "'".toText ++ name.key ++ "' in ".toText ++ path ++ " must be ".toText ++ name.expected ++
      ", got ".toText ++ value.display
  | entryNotObject path entry =>
    "Entry in ".toText ++ path ++ " must be an object, got ".toText ++ entry.display
  | entryIncomplete path entry =>
    "Entry in ".toText ++ path ++ " needs 'source' and 'generated': ".toText ++ entry.display

/-- What stops the filling of a configuration. -/
inductive Error where
  | problem (problem : Problem)
  /-- A literal is too long. -/
  | overlong (literal : Overlong)
  /-- The overwrites of an entry are no path. -/
  | notPath (value : Json)
  /-- An array or object of a file stands in too many others. -/
  | tooDeep (container : Json.Container)

/-- The wording of an error. -/
def Error.message : Error → Text
  | problem p => p.message
  | overlong literal => literal.message
  | notPath value =>
    "join() argument must be str, bytes, or os.PathLike object, not '".toText ++
      value.typeName ++ "'".toText
  | tooDeep container =>
    "maximum recursion depth exceeded while decoding a JSON ".toText ++ container.name ++
      " from a unicode string".toText

/-- An action that fills a configuration. What it has added stands also when it
fails. -/
abbrev Action := EStateM Error Config

/-- The configuration before anything is added. -/
def fresh : Config := ⟨.empty, .standard, []⟩

/-! ### Values -/

/-- The integer that a value of a variable stands for: truth values count as 0 and
1, floating-point numbers are refused, and anything else must be a literal. -/
def parseValue (name : Text) (value : Json) : Except Error Int :=
  match value with
  | .bool b => .ok (if b then 1 else 0)
  | .integer n => .ok n
  | .float x => .error (.problem (.fraction name x))
  | value =>
    match Literal.read value.asText with
    | .error o => .error (.overlong o)
    | .ok (some n) => .ok n
    | .ok none => .error (.problem (.notLiteral name value))

/-- The keyword set that a value stands for: a name, or an object of tokens. -/
def parseProfile (value : Json) : Except Error Keywords :=
  match value with
  | .string name =>
    match Keywords.profile? name with
    | some k => .ok k
    | none => .error (.problem (.unknownProfile name))
  | .object members =>
    match Keywords.ofFields fun name => (Json.member? name members).map Json.asText with
    | .ok k => .ok k
    | .error names => .error (.problem (.missingKeywords names))
  | value => .error (.problem (.notProfile value))

/-- Binds a variable to the integer that a value stands for. -/
def define (name : Text) (value : Json) : Action Unit := do
  match parseValue name value with
  | .error e => throw e
  | .ok n => modify fun c => { c with environment := c.environment.insert name n }

/-- Gives a suffix the keyword set that a value stands for. -/
def assign (suffix : Text) (value : Json) : Action Unit := do
  match parseProfile value with
  | .error e => throw e
  | .ok k => modify fun c => { c with keywords := c.keywords.insert suffix k }

/-- Adds an entry. -/
def addEntry (entry : Entry) : Action Unit :=
  modify fun c => { c with entries := c.entries ++ [entry] }

/-! ### Options -/

/-- One definition: a name with its value, or a name alone, which is bound to 1. -/
def parseDefine (definition : Text) : Action Unit :=
  let definition := Text.strip definition
  if definition = [] then pure ()
  else
    match Text.cut? '=' definition with
    | some (name, value) => define (Text.strip name) (.string (Text.strip value))
    | none => define definition (.integer 1)

/-- Definitions, with commas between them. -/
def parseDefines (definitions : Text) : Action Unit :=
  (Text.splitOn ',' definitions).forM parseDefine

/-- An assignment of a keyword set to a suffix. -/
def parseKeywords (option : Option Text) : Action Unit :=
  match option.bind (Text.cut? '=') with
  | none => throw (.problem (.noAssignment option))
  | some (suffix, profile) => assign (Text.strip suffix) (.string (Text.strip profile))

/-! ### Files -/

/-- The members of a section that is an object. It may be missing. -/
def objectSection (name : Section) (path : Text) (data : List (Text × Json)) :
    Except Error (List (Text × Json)) :=
  match Json.member? name.key data with
  | none => .ok []
  | some (.object members) => .ok members
  | some value => .error (.problem (.badSection name path value))

/-- The items of a section that is a list. It may be missing. -/
def listSection (name : Section) (path : Text) (data : List (Text × Json)) :
    Except Error (List Json) :=
  match Json.member? name.key data with
  | none => .ok []
  | some (.array items) => .ok items
  | some value => .error (.problem (.badSection name path value))

/-- The entry that a value of a file stands for, its paths seen from a directory. -/
def parseEntry (path directory : Text) (value : Json) : Except Error Entry :=
  match value with
  | .object members =>
    match Json.member? "source".toText members, Json.member? "generated".toText members with
    | some (.string source), some (.string generated) =>
      let entry := Entry.make (Path.join directory source) (Path.join directory generated)
      match (Json.member? "overwrites".toText members).getD .null with
      | .string [] => .ok (entry none)
      | .string overwrites => .ok (entry (some (Path.join directory overwrites)))
      | other => if other.isFalsy then .ok (entry none) else .error (.notPath other)
    | _, _ => .error (.problem (.entryIncomplete path value))
  | value => .error (.problem (.entryNotObject path value))

/-- The object that a file holds. -/
def readObject (d : Disk) (path : Text) : Except Error (List (Text × Json)) :=
  match d.read path with
  | .error e => .error (.problem (.unreadable path (if e.isRefusal then some e else none)))
  | .ok content =>
    match Utf8.decode content with
    | .error _ => .error (.problem (.unreadable path none))
    | .ok text =>
      match Json.ofText text with
      | .error .malformed => .error (.problem (.unreadable path none))
      | .error (.tooDeep container) => .error (.tooDeep container)
      | .ok (.object members) => .ok members
      | .ok _ => .error (.problem (.notObject path))

/-- Adds what an object says. The sections are checked before anything is added. -/
def merge (path directory : Text) (data : List (Text × Json)) : Action Unit := do
  match objectSection .vars path data, objectSection .keywords path data,
      listSection .entries path data with
  | .ok vars, .ok keywords, .ok entries =>
    vars.forM fun (name, value) => define name value
    keywords.forM fun (suffix, value) => assign suffix value
    entries.forM fun value =>
      match parseEntry path directory value with
      | .error e => throw e
      | .ok entry => addEntry entry
  | .error e, _, _ => throw e
  | _, .error e, _ => throw e
  | _, _, .error e => throw e

/-- Adds what a file says. Its paths are seen from the directory of the file. -/
def load (d : Disk) (path : Text) : Action Unit :=
  match readObject d path with
  | .error e => throw e
  | .ok data =>
    let here := "/".toText ++ Text.join ['/'] d.working
    merge path (Path.parent (Path.absolute here path)) data

end Config

end Multiversion
