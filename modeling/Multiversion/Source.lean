import Multiversion.Block

/-! The conversion of one source text.

Each line comes with the text a remap gave it and the messages it gave. Directives
are recognized on the remapped text. In an active region lines keep their remapped
text, or the one of the file while remapping is off, and lines that an eval token
comments out are enabled. In an inactive region lines are commented out with the
eval token at the indentation of the block, and it is the text of the file that is
commented out. Messages of lines whose remapped text is not used do not surface. -/
namespace Multiversion

/-- A line as a remap gives it back. -/
structure Remapped where
  text : Text
  messages : List Text
deriving DecidableEq, Repr

/-- A message that surfaced, with the line it belongs to. -/
structure Diagnostic where
  file : Text
  line : Nat
  message : Text
deriving DecidableEq, Repr

namespace Source

/-- A line with the text that a remap gave it. -/
structure Line where
  /-- The line as it stands in the file. -/
  raw : Text
  remapped : Remapped
deriving DecidableEq, Repr

/-- The line without its eval token. A line of which nothing is left is empty. -/
def enable (k : Keywords) (line : Text) : Text :=
  let text := Text.eraseFirst k.eval line
  if Text.isBlank text then [] else text

/-- What an enabled or plain line becomes, and whether its messages surface. -/
def adapt (k : Keywords) (s : Block.Stack) (isEval : Bool) (line : Line) : Text × Bool :=
  let text := line.remapped.text
  if s.active then
    if isEval then (enable k text, true)
    else if s.remapping then (text, true)
    else (line.raw, false)
  else if Text.isBlank text then (Text.spaces s.indent ++ k.eval, true)
  else if !isEval && s.indent ≤ Text.indentation text then
    (Text.spaces s.indent ++ k.eval ++ " ".toText ++ line.raw.drop s.indent, false)
  else (text, true)

/-- What a line becomes, and whether its messages surface. -/
def convertLine (k : Keywords) (context : Block.Context) (line : Line) :
    Block.Action (Text × Bool) := do
  let text := line.remapped.text
  let directive := Directive.read k (Text.strip text)
  if directive.kind.structural then
    Block.Action.apply context directive (Text.indentation text)
    pure (text, true)
  else
    let s ← get
    pure (adapt k s (directive.kind = .eval) line)

/-- What a conversion leaves behind: the messages that surfaced, also when it
failed, and the lines of the result. -/
structure Outcome where
  diagnostics : List Diagnostic
  result : Except Block.Error (List Text)

/-- The messages of a line as diagnostics. -/
def surface (file : Text) (number : Nat) (messages : List Text) : List Diagnostic :=
  messages.map fun message => ⟨file, number, message⟩

/-- The conversion of the lines that are left, when so many have been read. -/
def convertFrom (k : Keywords) (context : Block.Context) (read : Nat) (s : Block.Stack) :
    List Line → Outcome
  | [] =>
    match Block.Action.finish context s with
    | .ok _ _ => ⟨[], .ok []⟩
    | .error e _ => ⟨[], .error e⟩
  | line :: rest =>
    match convertLine k context line { s with line := read + 1 } with
    | .error e _ => ⟨[], .error e⟩
    | .ok (text, surfaces) s' =>
      let more := convertFrom k context (read + 1) s' rest
      ⟨(if surfaces then surface context.file (read + 1) line.remapped.messages else []) ++
          more.diagnostics,
        more.result.map (text :: ·)⟩

/-- The conversion of all lines of a file. -/
def convert (k : Keywords) (context : Block.Context) (lines : List Line) : Outcome :=
  convertFrom k context 0 .start lines

/-- The lines paired with what a remap gave back, as far as both go. -/
def pair (lines : List Text) (remapped : List Remapped) : List Line :=
  lines.zipWith Line.mk remapped

/-- Every line as it is, without messages. -/
def unchanged (lines : List Text) : List Remapped := lines.map fun line => ⟨line, []⟩

end Source

end Multiversion
