import Multiversion.Text.Digit

/-! Streams of a terminal.

A stream prints text as it comes, with or without colours, or it is stripped: then
only text comes through, and the sequences that control a terminal are taken out,
whether the program wrote them or they were echoed. A style is an escape, a bracket,
parameters and a letter. A command is an escape, a closing bracket, an argument and
a bell. A stripped stream has no title, so a command that sets it cannot be printed.
`write_eq_ok_of_not_stripped` says that no other stream refuses anything. -/
namespace Multiversion.Terminal

/-- The character that sequences start with. -/
def escape : CodePoint := '\x1b'

/-- The character that ends a command. -/
def bell : CodePoint := '\x07'

/-- The character that may stand in front of a sequence and belongs to it. -/
def startMark : CodePoint := '\x01'

/-- The character that may stand behind a sequence and belongs to it. -/
def endMark : CodePoint := '\x02'

/-- What follows the opening of a sequence at the front of a text, with the length
of the opening. -/
def behindOpening? (bracket : CodePoint) (s : Text) : Option (Nat × Text) :=
  match Text.after? [escape, bracket] s with
  | some behind => some (2, behind)
  | none => (Text.after? [startMark, escape, bracket] s).map fun behind => (3, behind)

/-- How long the end mark at the front of a text is. -/
def endMarkLength (s : Text) : Nat := if s.head? = some endMark then 1 else 0

/-! ### Styles -/

/-- The sequence with the given parameters that sets a style. -/
def style (parameters : Text) : Text := [escape, '['] ++ parameters ++ "m".toText

/-- Magenta letters. -/
def magenta : Text := style "35".toText

/-- Red letters. -/
def red : Text := style "31".toText

/-- Green letters. -/
def green : Text := style "32".toText

/-- Cyan letters. -/
def cyan : Text := style "36".toText

/-- The style of before. -/
def reset : Text := style "0".toText

/-- A character of the parameters of a style. -/
def isParameter (c : CodePoint) : Bool := c == ';' || Text.isAnyDigit c

/-- The length of a style at the front of a text, and zero if there is none. -/
def styleLength (s : Text) : Nat :=
  match behindOpening? '[' s with
  | none => 0
  | some (opening, behind) =>
    match behind.dropWhile isParameter with
    | [] => 0
    | c :: rest =>
      if c.isLetter then
        opening + (behind.takeWhile isParameter).length + 1 + endMarkLength rest
      else 0

/-- The text without styles, less so many characters of a style that has been read
in part. -/
def withoutStylesFrom (skip : Nat) : Text → Text
  | [] => []
  | c :: rest =>
    match skip with
    | skip + 1 => withoutStylesFrom skip rest
    | 0 =>
      match styleLength (c :: rest) with
      | 0 => c :: withoutStylesFrom 0 rest
      | more + 1 => withoutStylesFrom more rest

/-- The text without styles. -/
def withoutStyles (s : Text) : Text := withoutStylesFrom 0 s

/-! ### Commands -/

/-- A command in a text: where it starts, how long it is, and its argument. -/
structure Command where
  start : Nat
  length : Nat
  argument : Text
deriving DecidableEq, Repr

/-- The argument of a command at the front of a text, with the length of the whole
command. -/
def command? (s : Text) : Option (Nat × Text) :=
  match behindOpening? ']' s with
  | none => none
  | some (opening, behind) =>
    let argument := behind.takeWhile (· != bell)
    match behind.dropWhile (· != bell) with
    | [] => none
    | _ :: rest => some (opening + argument.length + 1 + endMarkLength rest, argument)

/-- The commands in a text that starts at a position, less so many characters of a
command that has been read in part. -/
def commandsFrom (position skip : Nat) : Text → List Command
  | [] => []
  | c :: rest =>
    match skip with
    | skip + 1 => commandsFrom (position + 1) skip rest
    | 0 =>
      match command? (c :: rest) with
      | none => commandsFrom (position + 1) 0 rest
      | some (length, argument) =>
        ⟨position, length, argument⟩ :: commandsFrom (position + 1) (length - 1) rest

/-- The command sets the title: its argument is a number that names the title, a
semicolon, and a text without one. -/
def Command.setsTitle (c : Command) : Bool :=
  match Text.splitOn ';' c.argument with
  | [number, _] => [[], "0".toText, "2".toText, "02".toText].contains number
  | _ => false

/-- Why a text cannot be printed. -/
inductive Fault where
  /-- It sets the title of a stream that has none. -/
  | noTitle
deriving DecidableEq, Repr

/-- The wording of a fault. -/
def Fault.message : Fault → Text
  | noTitle => "'NoneType' object has no attribute 'set_title'".toText

/-- The text less as many characters as a command has, at the place where the
command was in the whole text. -/
def cutOut (s : Text) (c : Command) : Except Fault Text :=
  if c.setsTitle then .error .noTitle else .ok (s.take c.start ++ s.drop (c.start + c.length))

/-- The text that comes through a stripped stream. The commands are cut out one
after the other, then the styles. -/
def strip (s : Text) : Except Fault Text :=
  ((commandsFrom 0 0 s).foldlM cutOut s).map withoutStyles

/-! ### Streams -/

/-- What a stream does with sequences. -/
inductive Mode where
  /-- They are printed, and the program writes none. -/
  | plain
  /-- They are printed, and the program writes colours. -/
  | coloured
  /-- They are taken out. -/
  | stripped
deriving DecidableEq, Repr

/-- A stream with what has been printed on it. -/
structure Stream where
  mode : Mode
  printed : Text
deriving DecidableEq, Repr

namespace Stream

/-- A stream on which nothing has been printed. -/
def fresh (mode : Mode) : Stream := ⟨mode, []⟩

/-- The stream after a text is printed at once. -/
def write (text : Text) (s : Stream) : Except Fault Stream :=
  match s.mode with
  | .stripped => (strip text).map fun through => { s with printed := s.printed ++ through }
  | _ => .ok { s with printed := s.printed ++ text }

/-- The stream after a line is printed. -/
def writeLine (line : Text) (s : Stream) : Except Fault Stream :=
  (s.write line).bind (write "\n".toText)

theorem write_eq_ok_of_not_stripped (text : Text) {s : Stream} (h : s.mode ≠ .stripped) :
    s.write text = .ok { s with printed := s.printed ++ text } := by
  cases hm : s.mode <;> simp_all [write]

end Stream

end Multiversion.Terminal
