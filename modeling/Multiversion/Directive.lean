import Multiversion.Keywords

/-! Directives.

A line that starts with a token, leading white space aside, is a directive; any
other line is plain. The tokens are tried in a fixed order in which a token comes
before the tokens it starts with, so that `ifdef` is not read as `if`. -/
namespace Multiversion

/-- What a line is. -/
inductive LineKind where
  | ifHolds
  | ifDefined
  | elseIf
  | otherwise
  | endIf
  | disableRemap
  | enableRemap
  | eval
  | plain
deriving DecidableEq, Repr

namespace LineKind

/-- All kinds. -/
def all : List LineKind :=
  [ifHolds, ifDefined, elseIf, otherwise, endIf, disableRemap, enableRemap, eval, plain]

/-- The name of a kind. -/
def label : LineKind → Text
  | ifHolds => "if".toText
  | ifDefined => "ifdef".toText
  | elseIf => "elseif".toText
  | otherwise => "else".toText
  | endIf => "endif".toText
  | disableRemap => "disable-remap".toText
  | enableRemap => "enable-remap".toText
  | eval => "eval".toText
  | plain => "plain".toText

/-- Whether lines of a kind open, continue or close a block, or switch remapping. -/
def structural : LineKind → Bool
  | eval => false
  | plain => false
  | _ => true

end LineKind

/-- A line without the white space around it, taken apart: its kind, and what
follows the token, or the whole line if it is plain. -/
structure Directive where
  kind : LineKind
  argument : Text
deriving DecidableEq, Repr

namespace Keywords

/-- The tokens with the kinds of line they mark, in the order they are tried. -/
def markers (k : Keywords) : List (LineKind × Text) :=
  [(.ifDefined, k.ifDefined), (.ifHolds, k.ifHolds), (.elseIf, k.elseIf),
    (.otherwise, k.otherwise), (.endIf, k.endIf), (.disableRemap, k.disableRemap),
    (.enableRemap, k.enableRemap), (.eval, k.eval)]

end Keywords

namespace Directive

/-- The directive of the first marker that stands at the front of a line. -/
def readAmong (line : Text) : List (LineKind × Text) → Directive
  | [] => ⟨.plain, line⟩
  | (kind, token) :: more =>
    match Text.after? token line with
    | some argument => ⟨kind, argument⟩
    | none => readAmong line more

/-- The directive of a line without the white space around it. -/
def read (k : Keywords) (line : Text) : Directive := readAmong line k.markers

end Directive

end Multiversion
