import Multiversion.Text.Basic

/-! A file as lines.

A line break is a line feed, a carriage return, or the two in that order. A
document remembers whether its last line is ended by one; it is written with line
feeds. -/
namespace Multiversion

/-- The lines of a text, and whether a line break ends the last of them. -/
structure Document where
  lines : List Text
  ended : Bool
deriving DecidableEq, Repr

namespace Document

/-- A character that breaks lines. -/
def isBreak (c : CodePoint) : Bool := c == '\n' || c == '\r'

/-- The pieces between the line breaks. -/
def splitBreaks : Text → List Text
  | [] => [[]]
  | [c] => if isBreak c then [[], []] else [[c]]
  | c :: next :: rest =>
    if c = '\r' ∧ next = '\n' then [] :: splitBreaks rest
    else if isBreak c then [] :: splitBreaks (next :: rest)
    else Text.consFirst c (splitBreaks (next :: rest))

/-- The document of a text. An empty text has no line. -/
def ofText (s : Text) : Document :=
  if s = [] then ⟨[], false⟩
  else
    let pieces := splitBreaks s
    if 1 < pieces.length ∧ pieces.getLast? = some [] then ⟨pieces.dropLast, true⟩
    else ⟨pieces, false⟩

theorem splitBreaks_ne_nil (s : Text) : splitBreaks s ≠ [] := by
  fun_cases splitBreaks s <;> grind [Text.consFirst_ne_nil]

/-- The text of a document. -/
def toText (d : Document) : Text :=
  Text.join "\n".toText d.lines ++ if d.ended then "\n".toText else []

end Document

end Multiversion
