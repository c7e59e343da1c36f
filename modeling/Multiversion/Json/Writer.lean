import Multiversion.Json.Basic

/-! Writing JSON.

The text is ASCII: other characters are escaped by their UTF-16 units. Two layouts
are written, one on a single line and one with an item or member a line, indented
by two spaces for each level. -/
namespace Multiversion.Json

/-- A UTF-16 unit as an escape. -/
def escapeUnit (n : Nat) : Text := "\\u".toText ++ Text.hex 4 n

/-- A character of a string as it is written. -/
def writeChar (c : CodePoint) : Text :=
  let n := c.toNat
  if c = '"' then "\\\"".toText
  else if c = '\\' then "\\\\".toText
  else if c = '\n' then "\\n".toText
  else if c = '\r' then "\\r".toText
  else if c = '\t' then "\\t".toText
  else if c = '\x0c' then "\\f".toText
  else if c = '\x08' then "\\b".toText
  else if 0x20 ≤ n ∧ n < 0x7F then [c]
  else if n < 0x10000 then escapeUnit n
  else
    escapeUnit (0xD800 + (n - 0x10000) / 0x400) ++ escapeUnit (0xDC00 + (n - 0x10000) % 0x400)

/-- A string as it is written. -/
def writeString (s : Text) : Text := "\"".toText ++ s.flatMap writeChar ++ "\"".toText

/-- A value that holds no other values. -/
def writeAtom : Json → Text
  | bool value => if value then "true".toText else "false".toText
  | integer value => Literal.ofInt value
  | float value => value.text "NaN".toText "Infinity".toText
  | string text => writeString text
  | _ => "null".toText

mutual

/-- A value on one line. -/
def compact : Json → Text
  | array items => "[".toText ++ Text.join [','] (compactItems items) ++ "]".toText
  | object members => "\x7b".toText ++ Text.join [','] (compactMembers members) ++ "\x7d".toText
  | value => writeAtom value

/-- Items on one line. -/
def compactItems : List Json → List Text
  | [] => []
  | item :: rest => compact item :: compactItems rest

/-- Members on one line. -/
def compactMembers : List (Text × Json) → List Text
  | [] => []
  | (key, value) :: rest => (writeString key ++ ":".toText ++ compact value) :: compactMembers rest

end

/-- Pieces a line each, one level deeper than the brackets around them. -/
def block (level : Nat) (opening closing : CodePoint) (pieces : List Text) : Text :=
  if pieces = [] then [opening, closing]
  else
    let line (depth : Nat) : Text := '\n' :: Text.spaces (2 * depth)
    opening :: line (level + 1) ++ Text.join (',' :: line (level + 1)) pieces ++ line level ++
      [closing]

mutual

/-- A value at a level, with an item or member a line. -/
def pretty (level : Nat) : Json → Text
  | array items => block level '[' ']' (prettyItems (level + 1) items)
  | object members => block level '\x7b' '\x7d' (prettyMembers (level + 1) members)
  | value => writeAtom value

/-- Items at a level. -/
def prettyItems (level : Nat) : List Json → List Text
  | [] => []
  | item :: rest => pretty level item :: prettyItems level rest

/-- Members at a level. -/
def prettyMembers (level : Nat) : List (Text × Json) → List Text
  | [] => []
  | (key, value) :: rest =>
    (writeString key ++ ": ".toText ++ pretty level value) :: prettyMembers level rest

end

end Multiversion.Json
