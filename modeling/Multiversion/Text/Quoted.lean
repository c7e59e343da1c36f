import Multiversion.Text.Printable

/-! Quoted text, the form in which messages show a value.

A text stands between single quotes, unless it holds a single quote and no double
quote: then between double quotes. The active quote, the backslash and the
characters that are not printable are escaped, so the quoted form is one line of
printable characters. -/
namespace Multiversion.Text

/-- The digit of a hexadecimal place. -/
def hexDigit (n : Nat) : CodePoint :=
  "0123456789abcdef".toText.getD (n % 16) '0'

/-- So many hexadecimal places of a number, the highest first. -/
def hex : Nat → Nat → Text
  | 0, _ => []
  | places + 1, n => hex places (n / 16) ++ [hexDigit n]

/-- A character that is not printable, by its number. -/
def escapeNumber (c : CodePoint) : Text :=
  let n := c.toNat
  if n < 0x100 then "\\x".toText ++ hex 2 n
  else if n < 0x10000 then "\\u".toText ++ hex 4 n
  else "\\U".toText ++ hex 8 n

/-- A character as it stands between the given quotes. -/
def escapeChar (quote c : CodePoint) : Text :=
  if c = quote ∨ c = '\\' then ['\\', c]
  else if c = '\n' then "\\n".toText
  else if c = '\r' then "\\r".toText
  else if c = '\t' then "\\t".toText
  else if isPrintable c then [c]
  else escapeNumber c

/-- The quote that a text stands between. -/
def quoteMark (s : Text) : CodePoint :=
  if s.contains '\'' && !s.contains '"' then '"' else '\''

/-- The text between its quotes. -/
def quoted (s : Text) : Text :=
  let quote := quoteMark s
  quote :: s.flatMap (escapeChar quote) ++ [quote]

end Multiversion.Text
