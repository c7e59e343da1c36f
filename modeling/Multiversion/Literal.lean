import Multiversion.Text.Basic

/-! Integer and version literals.

A literal is an integer, or a version of two or three components. A version reads
as the integer whose digits are the components one after the other, minor and
patch padded to two places, so that versions compare as numbers: `1.2` is 10200
and `1.2.3` is 10203. Underscores may group the digits of an integer. A literal
has at most 4300 digits. -/
namespace Multiversion

/-- A literal of more digits than may be read. -/
structure Overlong where
  digits : Nat
deriving DecidableEq, Repr

namespace Literal

/-- The most digits a literal may have, leading zeros included. -/
def digitLimit : Nat := 4300

/-- A nonempty sequence of ASCII digits. -/
def isDigits (s : Text) : Bool := !s.isEmpty && s.all CodePoint.isDigit

/-- The value of a digit. -/
def digitValue (c : CodePoint) : Nat := c.toNat - '0'.toNat

/-- The number that digits stand for, the highest first. -/
def value (digits : Text) : Nat := digits.foldl (fun n c => 10 * n + digitValue c) 0

/-- The sign a literal starts with, and what follows it. -/
def sign : Text → Bool × Text
  | [] => (false, [])
  | c :: rest =>
    if c = '-' then (true, rest) else if c = '+' then (false, rest) else (false, c :: rest)

/-- The integer a text stands for: an optional sign and digits, and nothing else. -/
def integer? (s : Text) : Except Overlong (Option Int) :=
  let (negative, digits) := sign s
  if isDigits digits then
    if digits.length ≤ digitLimit then
      .ok (some (if negative then -(value digits : Int) else value digits))
    else .error ⟨digits.length⟩
  else .ok none

/-- A character that literals are made of. -/
def isLiteralChar (c : CodePoint) : Bool := c.isDigit || c == '.' || c == '_' || c == '+' || c == '-'

/-- The digits, padded with zeros in front to two places. -/
def twoPlaces (digits : Text) : Text := (List.replicate (2 - digits.length) '0' : Text) ++ digits

end Literal

/-- A version as it is written: the digits of its components, those of the patch
empty if it has none. -/
structure Version where
  major : Text
  minor : Text
  patch : Text
deriving DecidableEq, Repr

namespace Version

/-- The version a text stands for. -/
def ofText? (s : Text) : Option Version :=
  match Text.splitOn '.' s with
  | [major, minor] =>
    if Literal.isDigits major && Literal.isDigits minor then some ⟨major, minor, []⟩ else none
  | [major, minor, patch] =>
    if Literal.isDigits major && Literal.isDigits minor && Literal.isDigits patch then
      some ⟨major, minor, patch⟩
    else none
  | _ => none

/-- The digits of the integer that a version reads as. -/
def digits (v : Version) : Text :=
  v.major ++ Literal.twoPlaces v.minor ++ Literal.twoPlaces v.patch

end Version

namespace Literal

/-- A literal as digits: versions become their integer, and underscores vanish
from anything else that is made of literal characters and does not start with
one. Other texts stay as they are. -/
def normalize (s : Text) : Text :=
  if !s.isEmpty && s.all isLiteralChar then
    match Version.ofText? s with
    | some version => version.digits
    | none => if s.head? = some '_' then s else s.filter (· != '_')
  else s

/-- The integer that a literal stands for, versions included. -/
def read (s : Text) : Except Overlong (Option Int) := integer? (normalize s)

/-- The decimal digits of a number. -/
def ofNat (n : Nat) : Text := (Nat.toDigits 10 n).map CodePoint.ofChar

/-- The literal of an integer. -/
def ofInt : Int → Text
  | .ofNat n => ofNat n
  | .negSucc n => '-' :: ofNat (n + 1)

end Literal

/-- What is told about a literal that is too long. -/
def Overlong.message (o : Overlong) : Text :=
  "Exceeds the limit (".toText ++ Literal.ofNat Literal.digitLimit ++
    " digits) for integer string conversion: value has ".toText ++ Literal.ofNat o.digits ++
    " digits; use sys.set_int_max_str_digits() to increase the limit".toText

end Multiversion
