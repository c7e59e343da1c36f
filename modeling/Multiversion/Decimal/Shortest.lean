import Multiversion.Decimal.Binary64

/-! The shortest decimal text of a floating-point number.

Among the decimal numbers that round to a floating-point number, the text has the
fewest digits, and among those it is the nearest; a tie goes to the even digit. On
the grid of so many digits only the two neighbours of the number can be that. -/
namespace Multiversion.Decimal

open Binary64 (scale)

/-- The exponent of the least power of ten above a positive fraction. -/
def magnitude (n d : Nat) : Int :=
  let guess := Binary64.floorLog2 n d * 30103 / 100000
  let below (e : Int) : Bool :=
    if 0 ≤ e then n < d * Nat.pow 10 e.toNat else n * Nat.pow 10 (-e).toNat < d
  ([guess - 1, guess, guess + 1].find? below).getD (guess + 2)

/-- The decimal numbers that round to a number: the bounds, in quarters of the
last place, and whether they belong to it. -/
structure Interval where
  low : Nat
  high : Nat
  closed : Bool

/-- The interval of a significand, given its exponent. Below a power of two the
numbers lie twice as close. -/
def interval (significand : Nat) (exponent : Int) : Interval where
  low :=
    if significand = Nat.pow 2 (Binary64.places - 1) ∧ exponent ≠ Binary64.minExponent then
      4 * significand - 1
    else 4 * significand - 2
  high := 4 * significand + 2
  closed := significand % 2 = 0

/-- Whether an integer times a unit lies in an interval. The unit is the fraction
`n / d` of the quarter of a last place. -/
def Interval.holds (i : Interval) (n d k : Nat) : Bool :=
  if i.closed then i.low * d ≤ k * n && k * n ≤ i.high * d
  else i.low * d < k * n && k * n < i.high * d

/-- The digit that a grid has nearest to a number, if it lies in the interval: the
value is in quarters of the last place, the unit a fraction of such a quarter. -/
def onGrid? (i : Interval) (value n d : Nat) : Option Nat :=
  let k := value * d / n
  match i.holds n d k && k != 0, i.holds n d (k + 1) with
  | true, true =>
    let below := value * d - k * n
    let above := (k + 1) * n - value * d
    if below < above then some k
    else if above < below then some (k + 1)
    else if k % 2 = 0 then some k else some (k + 1)
  | true, false => some k
  | false, true => some (k + 1)
  | false, false => none

/-- The shortest digits, starting with grids of so many digits, and the exponent
of the power of ten that the number stands under when a point is put in front of
them. -/
def search (i : Interval) (value : Nat) (exponent top : Int) : Nat → Nat → Nat × Int
  | 0, _ => (0, 0)
  | tries + 1, digits =>
    let place := top - digits
    let (n, d) := if 0 ≤ place then (Nat.pow 10 place.toNat, 1)
      else (1, Nat.pow 10 (-place).toNat)
    let (n, d) := scale n d (2 - exponent)
    match onGrid? i value n d with
    | some k => (k, place)
    | none => search i value exponent top tries (digits + 1)

/-- The digits and the exponent of the last one, of a number that is not zero. -/
def shortest (significand : Nat) (exponent : Int) : Nat × Int :=
  let (n, d) := scale significand 1 exponent
  search (interval significand exponent) (4 * significand) exponent (magnitude n d) 17 1

/-- The zeros at the end of digits, the number of which is at most the given one,
moved to the exponent. -/
def dropZeros : Nat → Nat × Int → Nat × Int
  | 0, x => x
  | more + 1, (digits, exponent) =>
    if digits % 10 = 0 then dropZeros more (digits / 10, exponent + 1) else (digits, exponent)

/-- So many zeros. -/
def zeros (n : Nat) : Text := List.replicate n '0'

/-- An exponent with its sign and at least two digits. -/
def exponentText (e : Int) : Text :=
  let sign := if e < 0 then '-' else '+'
  sign :: Literal.twoPlaces (Literal.ofNat e.natAbs)

/-- The text of digits whose last one stands at a power of ten: positional from
10^-4 to below 10^16, with a point and at least one digit behind it, and otherwise
with one digit in front of the point and an exponent. -/
def layout (digits : Nat) (exponent : Int) : Text :=
  let text := Literal.ofNat digits
  let point := exponent + text.length
  if -4 < point ∧ point ≤ 16 then
    if point ≤ 0 then "0.".toText ++ zeros (-point).toNat ++ text
    else if 0 ≤ exponent then text ++ zeros exponent.toNat ++ ".0".toText
    else text.take point.toNat ++ ".".toText ++ text.drop point.toNat
  else
    let fraction := text.drop 1
    text.take 1 ++ (if fraction = [] then [] else ".".toText ++ fraction) ++
      "e".toText ++ exponentText (point - 1)

end Multiversion.Decimal

namespace Multiversion

/-- The text of a floating-point number, with words for infinity and for what is
no number. -/
def Binary64.text (notANumber infinity : Text) : Binary64 → Text
  | .notANumber => notANumber
  | .infinity negative => if negative then '-' :: infinity else infinity
  | .finite negative significand exponent =>
    let digits :=
      if significand = 0 then "0.0".toText
      else
        let (digits, place) := Decimal.dropZeros 17 (Decimal.shortest significand exponent)
        Decimal.layout digits place
    if negative then '-' :: digits else digits

end Multiversion
