import Multiversion.Literal

/-! Binary floating-point numbers of 64 bits, as exact values.

A finite number is a significand times a power of two. `ofDecimal` rounds a decimal
number to the nearest of them, ties to the even significand, and numbers that are
too large to infinity. Powers are `Nat.pow`, which means the same whichever instances
of `^` are in scope. -/
namespace Multiversion

/-- A floating-point number. -/
inductive Binary64 where
  | notANumber
  | infinity (negative : Bool)
  /-- The significand times two to the exponent. -/
  | finite (negative : Bool) (significand : Nat) (exponent : Int)
deriving DecidableEq, Repr

namespace Binary64

/-- The places of a significand. -/
def places : Nat := 53

/-- The exponent of the smallest numbers. -/
def minExponent : Int := -1074

/-- The exponent of the largest numbers. -/
def maxExponent : Int := 971

/-- Equal to zero. -/
def isZero : Binary64 → Bool
  | finite _ significand _ => significand = 0
  | _ => false

/-- A quotient rounded to the nearest integer, a tie to the even one. -/
def roundDiv (n d : Nat) : Nat :=
  let q := n / d
  let r := n % d
  if 2 * r < d then q
  else if d < 2 * r then q + 1
  else if q % 2 = 0 then q else q + 1

/-- A fraction times a power of two, as a fraction. -/
def scale (n d : Nat) (exponent : Int) : Nat × Nat :=
  if 0 ≤ exponent then (n * Nat.pow 2 exponent.toNat, d)
  else (n, d * Nat.pow 2 (-exponent).toNat)

/-- The exponent of the greatest power of two that a positive fraction reaches. -/
def floorLog2 (n d : Nat) : Int :=
  let guess : Int := (Nat.log2 n : Int) - Nat.log2 d
  let (a, b) := scale n d (-guess)
  if b ≤ a then guess else guess - 1

/-- The number nearest to a fraction. -/
def ofFraction (negative : Bool) (n d : Nat) : Binary64 :=
  if n = 0 then finite negative 0 minExponent
  else
    let exponent := max (floorLog2 n d - (places - 1 : Nat)) minExponent
    let (a, b) := scale n d (-exponent)
    let significand := roundDiv a b
    let (significand, exponent) :=
      if significand = Nat.pow 2 places then (Nat.pow 2 (places - 1), exponent + 1)
      else (significand, exponent)
    if maxExponent < exponent then infinity negative else finite negative significand exponent

/-- The number nearest to digits times a power of ten. Powers far out of range are
not computed. -/
def ofDecimal (negative : Bool) (digits : Text) (exponent : Int) : Binary64 :=
  let digits := digits.dropWhile fun (c : CodePoint) => c == '0'
  if digits = [] then finite negative 0 minExponent
  else
    let magnitude := exponent + digits.length
    if 310 < magnitude then infinity negative
    else if magnitude < -330 then finite negative 0 minExponent
    else if 0 ≤ exponent then
      ofFraction negative (Literal.value digits * Nat.pow 10 exponent.toNat) 1
    else ofFraction negative (Literal.value digits) (Nat.pow 10 (-exponent).toNat)

end Binary64

end Multiversion
