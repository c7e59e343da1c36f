/-! Code points.

A code point is a number below 0x110000. Every character has one. The numbers that
are left are the halves of surrogate pairs: no character has them, but an escape can
spell one alone, and text has to keep it. `toChar?_ofChar`,
`ofChar_of_toChar?` and `toChar?_eq_none_iff` say that the characters are all code
points but the halves. -/
namespace Multiversion

/-- A Unicode code point. -/
structure CodePoint where
  toNat : Nat
  toNat_lt : toNat < 0x110000
deriving DecidableEq, Repr

namespace CodePoint

/-- The code point of a character. -/
def ofChar (c : Char) : CodePoint where
  toNat := c.toNat
  toNat_lt := by
    have valid : c.toNat < 0xD800 ∨ 0xDFFF < c.toNat ∧ c.toNat < 0x110000 := c.valid
    omega

instance : Coe Char CodePoint := ⟨ofChar⟩

/-- The code point of a number. Numbers that are too large count as zero. -/
def ofNat (n : Nat) : CodePoint :=
  if below : n < 0x110000 then ⟨n, below⟩ else ⟨0, by decide⟩

/-! ### Halves of surrogate pairs -/

/-- The first half of a surrogate pair. -/
def isHighHalf (c : CodePoint) : Bool := 0xD800 ≤ c.toNat && c.toNat < 0xDC00

/-- The second half of a surrogate pair. -/
def isLowHalf (c : CodePoint) : Bool := 0xDC00 ≤ c.toNat && c.toNat < 0xE000

/-- Half of a surrogate pair. -/
def isHalf (c : CodePoint) : Bool := c.isHighHalf || c.isLowHalf

/-- The character that has a code point. -/
def toChar? (c : CodePoint) : Option Char :=
  if c.isHalf then none else some (Char.ofNat c.toNat)

/-! ### Order and classes -/

instance : LT CodePoint := ⟨fun a b => a.toNat < b.toNat⟩

instance : DecidableLT CodePoint := fun a b => inferInstanceAs (Decidable (a.toNat < b.toNat))

/-- A digit of ASCII. -/
def isDigit (c : CodePoint) : Bool := 48 ≤ c.toNat && c.toNat ≤ 57

/-- An upper-case letter of ASCII. -/
def isUpper (c : CodePoint) : Bool := 65 ≤ c.toNat && c.toNat ≤ 90

/-- A lower-case letter of ASCII. -/
def isLower (c : CodePoint) : Bool := 97 ≤ c.toNat && c.toNat ≤ 122

/-- A letter of ASCII. -/
def isLetter (c : CodePoint) : Bool := c.isUpper || c.isLower

/-- A letter of ASCII in lower case, and anything else as it is. -/
def toLower (c : CodePoint) : CodePoint := if c.isUpper then ofNat (c.toNat + 32) else c

/-- A letter of ASCII in upper case, and anything else as it is. -/
def toUpper (c : CodePoint) : CodePoint := if c.isLower then ofNat (c.toNat - 32) else c

/-! ### Lemmas -/

theorem isHalf_iff (c : CodePoint) : c.isHalf = true ↔ 0xD800 ≤ c.toNat ∧ c.toNat < 0xE000 := by
  simp only [isHalf, isHighHalf, isLowHalf, Bool.or_eq_true, Bool.and_eq_true, decide_eq_true_eq]
  omega

/-- No character is half of a surrogate pair. -/
@[simp] theorem isHalf_ofChar (c : Char) : (ofChar c).isHalf = false := by
  have valid : c.toNat < 0xD800 ∨ 0xDFFF < c.toNat ∧ c.toNat < 0x110000 := c.valid
  rw [Bool.eq_false_iff, Ne, isHalf_iff]
  simp only [ofChar]
  omega

@[simp] theorem toChar?_ofChar (c : Char) : (ofChar c).toChar? = some c := by
  simp only [toChar?, isHalf_ofChar, Bool.false_eq_true, if_false, Option.some.injEq]
  exact Char.ofNat_toNat c

/-- Only the halves of surrogate pairs have no character. -/
theorem toChar?_eq_none_iff (c : CodePoint) : c.toChar? = none ↔ c.isHalf = true := by
  simp [toChar?]

/-- A code point with a character is the code point of that character. -/
theorem ofChar_of_toChar? {c : CodePoint} {char : Char} (h : c.toChar? = some char) :
    ofChar char = c := by
  have below := c.toNat_lt
  simp only [toChar?, Option.ite_none_left_eq_some, Option.some.injEq] at h
  obtain ⟨whole, rfl⟩ := h
  rw [isHalf_iff] at whole
  have valid : c.toNat.isValidChar := by
    simp only [Nat.isValidChar]
    omega
  have same : (Char.ofNat c.toNat).toNat = c.toNat := by
    unfold Char.ofNat
    rw [dif_pos valid]
    rfl
  cases c
  simp only [ofChar, CodePoint.mk.injEq]
  exact same

theorem ofChar_inj {a b : Char} (h : ofChar a = ofChar b) : a = b := by
  simpa using congrArg toChar? h

end CodePoint

/-- A sequence of code points. -/
abbrev Text := List CodePoint

end Multiversion

/-- The code points of a string. -/
def String.toText (s : String) : Multiversion.Text := s.toList.map Multiversion.CodePoint.ofChar
