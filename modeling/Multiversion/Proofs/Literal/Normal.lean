import Multiversion.Literal
import Multiversion.Proofs.Text.Path
import Multiversion.Proofs.Text.Strip

/-! What reading makes of a literal, and how often.

What `integer?` takes for a number is made of digits and signs, so nothing in it is left to
normalize (`normalize_of_integer?`): a literal that reads as an integer reads as the same one
after any number of normalizations. A text with another character than those of literals is
no literal, and nothing normalizes it. -/
namespace Multiversion.Literal

/-- A character of an integer that is written without grouping. -/
def isNumberChar (c : CodePoint) : Bool := c.isDigit || c == '+' || c == '-'

theorem isLiteralChar_of_isNumberChar {c : CodePoint} (h : isNumberChar c = true) :
    isLiteralChar c = true := by
  simp only [isNumberChar, isLiteralChar, Bool.or_eq_true] at h ⊢
  tauto

theorem isDigits_iff {s : Text} :
    isDigits s = true ↔ s ≠ [] ∧ s.all CodePoint.isDigit = true := by
  simp [isDigits]

theorem number_of_isDigits {s : Text} (h : isDigits s = true) : s.all isNumberChar = true := by
  refine List.all_eq_true.2 fun c hc => ?_
  simp [isNumberChar, List.all_eq_true.1 (isDigits_iff.1 h).2 c hc]

theorem isDigits_replicate {n : Nat} {c : CodePoint} (hn : n ≠ 0) (hc : c.isDigit = true) :
    isDigits (List.replicate n c) = true := by
  refine isDigits_iff.2 ⟨fun h => hn ((List.replicate_eq_nil_iff c).1 h), ?_⟩
  exact List.all_eq_true.2 fun d hd => by rwa [List.eq_of_mem_replicate hd]

/-- A sign with digits behind it is made of digits and signs. -/
theorem number_of_isDigits_sign {s : Text} (h : isDigits (sign s).2 = true) :
    s ≠ [] ∧ s.all isNumberChar = true := by
  cases s with
  | nil => simp [sign, isDigits] at h
  | cons c rest =>
    refine ⟨List.cons_ne_nil c rest, ?_⟩
    by_cases hminus : c = '-'
    · rw [sign, if_pos hminus] at h
      rw [List.all_cons, number_of_isDigits h, hminus]
      decide
    · by_cases hplus : c = '+'
      · rw [sign, if_neg hminus, if_pos hplus] at h
        rw [List.all_cons, number_of_isDigits h, hplus]
        decide
      · rw [sign, if_neg hminus, if_neg hplus] at h
        exact number_of_isDigits h

theorem number_of_integer? {s : Text} {n : Int} (h : integer? s = .ok (some n)) :
    s ≠ [] ∧ s.all isNumberChar = true := by
  refine number_of_isDigits_sign ?_
  by_contra hdigits
  simp [integer?, hdigits] at h

/-- A text that is no version and has no underscores stays as it is. -/
theorem normalize_of_plain {s : Text} (hversion : Version.ofText? s = none)
    (h : CodePoint.ofChar '_' ∉ s) : normalize s = s := by
  have hplain : s.filter (· != CodePoint.ofChar '_') = s := by
    refine List.filter_eq_self.2 fun c hc => ?_
    rw [bne_iff_ne]
    rintro rfl
    exact h hc
  simp only [normalize, hversion, hplain, ite_self]

/-- Nothing is left to normalize in digits and signs. -/
theorem normalize_of_number {s : Text} (h : s.all isNumberChar = true) : normalize s = s := by
  have apart {c : CodePoint} (hc : isNumberChar c = false) : c ∉ s := by
    intro hmem
    rw [List.all_eq_true.1 h c hmem] at hc
    contradiction
  refine normalize_of_plain ?_ (apart (by decide))
  rw [Version.ofText?, Text.splitOn_of_notMem (apart (by decide))]

theorem normalize_of_integer? {s : Text} {n : Int} (h : integer? s = .ok (some n)) :
    normalize s = s :=
  normalize_of_number (number_of_integer? h).2

/-- A literal that reads as an integer still does once it is normalized. -/
theorem read_normalize {s : Text} {n : Int} (h : read s = .ok (some n)) :
    read (normalize s) = .ok (some n) := by
  rw [read, normalize_of_integer? h]
  exact h

/-! ### The limit -/

/-- What the text reads as, if it is a literal, has no more digits than may be read. -/
def WithinLimit (s : Text) : Prop :=
  isDigits (sign (normalize s)).2 = true → (sign (normalize s)).2.length ≤ digitLimit

theorem read_ne_error {s : Text} (h : WithinLimit s) (o : Overlong) : read s ≠ .error o := by
  rw [read, integer?]
  by_cases hdigits : isDigits (sign (normalize s)).2 = true
  · simp [hdigits, h hdigits]
  · simp [hdigits]

theorem digitLimit_lt_of_read {s : Text} {o : Overlong} (h : read s = .error o) :
    digitLimit < o.digits := by
  simp only [read, integer?] at h
  split at h
  · split at h
    · cases h
    · next hlimit =>
      cases h
      exact Nat.lt_of_not_le hlimit
  · cases h

/-! ### What is no literal -/

theorem normalize_of_foreign {s : Text} (h : s.all isLiteralChar = false) : normalize s = s := by
  simp [normalize, h]

theorem read_of_foreign {s : Text} (h : s.all isLiteralChar = false) : read s = .ok none := by
  have hdigits : isDigits (sign s).2 = false := by
    by_contra hdigits
    have hall := (number_of_isDigits_sign (Bool.of_not_eq_false hdigits)).2
    rw [List.all_eq_true.2 fun c hc =>
      isLiteralChar_of_isNumberChar (List.all_eq_true.1 hall c hc)] at h
    contradiction
  simp [read, normalize_of_foreign h, integer?, hdigits]

/-- Whatever reads as a literal is made of the characters of literals. -/
theorem literalChars_of_read {s : Text} {n : Int} (h : read s = .ok (some n)) :
    s ≠ [] ∧ s.all isLiteralChar = true := by
  refine ⟨?_, ?_⟩
  · rintro rfl
    cases h
  · by_contra hforeign
    rw [read_of_foreign (Bool.of_not_eq_true hforeign)] at h
    cases h

theorem isBlankChar_of_isLiteralChar {c : CodePoint} (h : isLiteralChar c = true) :
    Text.isBlankChar c = false := by
  simp only [isLiteralChar, Bool.or_eq_true, beq_iff_eq] at h
  obtain (((hdigit | rfl) | rfl) | rfl) | rfl := h
  · simp only [CodePoint.isDigit, Bool.and_eq_true, decide_eq_true_eq] at hdigit
    simp only [Text.isBlankChar, Bool.or_eq_false_iff, Bool.and_eq_false_iff, decide_eq_false_iff_not,
      beq_eq_false_iff_ne]
    omega
  all_goals decide

theorem visible_of_literalChars {s : Text} (hne : s ≠ []) (hchars : s.all isLiteralChar = true) :
    Text.startsVisible s = true ∧ Text.endsVisible s = true := by
  have visible {c : CodePoint} (hc : c ∈ s) : (!Text.isBlankChar c) = true := by
    rw [isBlankChar_of_isLiteralChar (List.all_eq_true.1 hchars c hc)]
    rfl
  refine ⟨?_, ?_⟩
  · rw [Text.startsVisible, List.head?_eq_some_head hne]
    exact visible (List.head_mem hne)
  · rw [Text.endsVisible, List.getLast?_eq_some_getLast hne]
    exact visible (List.getLast_mem hne)

/-- There is no white space around a literal. -/
theorem strip_of_read {s : Text} {n : Int} (h : read s = .ok (some n)) : Text.strip s = s := by
  obtain ⟨hne, hchars⟩ := literalChars_of_read h
  obtain ⟨hstarts, hends⟩ := visible_of_literalChars hne hchars
  exact Text.strip_of_visible hstarts hends

/-- Nor is there any around digits, however many they are. -/
theorem visible_of_isDigits {s : Text} (h : isDigits s = true) :
    Text.startsVisible s = true ∧ Text.endsVisible s = true := by
  refine visible_of_literalChars (isDigits_iff.1 h).1 (List.all_eq_true.2 fun c hc => ?_)
  exact isLiteralChar_of_isNumberChar (List.all_eq_true.1 (number_of_isDigits h) c hc)

end Multiversion.Literal
