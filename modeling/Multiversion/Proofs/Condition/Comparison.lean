import Multiversion.Condition
import Multiversion.Proofs.Literal.Normal
import Multiversion.Proofs.Text.Doubled

/-! How a comparison is read.

A text is split at the last operator that has something behind it, and at one place the
longer operator wins. So a text between two sides that hold no character of an operator is
split where it was put together (`split?_append`), and a condition of that form comes to
the comparison of what its sides come to, or fails for the first of them without a value
(`evaluate_of_sides`). -/
namespace Multiversion

namespace Comparison

/-- A character that operators are made of. -/
def isMark (c : CodePoint) : Bool := "=<>!".toText.contains c

/-- A text that can be one side of a comparison: it is there, on one line, and holds
nothing that the other characters of a condition are made of. -/
structure Side (s : Text) : Prop where
  nonempty : s ≠ []
  unmarked : ∀ c ∈ s, isMark c = false
  line : CodePoint.ofChar '\n' ∉ s
  bars : ¬ "||".toText <:+: s
  ampersands : ¬ "&&".toText <:+: s

namespace Side
variable {s : Text}

/-- A side may have a space in front of it. -/
theorem space_append (h : Side s) : Side (" ".toText ++ s) where
  nonempty := by simp [h.nonempty]
  unmarked := by
    intro c hc
    rcases List.mem_append.1 hc with hc | hc
    · obtain rfl := List.mem_singleton.1 hc
      decide
    · exact h.unmarked c hc
  line := by
    rw [List.mem_append, not_or]
    exact ⟨by decide, h.line⟩
  bars := Text.not_infix_append_cons (a := []) (by decide) (by decide) h.bars
  ampersands := Text.not_infix_append_cons (a := []) (by decide) (by decide) h.ampersands

/-- A side may have a space behind it. -/
theorem append_space (h : Side s) : Side (s ++ " ".toText) where
  nonempty := by simp [h.nonempty]
  unmarked := by
    intro c hc
    rcases List.mem_append.1 hc with hc | hc
    · exact h.unmarked c hc
    · obtain rfl := List.mem_singleton.1 hc
      decide
  line := by
    rw [List.mem_append, not_or]
    exact ⟨h.line, by decide⟩
  bars := Text.not_infix_append_cons h.bars (by decide) (by decide)
  ampersands := Text.not_infix_append_cons h.ampersands (by decide) (by decide)

/-- Whatever is made of the characters of literals is a side. -/
theorem of_literalChars (hne : s ≠ []) (h : s.all Literal.isLiteralChar = true) : Side s := by
  have apart {c : CodePoint} (hc : Literal.isLiteralChar c = false) : c ∉ s := by
    intro hmem
    rw [List.all_eq_true.1 h c hmem] at hc
    contradiction
  refine ⟨hne, fun c hc => ?_, apart (by decide), fun hbars => ?_, fun hampersands => ?_⟩
  · by_contra hmark
    have hmarks : ∀ d ∈ "=<>!".toText, Literal.isLiteralChar d = false := by decide
    exact apart (hmarks c (List.contains_iff_mem.1 (Bool.of_not_eq_false hmark))) hc
  · have hbar : CodePoint.ofChar '|' ∈ s := hbars.subset (by decide)
    exact apart (by decide) hbar
  · have hampersand : CodePoint.ofChar '&' ∈ s := hampersands.subset (by decide)
    exact apart (by decide) hampersand

end Side

/-! ### The operator -/

theorem symbol_eq (operator : Comparison) :
    ∃ c more, operator.symbol = c :: more ∧ isMark c = true ∧ (more = [] ∨ more = ['=']) := by
  cases operator <;> exact ⟨_, _, rfl, by decide, by decide⟩

/-- An operator has a character that no side has. -/
theorem exists_mark_mem_symbol (operator : Comparison) :
    ∃ c ∈ operator.symbol, isMark c = true := by
  obtain ⟨c, more, h, hmark, -⟩ := symbol_eq operator
  exact ⟨c, by rw [h]; exact List.mem_cons_self, hmark⟩

theorem isMark_of_mem_symbol {operator : Comparison} {c : CodePoint} (h : c ∈ operator.symbol) :
    isMark c = true := by
  revert c
  cases operator <;> decide

theorem ne_of_unmarked {c mark : CodePoint} (hc : isMark c = false) (hmark : isMark mark = true) :
    mark ≠ c := by
  rintro rfl
  rw [hc] at hmark
  contradiction

/-- No operator is read where none starts. -/
theorem readAmong_of_unmarked {s : Text} (h : ∀ c ∈ s.head?, isMark c = false)
    (operators : List Comparison) : readAmong s operators = none := by
  induction operators with
  | nil => rfl
  | cons operator more ih =>
    obtain ⟨mark, rest, hsymbol, hmark, -⟩ := symbol_eq operator
    have hnone : Text.after? operator.symbol s = none := by
      rw [hsymbol]
      cases s with
      | nil => rfl
      | cons c s => rw [Text.after?, if_neg (ne_of_unmarked (h c rfl) hmark)]
    simpa only [readAmong, hnone] using ih

theorem splitLast?_of_unmarked {s : Text} (h : ∀ c ∈ s, isMark c = false) :
    splitLast? s = none := by
  induction s with
  | nil => rfl
  | cons c s ih =>
    have hread := readAmong_of_unmarked (s := c :: s)
      (fun d hd => h d (List.mem_of_mem_head? hd)) all
    simp only [splitLast?, ih fun d hd => h d (List.mem_cons_of_mem _ hd), hread, Option.map_none]

/-- A text without a character of operators is no comparison. -/
theorem split?_of_unmarked {s : Text} (h : ∀ c ∈ s, isMark c = false) : split? s = none := by
  cases s with
  | nil => rfl
  | cons c s =>
    rw [split?, splitLast?_of_unmarked fun d hd => h d (List.mem_cons_of_mem _ hd)]
    exact ite_self none

/-- The characters of operators differ from one another. -/
theorem marks_ne : CodePoint.ofChar '=' ≠ CodePoint.ofChar '!' ∧
    CodePoint.ofChar '=' ≠ CodePoint.ofChar '<' ∧ CodePoint.ofChar '=' ≠ CodePoint.ofChar '>' ∧
    CodePoint.ofChar '!' ≠ CodePoint.ofChar '<' ∧ CodePoint.ofChar '!' ≠ CodePoint.ofChar '>' ∧
    CodePoint.ofChar '<' ≠ CodePoint.ofChar '>' := by
  decide

/-- An operator in front of a text that no operator starts is read as a whole. -/
theorem readAmong_symbol {c : CodePoint} (hc : isMark c = false) (rest : Text)
    (operator : Comparison) :
    readAmong (operator.symbol ++ c :: rest) all = some (operator, c :: rest) := by
  -- A short operator is read only where the long one is not: what is behind it is no `=`.
  have hne : CodePoint.ofChar '=' ≠ c := ne_of_unmarked hc (by decide)
  obtain ⟨h₁, h₂, h₃, h₄, h₅, h₆⟩ := marks_ne
  cases operator <;>
    simp [readAmong, all, symbol, Text.after?, String.toText, hne, h₁, h₂, h₃, h₄, h₅, h₆]

/-- No operator starts with the second character of one. -/
theorem readAmong_equals {c : CodePoint} (hc : isMark c = false) (rest : Text) :
    readAmong ('=' :: c :: rest) all = none := by
  have hne : CodePoint.ofChar '=' ≠ c := ne_of_unmarked hc (by decide)
  obtain ⟨h₁, h₂, h₃, -⟩ := marks_ne
  simp [readAmong, all, symbol, Text.after?, String.toText, hne, h₁.symm, h₂.symm, h₃.symm]

/-- Behind an operator there is none, not even within it. -/
theorem splitLast?_symbol {right : Text} (hne : right ≠ [])
    (hright : ∀ c ∈ right, isMark c = false) (operator : Comparison) :
    splitLast? (operator.symbol ++ right) = some ([], operator, right) := by
  obtain ⟨c, right, rfl⟩ := List.exists_cons_of_ne_nil hne
  have hc := hright c List.mem_cons_self
  have hread := readAmong_symbol hc right operator
  have hnone := splitLast?_of_unmarked hright
  obtain ⟨mark, more, hsymbol, -, hmore⟩ := symbol_eq operator
  -- What is left of the operator behind its first character is no operator.
  have hrest : splitLast? (more ++ c :: right) = none := by
    rcases hmore with rfl | rfl
    · exact hnone
    · change splitLast? ('=' :: c :: right) = none
      rw [splitLast?, hnone, readAmong_equals hc]
      rfl
  rw [hsymbol, List.cons_append] at hread ⊢
  simp only [splitLast?, hrest, hread, Option.map_some]

theorem splitLast?_append {s left right : Text} {operator : Comparison}
    (h : splitLast? s = some (left, operator, right)) (front : Text) :
    splitLast? (front ++ s) = some (front ++ left, operator, right) := by
  induction front with
  | nil => exact h
  | cons c front ih => rw [List.cons_append, splitLast?, ih]; rfl

theorem newline_notMem_symbol (operator : Comparison) :
    CodePoint.ofChar '\n' ∉ operator.symbol := by
  cases operator <;> decide

/-- A text between two sides is split where it was put together. -/
theorem split?_append {left right : Text} (hleft : Side left) (hright : Side right)
    (operator : Comparison) :
    split? (left ++ (operator.symbol ++ right)) = some (left, operator, right) := by
  obtain ⟨c, left, rfl⟩ := List.exists_cons_of_ne_nil hleft.nonempty
  have hline : CodePoint.ofChar '\n' ∉ (c :: left) ++ (operator.symbol ++ right) := by
    simp only [List.mem_append, not_or]
    exact ⟨hleft.line, newline_notMem_symbol operator, hright.line⟩
  have hsplit := splitLast?_append
    (splitLast?_symbol hright.nonempty hright.unmarked operator) left
  rw [List.append_nil] at hsplit
  simp only [List.cons_append] at hline ⊢
  rw [split?, if_neg (by simpa using hline), hsplit]
  rfl

end Comparison

namespace Condition
open Comparison

/-! ### A condition between two sides -/

/-- A text that is split nowhere is an atom. -/
theorem evaluate_atom (env : Environment) {s : Text} (hbars : ¬ "||".toText <:+: s)
    (hampersands : ¬ "&&".toText <:+: s) : evaluate env s = evaluateAtom env s := by
  have hbar : Text.splitDoubled '|' s = [s] := Text.splitDoubled_of_not_infix hbars
  have hampersand : Text.splitDoubled '&' s = [s] := Text.splitDoubled_of_not_infix hampersands
  rw [evaluate_eq, hbar, hampersand, if_neg (by simp), if_neg (by simp)]

/-- An operator keeps the marks of its sides apart. -/
theorem not_infix_symbol {mark : CodePoint} {left right : Text} (hmark : isMark mark = false)
    (hleft : ¬ [mark, mark] <:+: left) (hright : ¬ [mark, mark] <:+: right)
    (operator : Comparison) : ¬ [mark, mark] <:+: left ++ (operator.symbol ++ right) := by
  refine Text.not_infix_append hleft ?_ ?_ hright
  · obtain ⟨c, more, h, -⟩ := symbol_eq operator
    rw [h]
    exact List.cons_ne_nil c more
  · intro h
    rw [isMark_of_mem_symbol h] at hmark
    contradiction

/-- A text with an operator in it is no literal, so it has a value only as a name. -/
theorem valueOf?_of_mark (env : Environment) {s : Text} {c : CodePoint} (hc : c ∈ s)
    (hmark : isMark c = true) : valueOf? env s = .ok (env.get? s) := by
  have hforeign : s.all Literal.isLiteralChar = false := by
    refine List.all_eq_false.2 ⟨c, hc, ?_⟩
    have hmarks : ∀ d ∈ "=<>!".toText, ¬ Literal.isLiteralChar d = true := by decide
    exact hmarks c (List.contains_iff_mem.1 hmark)
  rw [valueOf?, Literal.read_of_foreign hforeign]

/-- A text with an operator in it names no variable, if no variable has an operator in its
name. -/
theorem get?_of_mark {env : Environment} {s : Text} {c : CodePoint} (hc : c ∈ s)
    (hmark : isMark c = true) (henv : ∀ name ∈ env.keys, ∀ d ∈ name, isMark d = false) :
    env.get? s = none := by
  by_contra hget
  obtain ⟨n, hget⟩ := Option.ne_none_iff_exists'.1 hget
  rw [henv s (Dictionary.mem_keys_of_get? hget) c hc] at hmark
  contradiction

/-- A text between two sides that is no variable as a whole holds if the operator holds
between the values of its sides. -/
theorem evaluate_comparison {env : Environment} {left right : Text} (hleft : Side left)
    (hright : Side right) (operator : Comparison)
    (hname : env.get? (left ++ (operator.symbol ++ right)) = none) :
    evaluate env (left ++ (operator.symbol ++ right)) = (do
      let m ← valueOf env (Text.strip left)
      let n ← valueOf env (Text.strip right)
      pure (operator.holds m n)) := by
  obtain ⟨c, hc, hmark⟩ := exists_mark_mem_symbol operator
  have htoken : valueOf? env (left ++ (operator.symbol ++ right)) = .ok none := by
    rw [valueOf?_of_mark env (by simp [hc]) hmark, hname]
  rw [evaluate_atom env (not_infix_symbol (by decide) hleft.bars hright.bars operator)
    (not_infix_symbol (by decide) hleft.ampersands hright.ampersands operator), evaluateAtom, htoken]
  simp only [split?_append hleft hright operator]

/-- The same for an operator with a space on either side. -/
theorem evaluate_spaced {env : Environment} {left right : Text} (hleft : Side left)
    (hright : Side right) (hleftStrip : Text.strip left = left)
    (hrightStrip : Text.strip right = right) (operator : Comparison)
    (hname : env.get? (left ++ " ".toText ++ operator.symbol ++ " ".toText ++ right) = none) :
    evaluate env (left ++ " ".toText ++ operator.symbol ++ " ".toText ++ right) = (do
      let m ← valueOf env left
      let n ← valueOf env right
      pure (operator.holds m n)) := by
  have hshape : left ++ " ".toText ++ operator.symbol ++ " ".toText ++ right =
      left ++ " ".toText ++ (operator.symbol ++ (" ".toText ++ right)) := by
    simp only [List.append_assoc]
  have hback : Text.strip (left ++ " ".toText) = left := by
    rw [Text.strip_append_of_isBlank (by decide), hleftStrip]
  have hfront : Text.strip (" ".toText ++ right) = right := by
    rw [Text.strip_isBlank_append (by decide), hrightStrip]
  rw [hshape] at hname ⊢
  rw [evaluate_comparison hleft.append_space hright.space_append operator hname, hback, hfront]

/-! ### The values of the sides -/

theorem valueOf_of_read {env : Environment} {token : Text} {n : Int}
    (h : Literal.read token = .ok (some n)) : valueOf env token = .ok n := by
  rw [valueOf, valueOf?, Literal.read_normalize h]

/-- A name that no literal can have stands for what it is bound to. -/
theorem valueOf_of_bound {env : Environment} {name : Text} {n : Int}
    (hname : name.all Literal.isLiteralChar = false) (h : env.get? name = some n) :
    valueOf env name = .ok n := by
  rw [valueOf, Literal.normalize_of_foreign hname, valueOf?, Literal.read_of_foreign hname, h]

/-- A token has a value, or it is unknown, or it is a literal that is too long. -/
theorem valueOf_cases (env : Environment) (token : Text) :
    (∃ n, valueOf env token = .ok n) ∨
      valueOf env token = .error (.refused (.unknown token env)) ∨
      ∃ o : Overlong, Literal.digitLimit < o.digits ∧ valueOf env token = .error (.overlong o) := by
  rw [valueOf, valueOf?]
  cases hread : Literal.read (Literal.normalize token) with
  | error o => exact .inr (.inr ⟨o, Literal.digitLimit_lt_of_read hread, rfl⟩)
  | ok value =>
    cases value with
    | some n => exact .inl ⟨n, rfl⟩
    | none =>
      cases hget : env.get? (Literal.normalize token) with
      | some n => exact .inl ⟨n, rfl⟩
      | none => exact .inr (.inl rfl)

/-- A text is compared at the operator it was put together with: it holds if the operator
holds between the values of its sides, and else it fails for the first side without a
value. -/
theorem evaluate_of_sides {env : Environment} {left right : Text} (hleft : Side left)
    (hright : Side right) (operator : Comparison)
    (hname : env.get? (left ++ (operator.symbol ++ right)) = none) :
    (∃ m n, valueOf env (Text.strip left) = .ok m ∧ valueOf env (Text.strip right) = .ok n ∧
      evaluate env (left ++ (operator.symbol ++ right)) = .ok (operator.holds m n)) ∨
    (valueOf env (Text.strip left) = .error (.refused (.unknown (Text.strip left) env)) ∧
      evaluate env (left ++ (operator.symbol ++ right)) =
        .error (.refused (.unknown (Text.strip left) env))) ∨
    (∃ m, valueOf env (Text.strip left) = .ok m ∧
      valueOf env (Text.strip right) = .error (.refused (.unknown (Text.strip right) env)) ∧
      evaluate env (left ++ (operator.symbol ++ right)) =
        .error (.refused (.unknown (Text.strip right) env))) ∨
    ∃ o : Overlong, Literal.digitLimit < o.digits ∧
      (valueOf env (Text.strip left) = .error (.overlong o) ∨
        valueOf env (Text.strip right) = .error (.overlong o)) ∧
      evaluate env (left ++ (operator.symbol ++ right)) = .error (.overlong o) := by
  rw [evaluate_comparison hleft hright operator hname]
  rcases valueOf_cases env (Text.strip left) with ⟨m, hm⟩ | hunknown | ⟨o, hlimit, ho⟩
  · rcases valueOf_cases env (Text.strip right) with ⟨n, hn⟩ | hunknown | ⟨o, hlimit, ho⟩
    · exact .inl ⟨m, n, hm, hn, by rw [hm, hn]; rfl⟩
    · exact .inr (.inr (.inl ⟨m, hm, hunknown, by rw [hm, hunknown]; rfl⟩))
    · exact .inr (.inr (.inr ⟨o, hlimit, .inr ho, by rw [hm, ho]; rfl⟩))
  · exact .inr (.inl ⟨hunknown, by rw [hunknown]; rfl⟩)
  · exact .inr (.inr (.inr ⟨o, hlimit, .inl ho, by rw [ho]; rfl⟩))

/-- `<=` is not read as `<` with an equals sign behind it. -/
theorem evaluate_of_sides_atMost :
    Side "MC".toText ∧ Side "1.16.5".toText ∧
      (Dictionary.empty.insert "MC".toText 11605 : Environment).get? "MC<=1.16.5".toText = none ∧
      evaluate (Dictionary.empty.insert "MC".toText 11605) "MC<=1.16.5".toText = .ok true := by
  have hleft : Side "MC".toText := ⟨by decide, by decide, by decide, by decide, by decide⟩
  have hright : Side "1.16.5".toText := ⟨by decide, by decide, by decide, by decide, by decide⟩
  have hname : (Dictionary.empty.insert "MC".toText 11605 : Environment).get?
      "MC<=1.16.5".toText = none := by decide
  have hm : valueOf (Dictionary.empty.insert "MC".toText 11605)
      (Text.strip "MC".toText) = .ok 11605 := rfl
  have hn : valueOf (Dictionary.empty.insert "MC".toText 11605)
      (Text.strip "1.16.5".toText) = .ok 11605 := rfl
  refine ⟨hleft, hright, hname, ?_⟩
  obtain ⟨m, n, hm', hn', h⟩ | ⟨hleft', -⟩ | ⟨-, -, hright', -⟩ | ⟨o, -, hlong | hlong, -⟩ :=
    evaluate_of_sides hleft hright .atMost hname
  · obtain rfl := Except.ok.inj (hm.symm.trans hm')
    obtain rfl := Except.ok.inj (hn.symm.trans hn')
    exact h
  · cases hm.symm.trans hleft'
  · cases hn.symm.trans hright'
  · cases hm.symm.trans hlong
  · cases hn.symm.trans hlong

end Condition
end Multiversion
