import Mathlib.Data.List.Count
import Multiversion.Document
import Multiversion.Proofs.Text.Path

/-! The lines of a text and its line breaks.

`closes` says which characters end a line: a line feed, and a carriage return without a line
feed behind it. `breakCount` counts them, and `unified` puts a line feed in the place of each
break. A text is split where its unified text has line feeds (`splitBreaks_eq`), so nothing
is lost when a text is taken apart into lines and put together again but the kind of its
breaks (`toText_ofText`), and a document is written with as many line feeds as its number of
lines asks for, whatever stands in them (`count_toText`). -/
namespace Multiversion

/-- No line break is in the text. -/
def Text.Unbroken (s : Text) : Prop := ∀ c ∈ s, Document.isBreak c = false

instance (s : Text) : Decidable (Text.Unbroken s) :=
  inferInstanceAs (Decidable (∀ c ∈ s, Document.isBreak c = false))

namespace Text

theorem Unbroken.notMem {s : Text} (h : Unbroken s) : CodePoint.ofChar '\n' ∉ s := by
  intro hmem
  exact absurd (h _ hmem) (by decide)

/-- A text is split into one piece more than it has separators. -/
theorem length_splitOn (separator : CodePoint) (s : Text) :
    (splitOn separator s).length = s.count separator + 1 := by
  induction s with
  | nil => rfl
  | cons c s ih =>
    by_cases hc : c = separator
    · simp [splitOn, hc, ih]
    · obtain ⟨piece, more, e⟩ := List.exists_cons_of_ne_nil (splitOn_ne_nil separator s)
      rw [e] at ih
      simp only [splitOn, if_neg hc, e, consFirst, List.length_cons] at ih ⊢
      rw [List.count_cons_of_ne hc]
      exact ih

/-- An empty piece at the end is a separator at the end. -/
theorem join_concat_nil {separator : Text} {pieces : List Text} (h : pieces ≠ []) :
    join separator (pieces ++ [[]]) = join separator pieces ++ separator := by
  match pieces with
  | [piece] => simp [join, List.intercalate]
  | piece :: next :: more =>
    have hrest : join separator (next :: more ++ [[]]) = join separator (next :: more) ++ separator :=
      join_concat_nil (List.cons_ne_nil next more)
    simp only [List.cons_append] at hrest ⊢
    rw [join_cons_cons, hrest, join_cons_cons]
    simp only [List.append_assoc]

end Text

namespace Document
open Text (Unbroken)

/-! ### Line breaks -/

/-- A character ends a line, given what follows it. -/
def closes (c : CodePoint) (rest : Text) : Bool :=
  c == '\n' || (c == '\r' && rest.head? != some (CodePoint.ofChar '\n'))

/-- How many line breaks are in a text. A carriage return and the line feed behind it are
one. -/
def breakCount : Text → Nat
  | [] => 0
  | c :: rest => if closes c rest then breakCount rest + 1 else breakCount rest

/-- The text with a line feed for every line break. -/
def unified : Text → Text
  | [] => []
  | c :: rest =>
    if closes c rest then '\n' :: unified rest
    else if c = '\r' then unified rest
    else c :: unified rest

theorem unified_cons_of_closes {c : CodePoint} {rest : Text} (h : closes c rest = true) :
    unified (c :: rest) = CodePoint.ofChar '\n' :: unified rest := by
  rw [unified, if_pos h]

theorem unified_cons_of_not_isBreak {c : CodePoint} (h : isBreak c = false) (rest : Text) :
    unified (c :: rest) = c :: unified rest := by
  simp only [isBreak, Bool.or_eq_false_iff, beq_eq_false_iff_ne] at h
  rw [unified, if_neg (by simp [closes, h.1, h.2]), if_neg h.2]

theorem return_notMem_unified (s : Text) : CodePoint.ofChar '\r' ∉ unified s := by
  induction s with
  | nil => simp [unified]
  | cons c rest ih =>
    rw [unified]
    split
    · exact List.not_mem_cons_of_ne_of_not_mem (by decide) ih
    · split
      · exact ih
      · next hc => exact List.not_mem_cons_of_ne_of_not_mem (Ne.symm hc) ih

theorem mem_of_mem_unified {s : Text} {c : CodePoint} (h : c ∈ unified s) : c ∈ s ∨ c = '\n' := by
  induction s with
  | nil => cases h
  | cons d rest ih =>
    have hrest (h : c ∈ unified rest) : c ∈ d :: rest ∨ c = '\n' :=
      (ih h).imp_left (List.mem_cons_of_mem d)
    rw [unified] at h
    split at h
    · rcases List.mem_cons.1 h with hc | h
      · exact .inr hc
      · exact hrest h
    · split at h
      · exact hrest h
      · rcases List.mem_cons.1 h with hc | h
        · exact .inl (List.mem_cons.2 (.inl hc))
        · exact hrest h

/-- The unified text has as many line feeds as the text has line breaks. -/
theorem count_unified (s : Text) :
    (unified s).count (CodePoint.ofChar '\n') = breakCount s := by
  induction s with
  | nil => rfl
  | cons c rest ih =>
    rw [unified, breakCount]
    by_cases hcloses : closes c rest = true
    · rw [if_pos hcloses, if_pos hcloses, List.count_cons_self, ih]
    · rw [if_neg hcloses, if_neg hcloses]
      by_cases hreturn : c = '\r'
      · rw [if_pos hreturn, ih]
      · have hfeed : c ≠ '\n' := by
          intro h
          simp [closes, h] at hcloses
        rw [if_neg hreturn, List.count_cons_of_ne hfeed, ih]

/-- A text is split at its line breaks. -/
theorem splitBreaks_eq (s : Text) :
    splitBreaks s = Text.splitOn (CodePoint.ofChar '\n') (unified s) := by
  fun_induction splitBreaks s with
  | case1 => rfl
  | case2 c h =>
    have hcloses : closes c [] = true := by simpa [closes, isBreak] using h
    rw [unified_cons_of_closes hcloses]
    rfl
  | case3 c h =>
    rw [unified_cons_of_not_isBreak (Bool.of_not_eq_true h)]
    simp only [isBreak, Bool.or_eq_true, beq_iff_eq, not_or] at h
    simp [unified, Text.splitOn, h.1, Text.consFirst]
  | case4 c next rest h ih =>
    obtain ⟨rfl, rfl⟩ := h
    have hreturn : unified (CodePoint.ofChar '\r' :: CodePoint.ofChar '\n' :: rest) =
        unified (CodePoint.ofChar '\n' :: rest) := by
      have hopen : closes '\r' (CodePoint.ofChar '\n' :: rest) = false := rfl
      rw [unified, hopen, if_neg Bool.false_ne_true, if_pos rfl]
    rw [hreturn, unified_cons_of_closes rfl, ih]
    simp [Text.splitOn]
  | case5 c next rest hpair hbreak ih =>
    have hcloses : closes c (next :: rest) = true := by
      simp only [isBreak, Bool.or_eq_true, beq_iff_eq] at hbreak
      rcases hbreak with rfl | rfl
      · rfl
      · have hnext : next ≠ '\n' := fun h => hpair ⟨rfl, h⟩
        simp [closes, hnext]
    rw [unified_cons_of_closes hcloses, ih]
    simp [Text.splitOn]
  | case6 c next rest hpair hbreak ih =>
    have hnot := Bool.of_not_eq_true hbreak
    rw [unified_cons_of_not_isBreak hnot, ih]
    simp only [isBreak, Bool.or_eq_false_iff, beq_eq_false_iff_ne] at hnot
    simp [Text.splitOn, hnot.1]

/-- The pieces between the line breaks are made of the text, without them. -/
theorem of_mem_splitBreaks {s line : Text} (h : line ∈ splitBreaks s) :
    Unbroken line ∧ line ⊆ s := by
  rw [splitBreaks_eq] at h
  obtain ⟨hfeed, hsub⟩ := Text.notMem_of_mem_splitOn h
  have hne {c : CodePoint} (hc : c ∈ line) : c ≠ '\n' := fun e => hfeed (e ▸ hc)
  constructor
  · intro c hc
    simp only [isBreak, Bool.or_eq_false_iff, beq_eq_false_iff_ne]
    refine ⟨hne hc, fun e => ?_⟩
    rw [e] at hc
    exact return_notMem_unified s (hsub hc)
  · intro c hc
    exact (mem_of_mem_unified (hsub hc)).resolve_right (hne hc)

/-! ### Documents -/

/-- The pieces of a text are the lines of its document, and one more that is empty if a line
break ends the text. -/
theorem splitBreaks_ofText {s : Text} (h : s ≠ []) :
    splitBreaks s = (ofText s).lines ++ if (ofText s).ended then [[]] else [] := by
  rw [ofText, if_neg h]
  simp only
  split
  · next hended =>
    obtain ⟨front, hfront⟩ := List.getLast?_eq_some_iff.1 hended.2
    simp [hfront]
  · simp

theorem lines_ne_nil {s : Text} (h : s ≠ []) : (ofText s).lines ≠ [] := by
  rw [ofText, if_neg h]
  simp only
  split
  · next hended =>
    intro hnil
    have hlength := congrArg List.length hnil
    rw [List.length_dropLast, List.length_nil] at hlength
    omega
  · exact splitBreaks_ne_nil s

theorem mem_splitBreaks_of_mem_lines {s line : Text} (h : line ∈ (ofText s).lines) :
    line ∈ splitBreaks s := by
  by_cases hs : s = []
  · rw [hs] at h
    cases h
  · rw [splitBreaks_ofText hs]
    exact List.mem_append_left _ h

/-- No line of a document has a line break in it. -/
theorem unbroken_of_mem_lines {s line : Text} (h : line ∈ (ofText s).lines) : Unbroken line :=
  (of_mem_splitBreaks (mem_splitBreaks_of_mem_lines h)).1

theorem subset_of_mem_lines {s line : Text} (h : line ∈ (ofText s).lines) : line ⊆ s :=
  (of_mem_splitBreaks (mem_splitBreaks_of_mem_lines h)).2

/-- A document of a text is written with all that is in the text, its line breaks unified. -/
theorem toText_ofText (s : Text) : (ofText s).toText = unified s := by
  by_cases hs : s = []
  · subst hs
    rfl
  · have hjoin : Text.join [CodePoint.ofChar '\n'] (splitBreaks s) = unified s := by
      rw [splitBreaks_eq, Text.join_splitOn]
    rw [splitBreaks_ofText hs] at hjoin
    rw [← hjoin, toText]
    by_cases hended : (ofText s).ended = true
    · rw [if_pos hended, if_pos hended, Text.join_concat_nil (lines_ne_nil hs)]
      rfl
    · rw [if_neg hended, if_neg hended, List.append_nil, List.append_nil]
      rfl

/-- The lines of a document are those that it is written with. -/
theorem lines_isPrefix_toText {d : Document} (hlines : ∀ line ∈ d.lines, Unbroken line) :
    d.lines <+: Text.splitOn (CodePoint.ofChar '\n') d.toText := by
  by_cases hne : d.lines = []
  · rw [hne]
    exact List.nil_prefix
  · have hsplit := Text.splitOn_join hne fun line hmem => (hlines line hmem).notMem
    rw [toText]
    by_cases hended : d.ended = true
    · rw [if_pos hended, show "\n".toText = CodePoint.ofChar '\n' :: [] from rfl,
        Text.splitOn_append, hsplit]
      exact List.prefix_append _ _
    · rw [if_neg hended, List.append_nil]
      exact ⟨[], (List.append_nil _).trans hsplit.symm⟩

/-- A document is written with a line feed behind every line, less the last one if nothing
ends it. -/
theorem count_toText {d : Document} (hlines : ∀ line ∈ d.lines, Unbroken line) :
    d.toText.count (CodePoint.ofChar '\n') = (d.lines.length - 1) + if d.ended then 1 else 0 := by
  have hjoin : (Text.join "\n".toText d.lines).count (CodePoint.ofChar '\n') =
      d.lines.length - 1 := by
    by_cases hne : d.lines = []
    · rw [hne]
      rfl
    · have hsplit := Text.splitOn_join hne fun line hmem => (hlines line hmem).notMem
      have hlength := Text.length_splitOn (CodePoint.ofChar '\n')
        (Text.join [CodePoint.ofChar '\n'] d.lines)
      rw [hsplit] at hlength
      rw [hlength]
      rfl
  rw [toText, List.count_append, hjoin]
  by_cases hended : d.ended = true
  · rw [if_pos hended, if_pos hended]
    rfl
  · rw [if_neg hended, if_neg hended]
    rfl

/-- A document is written with the characters of its lines and with line feeds. -/
theorem mem_toText {d : Document} {c : CodePoint} (h : c ∈ d.toText) :
    (∃ line ∈ d.lines, c ∈ line) ∨ c = '\n' := by
  rw [toText, List.mem_append] at h
  rcases h with h | h
  · rcases Text.mem_join h with h | h
    · exact .inr (List.mem_singleton.1 h)
    · exact .inl h
  · by_cases hended : d.ended = true
    · rw [if_pos hended] at h
      exact .inr (List.mem_singleton.1 h)
    · rw [if_neg hended] at h
      cases h

theorem return_notMem_toText {d : Document} (hlines : ∀ line ∈ d.lines, Unbroken line) :
    CodePoint.ofChar '\r' ∉ d.toText := by
  intro h
  rcases mem_toText h with ⟨line, hline, hmem⟩ | h
  · exact absurd (hlines line hline _ hmem) (by decide)
  · exact absurd h (by decide)

/-! ### Other lines -/

/-- The document of a text with other lines. -/
def relined (text : Text) (lines : List Text) : Document := { ofText text with lines }

/-- As many other lines are written with as many line feeds as the text has line breaks. -/
theorem count_relined {text : Text} {out : List Text}
    (hlength : out.length = (ofText text).lines.length) (hout : ∀ line ∈ out, Unbroken line) :
    (relined text out).toText.count (CodePoint.ofChar '\n') = breakCount text := by
  have hother : (relined text out).toText.count (CodePoint.ofChar '\n') =
      (out.length - 1) + if (ofText text).ended then 1 else 0 := count_toText hout
  have hsame := count_toText (d := ofText text) fun line h => unbroken_of_mem_lines h
  rw [hother, hlength, ← hsame, toText_ofText, count_unified]

end Document
end Multiversion
