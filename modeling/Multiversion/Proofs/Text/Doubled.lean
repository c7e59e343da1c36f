import Mathlib.Data.List.Infix
import Multiversion.Proofs.Text.Strip

/-! Texts that are split where a mark stands twice.

`IsSplit` says what the pieces of such a text are without saying how they are found, and
`splitDoubled_eq_iff` that splitting finds them. What the pieces are like follows by induction
on `IsSplit`: put together they are the text (`IsSplit.join_eq`), none holds the doubled mark
(`IsSplit.apart`), and white space around the text stays with the first and the last of
them (`map_strip_splitDoubled`). -/
namespace Multiversion.Text

/-! ### Marks that are kept apart -/

/-- Another character keeps marks apart. -/
theorem not_infix_append_cons {mark c : CodePoint} {a b : Text} (ha : ¬ [mark, mark] <:+: a)
    (hc : c ≠ mark) (hb : ¬ [mark, mark] <:+: b) : ¬ [mark, mark] <:+: a ++ c :: b := by
  induction a with
  | nil =>
    intro h
    rcases List.infix_cons_iff.1 h with hfront | hrest
    · exact hc (List.cons_prefix_cons.1 hfront).1.symm
    · exact hb hrest
  | cons d a ih =>
    intro h
    rcases List.infix_cons_iff.1 h with hfront | hrest
    · obtain ⟨rfl, hnext⟩ := List.cons_prefix_cons.1 hfront
      cases a with
      | nil => exact hc (List.cons_prefix_cons.1 hnext).1.symm
      | cons e a =>
        obtain ⟨rfl, -⟩ := List.cons_prefix_cons.1 hnext
        exact ha (List.prefix_append [mark, mark] a).isInfix
    · exact ih (fun hin => ha (List.infix_cons hin)) hrest

/-- What holds no mark in front of a text keeps its marks apart. -/
theorem not_infix_append_front {mark : CodePoint} {t b : Text} (ht : mark ∉ t)
    (hb : ¬ [mark, mark] <:+: b) : ¬ [mark, mark] <:+: t ++ b := by
  induction t with
  | nil => exact hb
  | cons d t ih =>
    obtain ⟨hd, ht⟩ := not_or.1 (List.mem_cons.not.1 ht)
    exact not_infix_append_cons (mt List.infix_nil.1 (List.cons_ne_nil _ _)) (Ne.symm hd) (ih ht)

/-- A text without the mark keeps the marks on both sides of it apart. -/
theorem not_infix_append {mark : CodePoint} {a t b : Text} (ha : ¬ [mark, mark] <:+: a)
    (hne : t ≠ []) (ht : mark ∉ t) (hb : ¬ [mark, mark] <:+: b) :
    ¬ [mark, mark] <:+: a ++ (t ++ b) := by
  obtain ⟨c, t, rfl⟩ := List.exists_cons_of_ne_nil hne
  obtain ⟨hc, ht⟩ := not_or.1 (List.mem_cons.not.1 ht)
  exact not_infix_append_cons ha (Ne.symm hc) (not_infix_append_front ht hb)

theorem not_infix_nil (mark : CodePoint) : ¬ [mark, mark] <:+: ([] : Text) :=
  mt List.infix_nil.1 (List.cons_ne_nil _ _)

theorem not_infix_singleton (mark c : CodePoint) : ¬ [mark, mark] <:+: [c] := by
  intro h
  have hle := h.length_le
  simp at hle

/-- What holds no mark behind a text keeps its marks apart. -/
theorem not_infix_append_back {mark : CodePoint} {a t : Text} (ha : ¬ [mark, mark] <:+: a)
    (ht : mark ∉ t) : ¬ [mark, mark] <:+: a ++ t := by
  rcases eq_or_ne t [] with rfl | hne
  · rwa [List.append_nil]
  · have h := not_infix_append ha hne ht (not_infix_nil mark)
    rwa [List.append_nil] at h

/-! ### The pieces -/

/-- The pieces of a text: what stands in front of the first doubled mark, and the pieces of
what stands behind it. The mark at the end of `front ++ [mark]` belongs to the first place
where the mark stands twice, so no such place may lie in it. -/
inductive IsSplit (mark : CodePoint) : Text → List Text → Prop where
  | last {piece} : ¬ [mark, mark] <:+: piece → IsSplit mark piece [piece]
  | piece {front rest pieces} : ¬ [mark, mark] <:+: front ++ [mark] → IsSplit mark rest pieces →
      IsSplit mark (front ++ mark :: mark :: rest) (front :: pieces)

/-- A text in which a mark nowhere stands twice in a row is one piece. -/
theorem splitDoubled_of_not_infix {mark : CodePoint} {s : Text} (h : ¬ [mark, mark] <:+: s) :
    splitDoubled mark s = [s] := by
  fun_induction splitDoubled mark s with
  | case1 => rfl
  | case2 c => rfl
  | case3 a b rest hab ih =>
    rw [hab.1, hab.2] at h
    exact absurd (List.prefix_append [mark, mark] rest).isInfix h
  | case4 a b rest hab ih =>
    rw [ih fun hin => h (List.infix_cons hin)]
    rfl

/-- A text is split at its first doubled mark. -/
theorem splitDoubled_append {mark : CodePoint} {front : Text}
    (h : ¬ [mark, mark] <:+: front ++ [mark]) (rest : Text) :
    splitDoubled mark (front ++ mark :: mark :: rest) = front :: splitDoubled mark rest := by
  induction front with
  | nil => rw [List.nil_append, splitDoubled, if_pos ⟨rfl, rfl⟩]
  | cons c front ih =>
    rw [List.cons_append] at h
    have apart : ¬ (c = mark ∧ [mark] <+: front ++ [mark]) := by
      rintro ⟨rfl, hnext⟩
      exact h (List.cons_prefix_cons.2 ⟨rfl, hnext⟩).isInfix
    have tail := ih fun hin => h (List.infix_cons hin)
    cases front with
    | nil =>
      rw [List.cons_append, List.nil_append, splitDoubled,
        if_neg fun both => apart ⟨both.1, List.prefix_rfl⟩]
      rw [List.nil_append] at tail
      rw [tail, consFirst]
    | cons d front =>
      have hne : ¬ (c = mark ∧ d = mark) := by
        rintro ⟨hc, rfl⟩
        exact apart ⟨hc, List.prefix_append [d] (front ++ [d])⟩
      rw [List.cons_append, List.cons_append, splitDoubled, if_neg hne, ← List.cons_append, tail,
        consFirst]

/-- A character in front of a text belongs to its first piece, unless it makes a doubled mark
with the next one. -/
theorem IsSplit.consFirst {mark a b : CodePoint} {rest : Text} {pieces : List Text}
    (hab : ¬ (a = mark ∧ b = mark)) (h : IsSplit mark (b :: rest) pieces) :
    IsSplit mark (a :: b :: rest) (consFirst a pieces) := by
  have apart {front : Text} (hfront : front <+: b :: rest) (hin : ¬ [mark, mark] <:+: front) :
      ¬ [mark, mark] <:+: a :: front := by
    intro h
    rcases List.infix_cons_iff.1 h with hboth | h
    · obtain ⟨ha, hnext⟩ := List.cons_prefix_cons.1 hboth
      exact hab ⟨ha.symm, (List.cons_prefix_cons.1 (hnext.trans hfront)).1.symm⟩
    · exact hin h
  generalize hs : b :: rest = s at h apart
  cases h with
  | last hpiece => exact .last (apart List.prefix_rfl hpiece)
  | @piece front rest pieces hfront hrest =>
    have hin : front ++ [mark] <+: front ++ mark :: mark :: rest :=
      ⟨mark :: rest, List.append_assoc _ _ _⟩
    have hcons : ¬ [mark, mark] <:+: (a :: front) ++ [mark] := apart hin hfront
    exact .piece hcons hrest

/-- Splitting finds the pieces. -/
theorem splitDoubled_eq_iff {mark : CodePoint} {s : Text} {pieces : List Text} :
    splitDoubled mark s = pieces ↔ IsSplit mark s pieces := by
  constructor
  · rintro rfl
    fun_induction splitDoubled mark s with
    | case1 => exact .last (not_infix_nil mark)
    | case2 c => exact .last (not_infix_singleton mark c)
    | case3 a b rest hab ih =>
      have hnone : ¬ [mark, mark] <:+: [] ++ [mark] := not_infix_singleton mark mark
      rw [hab.1, hab.2]
      exact .piece hnone ih
    | case4 a b rest hab ih => exact ih.consFirst hab
  · intro h
    induction h with
    | last hpiece => exact splitDoubled_of_not_infix hpiece
    | piece hfront _ ih => rw [splitDoubled_append hfront, ih]

theorem isSplit_splitDoubled (mark : CodePoint) (s : Text) :
    IsSplit mark s (splitDoubled mark s) := splitDoubled_eq_iff.1 rfl

section IsSplit
variable {mark : CodePoint} {s : Text} {pieces : List Text}

/-- The pieces and the marks between them are the text. -/
theorem IsSplit.join_eq (h : IsSplit mark s pieces) : join [mark, mark] pieces = s := by
  induction h with
  | last => simp [join, List.intercalate]
  | @piece front rest pieces _ hrest ih =>
    obtain ⟨next, more, rfl⟩ : ∃ next more, pieces = next :: more := by
      cases hrest with
      | last => exact ⟨_, _, rfl⟩
      | piece => exact ⟨_, _, rfl⟩
    rw [← ih]
    simp [join, List.intercalate]

theorem IsSplit.eq_of_singleton {piece : Text} (h : IsSplit mark s [piece]) : piece = s := by
  simpa [join, List.intercalate] using h.join_eq

/-- Every piece stands in the text. -/
theorem IsSplit.isInfix {piece : Text} (h : IsSplit mark s pieces) (hpiece : piece ∈ pieces) :
    piece <:+: s := by
  induction h with
  | last =>
    obtain rfl := List.mem_singleton.1 hpiece
    exact List.infix_rfl
  | @piece front rest pieces _ _ ih =>
    rcases List.mem_cons.1 hpiece with rfl | hpiece
    · exact (List.prefix_append _ _).isInfix
    · have behind : rest <:+ front ++ mark :: mark :: rest :=
        ⟨front ++ [mark, mark], List.append_assoc _ _ _⟩
      exact (ih hpiece).trans behind.isInfix

/-- No piece holds what the text was split at. -/
theorem IsSplit.apart {piece : Text} (h : IsSplit mark s pieces) (hpiece : piece ∈ pieces) :
    ¬ [mark, mark] <:+: piece := by
  induction h with
  | last hin => rwa [List.mem_singleton.1 hpiece]
  | piece hfront _ ih =>
    rcases List.mem_cons.1 hpiece with rfl | hpiece
    · exact fun hin => hfront (hin.trans (List.prefix_append _ _).isInfix)
    · exact ih hpiece

/-- What holds no mark and stands in front stays with the first piece. -/
theorem IsSplit.append_front {lead : Text} (hlead : mark ∉ lead) (h : IsSplit mark s pieces) :
    ∃ first more, pieces = first :: more ∧ IsSplit mark (lead ++ s) ((lead ++ first) :: more) := by
  cases h with
  | last hpiece => exact ⟨_, _, rfl, .last (not_infix_append_front hlead hpiece)⟩
  | @piece front rest pieces hfront hrest =>
    have hlong : ¬ [mark, mark] <:+: (lead ++ front) ++ [mark] := by
      rw [List.append_assoc]
      exact not_infix_append_front hlead hfront
    refine ⟨front, pieces, rfl, ?_⟩
    rw [← List.append_assoc]
    exact .piece hlong hrest

/-- What holds no mark and stands at the end stays with the last piece. -/
theorem IsSplit.append_back {tail : Text} (htail : mark ∉ tail) (h : IsSplit mark s pieces) :
    ∃ before last, pieces = before ++ [last] ∧
      IsSplit mark (s ++ tail) (before ++ [last ++ tail]) := by
  induction h with
  | last hpiece => exact ⟨[], _, rfl, .last (not_infix_append_back hpiece htail)⟩
  | @piece front rest pieces hfront _ ih =>
    obtain ⟨before, last, rfl, hrest⟩ := ih
    refine ⟨front :: before, last, rfl, ?_⟩
    rw [List.append_assoc]
    exact .piece hfront hrest

end IsSplit

/-! ### Splitting and stripping -/

/-- The pieces of a text are those of the text without the white space around it, once
they are stripped themselves. -/
theorem map_strip_splitDoubled {mark : CodePoint} (hmark : isBlankChar mark = false) (s : Text) :
    (splitDoubled mark (strip s)).map strip = (splitDoubled mark s).map strip := by
  have notMem {blank : Text} (hblank : isBlank blank = true) : mark ∉ blank := by
    intro hmem
    rw [List.all_eq_true.1 hblank mark hmem] at hmark
    contradiction
  obtain ⟨lead, tail, hlead, htail, hs⟩ := exists_strip_append s
  obtain ⟨before, last, hstrip, hback⟩ :=
    (isSplit_splitDoubled mark (strip s)).append_back (notMem htail)
  obtain ⟨first, more, hpieces, hfront⟩ := hback.append_front (notMem hlead)
  calc (splitDoubled mark (strip s)).map strip
    _ = (before ++ [last ++ tail]).map strip := by
      rw [hstrip]
      simp [strip_append_of_isBlank htail]
    _ = ((lead ++ first) :: more).map strip := by
      rw [hpieces]
      simp [strip_isBlank_append hlead]
    _ = (splitDoubled mark s).map strip := by rw [hs, splitDoubled_eq_iff.2 hfront]

end Multiversion.Text
