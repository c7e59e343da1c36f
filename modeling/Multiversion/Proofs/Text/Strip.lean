import Mathlib.Data.List.Basic
import Mathlib.Data.List.TakeWhile
import Multiversion.Text.Basic

/-! White space around a text, and what is left when it is taken away.

A text is a blank margin and what `stripFront` leaves (`margin_append_stripFront`);
`stripBack` leaves a front part of that. A token with no white space at its ends
stands at the front of the stripped text whenever only white space stands before
it (`strip_margin_append`), and `eraseFirst` finds it there
(`eraseFirst_margin_append`). Indentation counts the spaces of the margin only. -/
namespace Multiversion.Text

/-- The white space at the front. -/
def margin (s : Text) : Text := s.takeWhile isBlankChar

/-- The first character is there and is not blank. -/
def startsVisible (s : Text) : Bool := s.head?.any fun c => !isBlankChar c

/-- The last character is there and is not blank. -/
def endsVisible (s : Text) : Bool := s.getLast?.any fun c => !isBlankChar c

/-! ### Blank texts -/

@[simp] theorem isBlank_append (a b : Text) : isBlank (a ++ b) = (isBlank a && isBlank b) := by
  simp [isBlank]

@[simp] theorem isBlankChar_space : isBlankChar ' ' = true := by decide

@[simp] theorem isBlank_spaces (n : Nat) : isBlank (spaces n) = true := by
  simp [isBlank, spaces]

theorem isBlank_margin (s : Text) : isBlank (margin s) = true := by
  simp only [isBlank, margin, List.all_takeWhile]

theorem startsVisible_iff {s : Text} :
    startsVisible s = true ↔ ∃ c rest, s = c :: rest ∧ isBlankChar c = false := by
  cases s with
  | nil => simp [startsVisible]
  | cons c rest => simp [startsVisible]

theorem isBlank_of_startsVisible {s : Text} (h : startsVisible s = true) : isBlank s = false := by
  obtain ⟨c, rest, rfl, hc⟩ := startsVisible_iff.1 h
  simp [isBlank, hc]

theorem startsVisible_append {a b : Text} (h : startsVisible a = true) :
    startsVisible (a ++ b) = true := by
  obtain ⟨c, rest, rfl, hc⟩ := startsVisible_iff.1 h
  exact startsVisible_iff.2 ⟨c, rest ++ b, rfl, hc⟩

/-! ### Stripping -/

theorem margin_append_stripFront (s : Text) : margin s ++ stripFront s = s :=
  List.takeWhile_append_dropWhile

theorem stripFront_of_startsVisible {s : Text} (h : startsVisible s = true) : stripFront s = s := by
  obtain ⟨c, rest, rfl, hc⟩ := startsVisible_iff.1 h
  simp [stripFront, hc]

theorem stripFront_append {a : Text} (h : isBlank a = true) (b : Text) :
    stripFront (a ++ b) = stripFront b := by
  simp only [stripFront]
  exact List.dropWhile_append_of_pos (by simpa [isBlank] using h)

theorem stripBack_append {b : Text} (h : isBlank b = false) (a : Text) :
    stripBack (a ++ b) = a ++ stripBack b := by
  have hb : (b.reverse.dropWhile isBlankChar).isEmpty = false := by
    rw [Bool.eq_false_iff, Ne, List.isEmpty_iff, List.dropWhile_eq_nil_iff]
    intro all
    simp only [List.mem_reverse] at all
    simp [isBlank, List.all_eq_true.2 all] at h
  simp only [stripBack, List.reverse_append, List.dropWhile_append, hb, Bool.false_eq_true,
    if_false, List.reverse_reverse]

theorem stripBack_append_of_isBlank {b : Text} (h : isBlank b = true) (a : Text) :
    stripBack (a ++ b) = stripBack a := by
  have hb : ∀ c ∈ b.reverse, isBlankChar c = true := by simpa [isBlank] using h
  simp only [stripBack, List.reverse_append, List.dropWhile_append_of_pos hb]

theorem stripBack_of_endsVisible {s : Text} (h : endsVisible s = true) : stripBack s = s := by
  obtain ⟨c, hc, hv⟩ := (Option.any_eq_true _ _).1 h
  obtain ⟨front, rfl⟩ := List.getLast?_eq_some_iff.1 hc
  simp only [Bool.not_eq_true'] at hv
  simp [stripBack, hv]

theorem stripBack_prefix (s : Text) : stripBack s <+: s := by
  have h : s.reverse.dropWhile isBlankChar <:+ s.reverse := List.dropWhile_suffix _
  simpa [stripBack] using List.reverse_prefix.2 h

/-- What is left of a text when the white space in front of a token and at the end is
gone. -/
theorem strip_token {lead token : Text} (hl : isBlank lead = true)
    (hs : startsVisible token = true) (he : endsVisible token = true) (rest : Text) :
    strip (lead ++ (token ++ rest)) = token ++ stripBack rest := by
  have front : stripFront (lead ++ (token ++ rest)) = token ++ rest := by
    rw [stripFront_append hl, stripFront_of_startsVisible (startsVisible_append hs)]
  rw [strip, front]
  by_cases hb : isBlank rest = true
  · have hnone : stripBack rest = [] := by
      have := stripBack_append_of_isBlank hb []
      rwa [List.nil_append] at this
    rw [stripBack_append_of_isBlank hb, stripBack_of_endsVisible he, hnone, List.append_nil]
  · exact stripBack_append (Bool.of_not_eq_true hb) token

/-- A token without white space at its ends is still there when the white space
around a text is gone. -/
theorem strip_margin_append {lead token : Text} (hl : isBlank lead = true)
    (hs : startsVisible token = true) (he : endsVisible token = true) (rest : Text) :
    ∃ behind, strip (lead ++ (token ++ rest)) = token ++ behind :=
  ⟨stripBack rest, strip_token hl hs he rest⟩

theorem margin_append {lead token : Text} (hl : isBlank lead = true)
    (hs : startsVisible token = true) : margin (lead ++ token) = lead := by
  obtain ⟨c, rest, rfl, hc⟩ := startsVisible_iff.1 hs
  have hlead : ∀ c ∈ lead, isBlankChar c = true := List.all_eq_true.1 hl
  rw [margin, List.takeWhile_append_of_pos hlead]
  simp [hc]

/-- What stands at the front of the stripped text follows the margin. -/
theorem eq_margin_append_of_strip {s token behind : Text} (h : strip s = token ++ behind) :
    ∃ rest, s = margin s ++ (token ++ rest) := by
  obtain ⟨rest, hr⟩ := stripBack_prefix (stripFront s)
  refine ⟨behind ++ rest, ?_⟩
  have front : token ++ (behind ++ rest) = stripFront s := by
    rw [← List.append_assoc, ← h]
    exact hr
  rw [front, margin_append_stripFront]

theorem strip_of_visible {s : Text} (hs : startsVisible s = true) (he : endsVisible s = true) :
    strip s = s := by
  rw [strip, stripFront_of_startsVisible hs, stripBack_of_endsVisible he]

/-- A text without white space around it starts and ends with something that shows. -/
theorem visible_of_strip {s : Text} (h : strip s = s) (hne : s ≠ []) :
    startsVisible s = true ∧ endsVisible s = true := by
  have hfront : stripFront s = s := by
    have hback := stripBack_prefix (stripFront s)
    refine (List.dropWhile_suffix _).eq_of_length (Nat.le_antisymm (length_stripFront_le s) ?_)
    calc s.length = (stripBack (stripFront s)).length := congrArg List.length h.symm
      _ ≤ (stripFront s).length := hback.length_le
  refine ⟨?_, ?_⟩
  · obtain ⟨c, rest, rfl⟩ := List.exists_cons_of_ne_nil hne
    have hfirst := (List.dropWhile_eq_self_iff.1 hfront) (Nat.succ_pos _)
    simpa [startsVisible] using hfirst
  · rw [strip, hfront, stripBack] at h
    have hback : s.reverse.dropWhile isBlankChar = s.reverse := by
      rw [← List.reverse_reverse (s.reverse.dropWhile isBlankChar), h]
    obtain ⟨c, rest, hs⟩ := List.exists_cons_of_ne_nil (List.reverse_eq_nil_iff.not.2 hne)
    rw [hs, List.dropWhile_eq_self_iff] at hback
    have hlast := hback (Nat.succ_pos _)
    rw [endsVisible, ← List.head?_reverse, hs]
    simpa using hlast

theorem strip_append_of_isBlank {b : Text} (h : isBlank b = true) (a : Text) :
    strip (a ++ b) = strip a := by
  cases ha : isBlank a with
  | true =>
    have hnil {s : Text} (hs : isBlank s = true) : stripFront s = [] :=
      List.dropWhile_eq_nil_iff.2 fun c hc => List.all_eq_true.1 hs c hc
    rw [strip, strip, stripFront_append ha, hnil h, hnil ha]
  | false =>
    have hfront : stripFront (a ++ b) = stripFront a ++ b := by
      rw [stripFront, List.dropWhile_append, if_neg]
      · rfl
      · rw [List.isEmpty_iff, List.dropWhile_eq_nil_iff]
        exact fun hall => by simp [isBlank, List.all_eq_true.2 hall] at ha
    rw [strip, hfront, stripBack_append_of_isBlank h, strip]

theorem strip_isBlank_append {a : Text} (h : isBlank a = true) (b : Text) :
    strip (a ++ b) = strip b := by
  rw [strip, stripFront_append h, strip]

/-- Two texts without white space around them have none around them when they are put
together with something that shows. -/
theorem strip_append_cons {a b : Text} {c : CodePoint} (ha : strip a = a) (hne : a ≠ [])
    (hc : isBlankChar c = false) (hb : strip b = b) : strip (a ++ c :: b) = a ++ c :: b := by
  refine strip_of_visible (startsVisible_append (visible_of_strip ha hne).1) ?_
  by_cases hnil : b = []
  · simp [hnil, endsVisible, hc]
  · have hlast : (a ++ c :: b).getLast? = b.getLast? := by
      rw [List.append_cons, List.getLast?_append_of_ne_nil _ hnil]
    rw [endsVisible, hlast]
    exact (visible_of_strip hb hnil).2

/-- A text is what is left of it when it is stripped, with white space around it. -/
theorem exists_strip_append (s : Text) :
    ∃ lead tail, isBlank lead = true ∧ isBlank tail = true ∧ s = lead ++ (strip s ++ tail) := by
  refine ⟨margin s, ((stripFront s).reverse.takeWhile isBlankChar).reverse, isBlank_margin s, ?_, ?_⟩
  · simp [isBlank]
  · have h : strip s ++ ((stripFront s).reverse.takeWhile isBlankChar).reverse = stripFront s := by
      rw [strip, stripBack, ← List.reverse_append, List.takeWhile_append_dropWhile,
        List.reverse_reverse]
    rw [h, margin_append_stripFront]

@[simp] theorem strip_strip (s : Text) : strip (strip s) = strip s := by
  obtain ⟨lead, tail, hlead, htail, hs⟩ := exists_strip_append s
  calc strip (strip s)
    _ = strip (lead ++ (strip s ++ tail)) := by
      rw [strip_isBlank_append hlead, strip_append_of_isBlank htail]
    _ = strip s := by rw [← hs]

theorem strip_isInfix (s : Text) : strip s <:+: s := by
  obtain ⟨lead, tail, -, -, hs⟩ := exists_strip_append s
  exact ⟨lead, tail, by rw [List.append_assoc, ← hs]⟩

/-! ### Indentation -/

theorem indentation_spaces_append (n : Nat) (s : Text) :
    indentation (spaces n ++ s) = n + indentation s := by
  induction n with
  | zero => simp [spaces]
  | succ n ih =>
    simp only [indentation, spaces, List.replicate_succ, List.cons_append] at ih ⊢
    simp only [List.takeWhile_cons, beq_self_eq_true, if_true, List.length_cons, ih]
    omega

/-- A line is indented by the spaces in front of its first token. -/
theorem indentation_append {token : Text} (hs : startsVisible token = true) (lead : Text) :
    indentation (lead ++ token) = indentation lead := by
  obtain ⟨c, rest, rfl, hc⟩ := startsVisible_iff.1 hs
  have hspace : c ≠ ' ' := by
    intro h
    rw [h] at hc
    exact absurd hc (by decide)
  induction lead with
  | nil => simp [indentation, hspace]
  | cons d lead ih =>
    by_cases hd : d = ' '
    · simpa [indentation, hd] using ih
    · simp [indentation, hd]

/-- The spaces a line is indented by are the same wherever they come from. -/
theorem spaces_append_drop {n : Nat} {s : Text} (h : n ≤ indentation s) :
    spaces n ++ s.drop n = s := by
  induction n generalizing s with
  | zero => simp [spaces]
  | succ n ih =>
    cases s with
    | nil => simp [indentation] at h
    | cons c rest =>
      by_cases hc : c = ' '
      · subst hc
        have hr : n ≤ indentation rest := by simpa [indentation] using h
        have := ih hr
        simpa [spaces, List.replicate_succ] using this
      · simp [indentation, hc] at h

/-! ### Erasing a token -/

theorem after?_append (token s : Text) : after? token (token ++ s) = some s :=
  after?_eq_some_iff.2 rfl

/-- Behind a blank margin the first place where a token stands is right there. -/
theorem eraseFirst_margin_append {lead token : Text} (hl : isBlank lead = true)
    (hs : startsVisible token = true) (rest : Text) :
    eraseFirst token (lead ++ (token ++ rest)) = lead ++ dropSpace rest := by
  obtain ⟨t, token', rfl, ht⟩ := startsVisible_iff.1 hs
  induction lead with
  | nil =>
    have := after?_append (t :: token') rest
    simp only [List.nil_append, List.cons_append] at this ⊢
    rw [eraseFirst, this]
  | cons c lead ih =>
    simp only [isBlank, List.all_cons, Bool.and_eq_true] at hl
    have hne : t ≠ c := by
      rintro rfl
      rw [hl.1] at ht
      cases ht
    rw [List.cons_append, eraseFirst]
    simp only [after?, hne, if_false, List.cons_append, List.cons.injEq, true_and]
    exact ih hl.2

end Multiversion.Text
