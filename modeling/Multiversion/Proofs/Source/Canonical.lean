import Multiversion.Proofs.Source.Rewriting

/-! Switching between environments.

A line inside a block has two forms (`Forms`): the one it has while the region is
active and the one it has while it is not. In a `Canonical` text every line inside
a block is one of its two forms, and the eval lines outside of all blocks hide no
directive. Which block is the innermost one, and what its indentation is, no
condition decides (`Outline`), so what is canonical stays canonical, and each pass
chooses the forms anew.

`pass_foldl_switch`: after any passes with any environments, the next pass comes to
what it comes to on the text that they started from. -/
namespace Multiversion.Source
open Block (Stack Frame Context Step)

variable {k : Keywords}

/-! ### The two forms of a line -/

/-- The forms of a line in a block of such an indentation, first the one while the
region is active. -/
inductive Forms (k : Keywords) (indent : Nat) : Text → Text → Prop
  | empty : Forms k indent [] (placeholder k indent)
  | dedented {text} : kind k text = .plain → Text.isBlank text = false →
      Text.indentation text < indent → Forms k indent text text
  | indented {behind} : Text.isBlank behind = false →
      kind k (Text.spaces indent ++ behind) = .plain →
      Forms k indent (Text.spaces indent ++ behind) (commented k indent behind)

/-- What a line in a block of such an indentation may be. -/
inductive CanonicalLine (k : Keywords) (indent : Nat) : Text → Prop
  | empty : CanonicalLine k indent []
  | plain {text} : kind k text = .plain → Text.isBlank text = false → CanonicalLine k indent text
  | placeholder : CanonicalLine k indent (placeholder k indent)
  | commented {behind} : Text.isBlank behind = false →
      kind k (Text.spaces indent ++ behind) = .plain →
      CanonicalLine k indent (commented k indent behind)

namespace Forms
variable {indent : Nat} {shown hidden text : Text}

theorem canonicalLine_shown (h : Forms k indent shown hidden) : CanonicalLine k indent shown := by
  cases h with
  | empty => exact .empty
  | dedented hp hb _ => exact .plain hp hb
  | indented hb hp => exact .plain hp (by rw [Text.isBlank_append, hb, Bool.and_false])

theorem canonicalLine_hidden (h : Forms k indent shown hidden) : CanonicalLine k indent hidden := by
  cases h with
  | empty => exact .placeholder
  | dedented hp hb _ => exact .plain hp hb
  | indented hb hp => exact .commented hb hp

theorem kind_shown (hk : k.EvalApart) (h : Forms k indent shown hidden) :
    kind k shown = .plain := by
  cases h with
  | empty => exact kind_nil hk
  | dedented hp _ _ => exact hp
  | indented _ hp => exact hp

/-- In an active region either form becomes the first one. -/
theorem reveal_eq (hk : k.EvalApart) (h : Forms k indent shown hidden)
    (ht : text = shown ∨ text = hidden) : reveal k text = shown := by
  rcases ht with rfl | rfl
  · exact reveal_of_kind_ne (by rw [h.kind_shown hk]; decide)
  · cases h with
    | empty => rw [reveal_of_kind_eval (kind_placeholder hk indent), enable_placeholder hk.starts]
    | dedented hp _ _ => exact reveal_of_kind_ne (by rw [hp]; decide)
    | indented hb _ =>
      rw [reveal_of_kind_eval (kind_commented hk indent _), enable_commented hk.starts indent hb]

/-- In an inactive region either form becomes the second one. -/
theorem cover_eq (hk : k.EvalApart) (h : Forms k indent shown hidden)
    (ht : text = shown ∨ text = hidden) : cover k indent text = hidden := by
  have hcover : cover k indent shown = hidden := by
    cases h with
    | empty => rfl
    | dedented hp hb hi =>
      rw [cover, hb, if_neg Bool.false_ne_true, if_neg fun h => absurd h.2 (by omega)]
    | @indented behind hb hp =>
      have hblank : Text.isBlank (Text.spaces indent ++ behind) = false := by
        rw [Text.isBlank_append, hb, Bool.and_false]
      have hdeep : indent ≤ Text.indentation (Text.spaces indent ++ behind) := by
        rw [Text.indentation_spaces_append]
        omega
      have hdrop : (Text.spaces indent ++ behind).drop indent = behind :=
        List.drop_left' (List.length_replicate ..)
      rw [cover, hblank, if_neg Bool.false_ne_true, if_pos ⟨by rw [hp]; decide, hdeep⟩, hdrop]
  rcases ht with rfl | rfl
  · exact hcover
  · rw [← hcover, cover_cover hk]

/-- Whatever the form, the region decides which one comes out. -/
theorem rewrite_eq (hk : k.EvalApart) {s : Stack} (h : Forms k s.indent shown hidden)
    (ht : text = shown ∨ text = hidden) :
    rewrite k s (.same text) = if s.active then shown else hidden := by
  cases ha : s.active with
  | true => rw [rewrite_of_active ha, h.reveal_eq hk ht, if_pos rfl]
  | false => rw [rewrite_of_inactive ha, h.cover_eq hk ht, if_neg Bool.false_ne_true]

end Forms

/-- A line is canonical when it is one of two forms. -/
theorem CanonicalLine.forms {indent : Nat} {text : Text} (h : CanonicalLine k indent text) :
    ∃ shown hidden, Forms k indent shown hidden ∧ (text = shown ∨ text = hidden) := by
  cases h with
  | empty => exact ⟨_, _, .empty, .inl rfl⟩
  | placeholder => exact ⟨_, _, .empty, .inr rfl⟩
  | commented hb hp => exact ⟨_, _, .indented hb hp, .inr rfl⟩
  | plain hp hb =>
    by_cases hi : Text.indentation text < indent
    · exact ⟨_, _, .dedented hp hb hi, .inl rfl⟩
    · have hsplit : Text.spaces indent ++ text.drop indent = text :=
        Text.spaces_append_drop (by omega)
      have hbehind : Text.isBlank (text.drop indent) = false := by
        rw [← hsplit, Text.isBlank_append, Text.isBlank_spaces, Bool.true_and] at hb
        exact hb
      exact ⟨_, _, .indented hbehind (by rw [hsplit]; exact hp), .inl hsplit.symm⟩

/-! ### Blocks without their conditions -/

/-- What of an open block no condition decides. -/
structure Outline where
  /-- The indentation of the last directive. -/
  indent : Nat
  /-- The `else` has been read. -/
  elseFound : Bool

namespace Outline

/-- The outlines of the blocks on the stack. -/
def ofStack (s : Stack) : List Outline := s.frames.map fun frame => ⟨frame.indent, frame.elseFound⟩

/-- The open blocks behind a directive of such a kind and indentation, if it can
stand there. -/
def behind (indent : Nat) : LineKind → List Outline → Option (List Outline)
  | .ifHolds, blocks => some (⟨indent, false⟩ :: blocks)
  | .ifDefined, blocks => some (⟨indent, false⟩ :: blocks)
  | .elseIf, ⟨_, false⟩ :: outer => some (⟨indent, false⟩ :: outer)
  | .otherwise, ⟨_, false⟩ :: outer => some (⟨indent, true⟩ :: outer)
  | .endIf, _ :: outer => some outer
  | .disableRemap, blocks => some blocks
  | .enableRemap, blocks => some blocks
  | _, _ => none

/-- A directive does the same to the outlines in every environment. -/
theorem behind_of_step {context : Context} {indent : Nat} {s t : Stack} {d : Directive}
    (h : Step context indent s d t) : behind indent d.kind (ofStack s) = some (ofStack t) := by
  cases h with
  | ifHolds _ => rfl
  | ifDefined => rfl
  | elseIfPassed hf he _ => simp [ofStack, hf, he, behind]
  | elseIf hf he _ _ => simp [ofStack, hf, he, behind]
  | otherwise hf he => simp [ofStack, hf, he, behind]
  | endIf hf => simp [ofStack, hf, behind]
  | disableRemap _ => rfl
  | enableRemap _ => rfl

end Outline

/-- What a line inside of these blocks may be. -/
def CanonicalAt (k : Keywords) : List Outline → Text → Prop
  | [], text => Clear k text
  | innermost :: _, text => CanonicalLine k innermost.indent text

/-- The lines that follow are canonical. Behind a directive that cannot stand where
it does nothing is asked, as no pass gets there. -/
inductive CanonicalFrom (k : Keywords) : List Outline → List Text → Prop
  | nil {blocks} : CanonicalFrom k blocks []
  | line {blocks text rest} : (kind k text).structural = false → CanonicalAt k blocks text →
      CanonicalFrom k blocks rest → CanonicalFrom k blocks (text :: rest)
  | directive {blocks inner text rest} : (kind k text).structural = true →
      Outline.behind (Text.indentation text) (kind k text) blocks = some inner →
      CanonicalFrom k inner rest → CanonicalFrom k blocks (text :: rest)
  | misplaced {blocks text rest} : (kind k text).structural = true →
      Outline.behind (Text.indentation text) (kind k text) blocks = none →
      CanonicalFrom k blocks (text :: rest)

/-- Every line inside a block is one of its two forms, and the eval lines outside
of all blocks hide no directive. -/
def Canonical (k : Keywords) (lines : List Text) : Prop := CanonicalFrom k [] lines

/-! ### What is canonical stays canonical -/

theorem Clear.clear_reveal {text : Text} (h : Clear k text) : Clear k (reveal k text) := by
  intro he
  by_cases hkind : kind k text = .eval
  · rw [reveal_of_kind_eval hkind, h hkind] at he
    cases he
  · rw [reveal_of_kind_ne hkind] at he
    exact absurd he hkind

theorem active_of_outlines {s : Stack} (h : Outline.ofStack s = []) : s.active = true := by
  rw [Outline.ofStack, List.map_eq_nil_iff] at h
  rw [Stack.active, h]
  rfl

theorem indent_of_outlines {s : Stack} {innermost : Outline} {outer : List Outline}
    (h : Outline.ofStack s = innermost :: outer) : s.indent = innermost.indent := by
  obtain ⟨frame, frames, hf, rfl, _⟩ := List.map_eq_cons_iff.1 h
  rw [Stack.indent, hf]

namespace CanonicalAt
variable {blocks : List Outline} {text : Text} {s s' : Stack}

theorem clear (hk : k.EvalApart) (h : CanonicalAt k blocks text) : Clear k text := by
  cases blocks with
  | nil => exact h
  | cons innermost outer =>
    intro he
    obtain ⟨shown, hidden, hforms, ht⟩ := CanonicalLine.forms h
    rw [← reveal_of_kind_eval he, hforms.reveal_eq hk ht]
    exact hforms.kind_shown hk

theorem rewrite (hk : k.EvalApart) (h : CanonicalAt k blocks text)
    (hs : Outline.ofStack s = blocks) : CanonicalAt k blocks (Source.rewrite k s (.same text)) := by
  cases blocks with
  | nil =>
    rw [rewrite_of_active (active_of_outlines hs)]
    exact Clear.clear_reveal h
  | cons innermost outer =>
    have hi := indent_of_outlines hs
    obtain ⟨shown, hidden, hforms, ht⟩ := CanonicalLine.forms h
    rw [← hi] at hforms
    rw [hforms.rewrite_eq hk ht, CanonicalAt, ← hi]
    split
    · exact hforms.canonicalLine_shown
    · exact hforms.canonicalLine_hidden

/-- What one stack made of a line does not show after another one. -/
theorem rewrite_rewrite (hk : k.EvalApart) (h : CanonicalAt k blocks text)
    (hs : Outline.ofStack s = blocks) (hs' : Outline.ofStack s' = blocks) :
    Source.rewrite k s' (.same (Source.rewrite k s (.same text))) =
      Source.rewrite k s' (.same text) := by
  cases blocks with
  | nil =>
    rw [rewrite_of_active (active_of_outlines hs), rewrite_of_active (active_of_outlines hs'),
      rewrite_of_active (active_of_outlines hs')]
    exact Clear.reveal_reveal h
  | cons innermost outer =>
    obtain ⟨shown, hidden, hforms, ht⟩ := CanonicalLine.forms h
    have hforms' := hforms
    rw [← indent_of_outlines hs] at hforms
    rw [← indent_of_outlines hs'] at hforms'
    have hout : Source.rewrite k s (.same text) = shown ∨
        Source.rewrite k s (.same text) = hidden := by
      rw [hforms.rewrite_eq hk ht]
      cases s.active with
      | true => exact .inl rfl
      | false => exact .inr rfl
    rw [hforms'.rewrite_eq hk hout, hforms'.rewrite_eq hk ht]

end CanonicalAt

/-- What came out of canonical lines is canonical, and every stack with the same
outlines reads it as it reads the lines themselves. -/
theorem CanonicalFrom.scan (hk : k.EvalApart) {context : Context} {blocks : List Outline}
    {lines out : List Text} {s t : Stack} (h : CanonicalFrom k blocks lines)
    (hs : Outline.ofStack s = blocks) (hscan : scan k context s (asIs lines) = .ok (t, out)) :
    CanonicalFrom k blocks out ∧
      ∀ (context' : Context) (s' : Stack), Outline.ofStack s' = blocks →
        Source.scan k context' s' (asIs out) = Source.scan k context' s' (asIs lines) := by
  induction h generalizing s out with
  | nil =>
    cases hscan
    exact ⟨.nil, fun _ _ _ => rfl⟩
  | @line blocks text rest hn hat _ ih =>
    rw [asIs_cons] at hscan
    obtain ⟨u, first, more, ha, hrest, rfl⟩ := scan_cons_ok.1 hscan
    rw [advance_same s hn] at ha
    cases ha
    obtain ⟨hmore, hsame⟩ := ih (s := next s) hs hrest
    have hout : (kind k (rewrite k s (.same text))).structural = false :=
      structural_rewrite hk hn fun _ => hat.clear hk
    refine ⟨.line hout (hat.rewrite hk hs) hmore, fun context' s' hs' => ?_⟩
    simp only [asIs_cons, Source.scan, advance_same s' hn, advance_same s' hout,
      hat.rewrite_rewrite hk hs hs', ok_bind, hsame context' (next s') hs']
  | @directive blocks inner text rest hstructural hinner _ ih =>
    rw [asIs_cons] at hscan
    obtain ⟨u, first, more, ha, hrest, rfl⟩ := scan_cons_ok.1 hscan
    have outlines {context : Context} {s u : Stack} {first : Text}
        (hs : Outline.ofStack s = blocks)
        (ha : advance k context s (.same text) = .ok (u, first)) :
        first = text ∧ Outline.ofStack u = inner := by
      obtain ⟨hfirst, hstep⟩ := step_of_advance k context hstructural ha
      have hbehind := Outline.behind_of_step hstep
      rw [show Outline.ofStack (next s) = blocks from hs] at hbehind
      exact ⟨hfirst, Option.some.inj (hbehind.symm.trans hinner)⟩
    obtain ⟨rfl, hu⟩ := outlines hs ha
    obtain ⟨hmore, hsame⟩ := ih hu hrest
    refine ⟨.directive hstructural hinner hmore, fun context' s' hs' => ?_⟩
    simp only [asIs_cons, Source.scan]
    cases ha' : advance k context' s' (.same first) with
    | error e => rfl
    | ok p => simp only [ok_bind, hsame context' p.1 (outlines hs' ha').2]
  | @misplaced blocks text rest hstructural hnone =>
    rw [asIs_cons] at hscan
    obtain ⟨u, first, more, ha, _⟩ := scan_cons_ok.1 hscan
    have hbehind := Outline.behind_of_step (step_of_advance k context hstructural ha).2
    rw [show Outline.ofStack (next s) = blocks from hs] at hbehind
    cases hbehind.symm.trans hnone

/-! ### Many passes -/

/-- A pass over a text. A pass that fails leaves the text as it is. -/
def switch (k : Keywords) (lines : List Text) (context : Context) : List Text :=
  match pass k context lines with
  | .ok out => out
  | .error _ => lines

/-- A pass over a canonical text gives a canonical text, on which every pass comes
to the same. -/
theorem Canonical.switch (hk : k.EvalApart) {lines : List Text} (h : Canonical k lines)
    (context : Context) :
    Canonical k (switch k lines context) ∧
      ∀ context', pass k context' (Source.switch k lines context) = pass k context' lines := by
  rw [Source.switch]
  cases hp : pass k context lines with
  | error e => exact ⟨h, fun _ => rfl⟩
  | ok out =>
    obtain ⟨t, hscan, _⟩ := result_eq_ok.1 hp
    obtain ⟨hout, hsame⟩ := CanonicalFrom.scan hk h (s := .start) rfl hscan
    refine ⟨hout, fun context' => ?_⟩
    rw [pass, pass, result_convert, result_convert, hsame context' .start rfl]

/-- **The last environment decides.** After any passes over a canonical text the
next pass comes to what it comes to on the text itself, a result or an error. -/
theorem pass_foldl_switch (hk : k.EvalApart) {lines : List Text} (h : Canonical k lines)
    (contexts : List Context) (last : Context) :
    pass k last (contexts.foldl (switch k) lines) = pass k last lines := by
  induction contexts generalizing lines with
  | nil => rfl
  | cons context rest ih =>
    obtain ⟨hcanonical, hsame⟩ := h.switch hk context
    rw [List.foldl_cons, ih hcanonical, hsame]

/-- Two passes, one without the name of the block and one with it: the lines of the
block are back, those that were commented out before among them. -/
theorem pass_foldl_switch_bound_name :
    Keywords.standard.EvalApart ∧
      Canonical .standard
        (["  //#ifdef A", " x", "", "  //$$ y", "  //#endif", "//$$ z"].map String.toText) ∧
      pass .standard ⟨.insert .empty "A".toText 1, "a.java".toText⟩
          ([⟨.empty, "a.java".toText⟩].foldl (switch .standard)
            (["  //#ifdef A", " x", "", "  //$$ y", "  //#endif", "//$$ z"].map String.toText)) =
        .ok (["  //#ifdef A", " x", "", "  y", "  //#endif", "z"].map String.toText) := by
  have hcanonical : Canonical .standard
      (["  //#ifdef A", " x", "", "  //$$ y", "  //#endif", "//$$ z"].map String.toText) :=
    .directive rfl rfl <|
    .line rfl (.plain (by decide) (by decide)) <|
    .line rfl .empty <|
    .line rfl (@CanonicalLine.commented .standard 2 "y".toText (by decide) (by decide)) <|
    .directive rfl rfl <|
    .line rfl (fun _ => by decide) .nil
  exact ⟨Keywords.standard_evalApart, hcanonical,
    (pass_foldl_switch Keywords.standard_evalApart hcanonical _ _).trans rfl⟩

end Multiversion.Source
