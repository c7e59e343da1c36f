import Multiversion.Proofs.Source.Scan

/-! What becomes of a line when no remap changes it.

In an active region an eval line is enabled and any other line stays. In an
inactive region (`cover`) a line is commented out at the indentation of the block,
unless it is an eval line already or starts before that column. Either way no
directive comes out of it (`structural_rewrite`), and the same stack leaves the
line that came out as it is (`rewrite_rewrite`).

`pass_pass`: a second pass with the same environment changes nothing, whatever the
text, if the eval lines that the first one enabled came out plain. -/
namespace Multiversion.Source
open Block (Stack Context)

variable {k : Keywords}

/-! ### One line -/

/-- What a line that is not structural becomes in an inactive block. -/
def cover (k : Keywords) (indent : Nat) (text : Text) : Text :=
  if Text.isBlank text then placeholder k indent
  else if kind k text ≠ .eval ∧ indent ≤ Text.indentation text then
    commented k indent (text.drop indent)
  else text

/-- What a line that is not structural becomes in an active block. -/
def reveal (k : Keywords) (text : Text) : Text :=
  if kind k text = .eval then enable k text else text

theorem rewrite_of_active {s : Stack} (h : s.active = true) (text : Text) :
    rewrite k s (.same text) = reveal k text := by
  by_cases he : kind k text = .eval <;> cases hr : s.remapping <;>
    simp [rewrite, adapt, reveal, Line.same, h, hr, he]

theorem rewrite_of_inactive {s : Stack} (h : s.active = false) (text : Text) :
    rewrite k s (.same text) = cover k s.indent text := by
  by_cases hb : Text.isBlank text = true <;> by_cases he : kind k text = .eval <;>
    by_cases hd : s.indent ≤ Text.indentation text <;>
    simp [rewrite, adapt, cover, Line.same, placeholder, commented, h, hb, he, hd]

theorem cover_of_kind_eval (hs : Text.startsVisible k.eval = true) {text : Text}
    (h : kind k text = .eval) (indent : Nat) : cover k indent text = text := by
  simp [cover, isBlank_of_kind_eval hs h, h]

/-- A line that was covered is an eval line, or it is as it was. -/
theorem cover_cases (hk : k.EvalApart) (indent : Nat) (text : Text) :
    kind k (cover k indent text) = .eval ∨ cover k indent text = text := by
  unfold cover
  split
  · exact .inl (kind_placeholder hk indent)
  · split
    · exact .inl (kind_commented hk indent _)
    · exact .inr rfl

theorem cover_cover (hk : k.EvalApart) (indent : Nat) (text : Text) :
    cover k indent (cover k indent text) = cover k indent text := by
  rcases cover_cases hk indent text with h | h
  · exact cover_of_kind_eval hk.starts h indent
  · rw [h, h]

theorem reveal_of_kind_eval {text : Text} (h : kind k text = .eval) :
    reveal k text = enable k text := if_pos h

theorem reveal_of_kind_ne {text : Text} (h : kind k text ≠ .eval) : reveal k text = text :=
  if_neg h

/-- An eval line that is enabled shows no other directive. -/
def Clear (k : Keywords) (text : Text) : Prop :=
  kind k text = .eval → kind k (enable k text) = .plain

theorem Clear.reveal_reveal {text : Text} (h : Clear k text) :
    reveal k (reveal k text) = reveal k text := by
  by_cases he : kind k text = .eval
  · rw [reveal_of_kind_eval he]
    exact reveal_of_kind_ne (by rw [h he]; decide)
  · rw [reveal_of_kind_ne he, reveal_of_kind_ne he]

theorem Clear.structural_reveal {text : Text} (h : Clear k text)
    (hn : (kind k text).structural = false) : (kind k (reveal k text)).structural = false := by
  by_cases he : kind k text = .eval
  · rw [reveal_of_kind_eval he, h he]
    rfl
  · rwa [reveal_of_kind_ne he]

theorem structural_cover (hk : k.EvalApart) (indent : Nat) {text : Text}
    (hn : (kind k text).structural = false) :
    (kind k (cover k indent text)).structural = false := by
  rcases cover_cases hk indent text with h | h
  · rw [h]
    rfl
  · rwa [h]

/-- No directive comes out of a line that is none. -/
theorem structural_rewrite (hk : k.EvalApart) {s : Stack} {text : Text}
    (hn : (kind k text).structural = false) (hc : s.active = true → Clear k text) :
    (kind k (rewrite k s (.same text))).structural = false := by
  cases h : s.active with
  | true =>
    rw [rewrite_of_active h]
    exact (hc h).structural_reveal hn
  | false =>
    rw [rewrite_of_inactive h]
    exact structural_cover hk _ hn

/-- The same stack leaves what came out as it is. -/
theorem rewrite_rewrite (hk : k.EvalApart) {s : Stack} {text : Text}
    (hc : s.active = true → Clear k text) :
    rewrite k s (.same (rewrite k s (.same text))) = rewrite k s (.same text) := by
  cases h : s.active with
  | true =>
    rw [rewrite_of_active h, rewrite_of_active h]
    exact (hc h).reveal_reveal
  | false =>
    rw [rewrite_of_inactive h, rewrite_of_inactive h]
    exact cover_cover hk _ _

/-! ### One pass after the other -/

variable {context : Context}

/-- Plain lines of an active region stay as they are. -/
theorem scan_of_plain {s : Stack} (hs : s.active = true) {lines : List Text}
    (h : ∀ text ∈ lines, kind k text = .plain) :
    ∃ t, scan k context s (asIs lines) = .ok (t, lines) ∧ t.frames = s.frames := by
  induction lines generalizing s with
  | nil => exact ⟨s, rfl, rfl⟩
  | cons text rest ih =>
    have hplain := h text List.mem_cons_self
    have hfirst : advance k context s (.same text) = .ok (next s, text) := by
      rw [advance_same s (by rw [hplain]; rfl), rewrite_of_active hs,
        reveal_of_kind_ne (by rw [hplain]; decide)]
    have hnext : (next s).active = true := hs
    obtain ⟨t, hscan, hframes⟩ := ih hnext fun other hmem => h other (List.mem_cons_of_mem text hmem)
    rw [asIs_cons]
    exact ⟨t, scan_cons_ok.2 ⟨next s, text, rest, hfirst, hscan, rfl⟩, hframes⟩

/-- A text of plain lines comes out as it is. -/
theorem pass_of_plain {lines : List Text} (h : ∀ text ∈ lines, kind k text = .plain) :
    pass k context lines = .ok lines := by
  obtain ⟨t, hscan, hframes⟩ := scan_of_plain (s := .start) rfl h
  exact result_eq_ok.2 ⟨t, hscan, hframes⟩

/-- The eval lines of a text that came out enabled came out plain. In an inactive
region none does: such a line stays, and enabled it is shorter
(`length_enable_lt`). -/
def EnabledPlain (k : Keywords) (lines out : List Text) : Prop :=
  ∀ p ∈ lines.zip out, kind k p.1 = .eval → p.2 = enable k p.1 → kind k p.2 = .plain

instance (k : Keywords) (lines out : List Text) : Decidable (EnabledPlain k lines out) :=
  inferInstanceAs <| Decidable <|
    ∀ p ∈ lines.zip out, kind k p.1 = .eval → p.2 = enable k p.1 → kind k p.2 = .plain

/-- Reading what came out leads to the same stack, and nothing changes. -/
theorem scan_scan (hk : k.EvalApart) {s t : Stack} {lines out : List Text}
    (h : scan k context s (asIs lines) = .ok (t, out)) (hplain : EnabledPlain k lines out) :
    scan k context s (asIs out) = .ok (t, out) := by
  induction lines generalizing s out with
  | nil =>
    cases h
    rfl
  | cons text rest ih =>
    rw [asIs_cons] at h
    obtain ⟨u, first, more, ha, hrest, rfl⟩ := scan_cons_ok.1 h
    have hmore := ih hrest fun p hp => hplain p (List.mem_cons_of_mem _ hp)
    rw [asIs_cons]
    refine scan_cons_ok.2 ⟨u, first, more, ?_, hmore, rfl⟩
    cases hn : (kind k text).structural with
    | true =>
      have hfirst : first = text := (step_of_advance k context hn ha).1
      rw [hfirst] at ha ⊢
      exact ha
    | false =>
      rw [advance_same s hn] at ha
      cases ha
      have hclear : s.active = true → Clear k text := by
        intro hactive he
        have hr : rewrite k s (.same text) = enable k text := by
          rw [rewrite_of_active hactive, reveal_of_kind_eval he]
        rw [← hr]
        exact hplain _ (List.mem_cons_self ..) he hr
      rw [advance_same s (structural_rewrite hk hn hclear), rewrite_rewrite hk hclear]

/-- **A second pass changes nothing**, whatever the text, if the eval lines that
the first pass enabled came out plain. -/
theorem pass_pass (hk : k.EvalApart) {lines out : List Text}
    (h : pass k context lines = .ok out) (hplain : EnabledPlain k lines out) :
    pass k context out = .ok out := by
  obtain ⟨t, hscan, hf⟩ := result_eq_ok.1 h
  exact result_eq_ok.2 ⟨t, scan_scan hk hscan hplain, hf⟩

/-- What comes out of a chain on a name that is not bound, with a line that was
commented out and one that came back, comes out of the next pass too. -/
theorem pass_pass_unbound_name :
    Keywords.standard.EvalApart ∧
      EnabledPlain .standard
        (["//#ifdef A", "  x", "//#else", "//$$ y", "//#endif"].map String.toText)
        (["//#ifdef A", "//$$   x", "//#else", "y", "//#endif"].map String.toText) ∧
      pass .standard ⟨.empty, "a.java".toText⟩
          (["//#ifdef A", "//$$   x", "//#else", "y", "//#endif"].map String.toText) =
        .ok (["//#ifdef A", "//$$   x", "//#else", "y", "//#endif"].map String.toText) := by
  have hplain : EnabledPlain .standard
      (["//#ifdef A", "  x", "//#else", "//$$ y", "//#endif"].map String.toText)
      (["//#ifdef A", "//$$   x", "//#else", "y", "//#endif"].map String.toText) := by decide
  exact ⟨Keywords.standard_evalApart, hplain, pass_pass Keywords.standard_evalApart rfl hplain⟩

end Multiversion.Source
