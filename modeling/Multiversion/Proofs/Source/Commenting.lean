import Multiversion.Proofs.Source.Scan

/-! What is left of a line that is commented out.

Whether a line is commented out is decided on the text that a remap gave it, but it is the
line of the file that stands behind the token, less as many characters as the block is
indented by. So the line comes back when the token is taken away, if these characters were
spaces; whatever else stood there is gone.

`erase_commented_out`: taking the token and the space behind it away gives the line of the
file back exactly when that line is indented at least as far as its block. -/
namespace Multiversion

/-- A text starts with so many spaces exactly if it can be told from what follows them. -/
theorem Text.spaces_append_drop_eq_iff {n : Nat} {s : Text} :
    Text.spaces n ++ s.drop n = s ↔ n ≤ Text.indentation s := by
  refine ⟨fun h => ?_, Text.spaces_append_drop⟩
  rw [← h, Text.indentation_spaces_append]
  exact Nat.le_add_right _ _

namespace Source
open Block (Stack Context)

variable {k : Keywords} {context : Context}

variable (k) in
/-- A line with such a text is commented out behind a stack. -/
structure CommentedOut (s : Stack) (text : Text) : Prop where
  inactive : s.active = false
  plain : kind k text = .plain
  visible : Text.isBlank text = false
  deep : s.indent ≤ Text.indentation text

instance (s : Stack) (text : Text) : Decidable (CommentedOut k s text) :=
  decidable_of_iff (s.active = false ∧ kind k text = .plain ∧ Text.isBlank text = false ∧
      s.indent ≤ Text.indentation text)
    ⟨fun ⟨h, h', h'', h'''⟩ => ⟨h, h', h'', h'''⟩, fun h => ⟨h.1, h.2, h.3, h.4⟩⟩

/-- The line of the file is commented out, and what the remap says about it does not surface. -/
theorem CommentedOut.adapt {s : Stack} {line : Line} (h : CommentedOut k s line.remapped.text) :
    Source.adapt k s (kind k line.remapped.text = .eval) line =
      (commented k s.indent (line.raw.drop s.indent), false) := by
  simp [Source.adapt, commented, h.inactive, h.plain, h.visible, h.deep]

/-- The token that a line is commented out with is the first one in it. -/
theorem eraseFirst_commented (hs : Text.startsVisible k.eval = true) (indent : Nat)
    (behind : Text) :
    Text.eraseFirst k.eval (commented k indent behind) = Text.spaces indent ++ behind :=
  Text.eraseFirst_margin_append (Text.isBlank_spaces indent) hs _

/-- **What is commented out comes back if it was indented.** In a result, a line that is
commented out is the line of the file behind the token, without as many characters as its
block is indented by. Taking away the token and the space behind it puts spaces in the place
of these characters, and so it gives the line of the file back exactly when that line is
indented at least as far as its block. -/
theorem erase_commented_out (hs : Text.startsVisible k.eval = true) {lines : List Line}
    {out : List Text} (h : (convert k context lines).result = .ok out) {i : Nat} {line : Line}
    (hi : lines[i]? = some line) :
    ∃ s before text, scan k context .start (lines.take i) = .ok (s, before) ∧
      out[i]? = some text ∧
      (CommentedOut k s line.remapped.text →
        text = commented k s.indent (line.raw.drop s.indent) ∧
          Text.eraseFirst k.eval text = Text.spaces s.indent ++ line.raw.drop s.indent ∧
          (Text.eraseFirst k.eval text = line.raw ↔ s.indent ≤ Text.indentation line.raw)) := by
  obtain ⟨t, hscan, -⟩ := result_eq_ok.1 h
  obtain ⟨s, before, v, text, hbefore, ha, htext⟩ := getElem?_of_scan hscan hi
  refine ⟨s, before, text, hbefore, htext, fun hc => ?_⟩
  have hn : (kind k line.remapped.text).structural = false := by
    rw [hc.plain]
    rfl
  rw [advance_of_not_structural k context s hn, rewrite, hc.adapt] at ha
  cases ha
  rw [eraseFirst_commented hs, Text.spaces_append_drop_eq_iff]
  exact ⟨rfl, rfl, Iff.rfl⟩

/-- A block with two lines that a remap indents. -/
def indented : List Line :=
  [.same "  //#ifdef A".toText, ⟨"   x".toText, ⟨"    u".toText, []⟩⟩,
    ⟨"y".toText, ⟨"  v".toText, []⟩⟩, .same "  //#endif".toText]

/-- Both are commented out. The one that is indented with the block comes back, and of the
other one only the indentation of the block is left. -/
theorem erase_commented_out_indented :
    ∃ out text text', (convert .standard ⟨.empty, "a.java".toText⟩ indented).result = .ok out ∧
      out[1]? = some text ∧ Text.eraseFirst Keywords.standard.eval text = "   x".toText ∧
      out[2]? = some text' ∧ Text.eraseFirst Keywords.standard.eval text' = "  ".toText ∧
      Text.eraseFirst Keywords.standard.eval text' ≠ "y".toText := by
  have hs : Text.startsVisible Keywords.standard.eval = true := by decide
  have h : (convert .standard ⟨.empty, "a.java".toText⟩ indented).result =
      .ok (["  //#ifdef A", "  //$$  x", "  //$$ ", "  //#endif"].map String.toText) := rfl
  obtain ⟨s, before, text, hbefore, htext, hback⟩ := @erase_commented_out _ _ hs _ _ h 1 _ rfl
  obtain ⟨s', before', text', hbefore', htext', hlost⟩ :=
    @erase_commented_out _ _ hs _ _ h 2 _ rfl
  cases hbefore
  cases hbefore'
  obtain ⟨-, -, hraw⟩ := hback ⟨rfl, by decide, by decide, by decide⟩
  obtain ⟨-, hleft, hraw'⟩ := hlost ⟨rfl, by decide, by decide, by decide⟩
  exact ⟨_, text, text', h, htext, hraw.2 (by decide), htext', hleft,
    fun hy => absurd (hraw'.1 hy) (by decide)⟩

end Source

end Multiversion
