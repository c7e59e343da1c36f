import Multiversion.Proofs.Layout.Acceptance

/-! What a remap can say where remapping is off.

Remapping that is off does not silence the remap. It keeps the texts and messages of
plain lines back, in an active region because the line of the file stands for them
and in an inactive one because the line is commented out (`Muted`). An eval line, and
a line of an inactive region that is less indented than its block, shows what the
remap made of it all the same (`off_not_muted`).

`convert_eq_of_alike`: two remaps that differ only in muted lines behind a line that
switches remapping off, or in how a blank line of an inactive region is spelled, lead
to the same outcome, result and diagnostics. -/
namespace Multiversion.Layout
open Block (Stack Context)
open Source (Line)

variable (k : Keywords) (context : Context)

/-- Remapping is off behind such lines: the last one that switches it switches it
off. -/
def Off (before : List Line) : Prop := (toggles k before).getLast? = some .disableRemap

instance (before : List Line) : Decidable (Off k before) :=
  inferInstanceAs (Decidable ((toggles k before).getLast? = some .disableRemap))

/-- A text that does not come through while remapping is off: it is plain, and in an
inactive region it is commented out. -/
structure Muted (s : Stack) (text : Text) : Prop where
  plain : Source.kind k text = .plain
  commented : s.active = false →
    Text.isBlank text = false ∧ s.indent ≤ Text.indentation text

/-- What two remaps may make of one line while remapping is off, if nobody is to tell
them apart. -/
inductive Interchangeable (s : Stack) : Remapped → Remapped → Prop
  | muted {r r'} : Muted k s r.text → Muted k s r'.text → Interchangeable s r r'
  | blank {r r'} : s.active = false → (Source.kind k r.text).structural = false →
      Text.isBlank r.text = true → Text.isBlank r'.text = true → r.messages = r'.messages →
      Interchangeable s r r'

/-- What two remaps make of the line behind such lines is the same, or remapping is
off there and the two are interchangeable. -/
def Alike (before : List Line) (r r' : Remapped) : Prop :=
  r = r' ∨ Off k before ∧
    ∀ s texts, Source.scan k context .start before = .ok (s, texts) → Interchangeable k s r r'

variable {k context}

/-! ### One line -/

theorem kind_eq_of_isBlank {text text' : Text} (h : Text.isBlank text = true)
    (h' : Text.isBlank text' = true) : Source.kind k text = Source.kind k text' := by
  have strip_nil {s : Text} (hs : Text.isBlank s = true) : Text.strip s = [] := by
    have hfront : Text.stripFront s = [] :=
      List.dropWhile_eq_nil_iff.2 fun c hc => List.all_eq_true.1 hs c hc
    rw [Text.strip, hfront]
    rfl
  rw [Source.kind, Source.directive, strip_nil h, Source.kind, Source.directive, strip_nil h']

theorem Interchangeable.structural {s : Stack} {r r' : Remapped} (h : Interchangeable k s r r') :
    (Source.kind k r.text).structural = false ∧ (Source.kind k r'.text).structural = false := by
  cases h with
  | muted h h' => exact ⟨by rw [h.plain]; rfl, by rw [h'.plain]; rfl⟩
  | blank _ hn hb hb' _ => exact ⟨hn, by rwa [kind_eq_of_isBlank hb' hb]⟩

/-- A muted text leaves what the file says, and its messages do not surface. -/
theorem Muted.adapt {s : Stack} (hoff : s.remapping = false) {r : Remapped}
    (h : Muted k s r.text) (raw : Text) :
    Source.adapt k s (Source.kind k r.text = .eval) ⟨raw, r⟩ =
      (if s.active then raw
        else Text.spaces s.indent ++ k.eval ++ " ".toText ++ raw.drop s.indent, false) := by
  have hplain : decide (Source.kind k r.text = .eval) = false := by rw [h.plain]; rfl
  cases ha : s.active with
  | true => simp [Source.adapt, ha, hplain, hoff]
  | false =>
    obtain ⟨hb, hi⟩ := h.commented ha
    simp [Source.adapt, ha, hplain, hb, hi]

/-- Interchangeable texts lead to the same line and to the same messages. -/
theorem Interchangeable.adapt {s : Stack} (hoff : s.remapping = false) {r r' : Remapped}
    (h : Interchangeable k s r r') (raw : Text) :
    Source.adapt k s (Source.kind k r.text = .eval) ⟨raw, r⟩ =
        Source.adapt k s (Source.kind k r'.text = .eval) ⟨raw, r'⟩ ∧
      ((Source.adapt k s (Source.kind k r.text = .eval) ⟨raw, r⟩).2 = true →
        r.messages = r'.messages) := by
  cases h with
  | muted h h' =>
    rw [h.adapt hoff, h'.adapt hoff]
    exact ⟨rfl, nofun⟩
  | blank ha _ hb hb' hm =>
    refine ⟨?_, fun _ => hm⟩
    simp [Source.adapt, ha, hb, hb']

/-- Interchangeable texts are converted alike, and messages that surface are the same. -/
theorem Interchangeable.convertLine {s : Stack} (hoff : s.remapping = false) {r r' : Remapped}
    (h : Interchangeable k s r r') (raw : Text) (n : Nat) :
    Source.convertLine k context ⟨raw, r'⟩ { s with line := n } =
        Source.convertLine k context ⟨raw, r⟩ { s with line := n } ∧
      ∀ out t, Source.convertLine k context ⟨raw, r⟩ { s with line := n } = .ok out t →
        out.2 = true → r.messages = r'.messages := by
  obtain ⟨hn, hn'⟩ := h.structural
  have hc := @Source.convertLine_of_not_structural k context ⟨raw, r⟩ hn { s with line := n }
  have hc' := @Source.convertLine_of_not_structural k context ⟨raw, r'⟩ hn' { s with line := n }
  obtain ⟨hadapt, hmessages⟩ := h.adapt hoff raw
  -- What a line becomes does not depend on its number.
  have hline (r : Remapped) :
      Source.adapt k { s with line := n } (Source.kind k r.text = .eval) ⟨raw, r⟩ =
        Source.adapt k s (Source.kind k r.text = .eval) ⟨raw, r⟩ := rfl
  rw [hline] at hc hc'
  refine ⟨by rw [hc, hc', hadapt], fun out t h => ?_⟩
  cases hc.symm.trans h
  exact hmessages

/-! ### All lines -/

theorem remapping_of_off {before : List Line} {s : Stack} {texts : List Text} (h : Off k before)
    (hscan : Source.scan k context .start before = .ok (s, texts)) : s.remapping = false := by
  have hlast := (Switched.of_scan hscan).last
  rw [List.getLast?_cons, h, Option.getD_some, Option.some.injEq] at hlast
  cases hr : s.remapping with
  | false => rfl
  | true =>
    rw [hr] at hlast
    cases hlast

/-- Behind lines that are read, lines that are alike convert alike. The induction is
on the lines that are left, and the stack is the one the lines before lead to. -/
theorem convertFrom_eq_of_alike {before rest rest' : List Line} {s : Stack} {texts : List Text}
    (hscan : Source.scan k context .start before = .ok (s, texts))
    (hraw : rest.map Line.raw = rest'.map Line.raw)
    (halike : ∀ i line line', rest[i]? = some line → rest'[i]? = some line' →
      Alike k context (before ++ rest.take i) line.remapped line'.remapped) :
    Source.convertFrom k context s.line s rest = Source.convertFrom k context s.line s rest' := by
  induction rest generalizing before rest' s texts with
  | nil =>
    rw [List.map_nil, eq_comm, List.map_eq_nil_iff] at hraw
    rw [hraw]
  | cons line more ih =>
    rw [List.map_cons, eq_comm, List.map_eq_cons_iff] at hraw
    obtain ⟨⟨raw, r'⟩, more', rfl, hline, hmore⟩ := hraw
    obtain ⟨_, r⟩ := line
    obtain rfl : raw = _ := hline
    have hnext {t : Stack} {out : Text × Bool}
        (hc : Source.convertLine k context ⟨raw, r⟩ { s with line := s.line + 1 } = .ok out t) :
        Source.convertFrom k context (s.line + 1) t more =
          Source.convertFrom k context (s.line + 1) t more' := by
      have ha : Source.advance k context s ⟨raw, r⟩ = .ok (t, out.1) := by
        simp only [Source.advance, hc]
      rw [← Source.line_of_advance k context ha]
      refine ih (Source.scan_concat_ok.2 ⟨s, texts, _, hscan, ha, rfl⟩) hmore.symm
        fun i l l' hl hl' => ?_
      have := halike (i + 1) l l' (by simpa using hl) (by simpa using hl')
      rwa [List.take_succ_cons, List.append_cons] at this
    have hfirst := halike 0 _ _ rfl rfl
    rw [List.take_zero, List.append_nil] at hfirst
    obtain ⟨hline, hmessages⟩ :
        Source.convertLine k context ⟨raw, r'⟩ { s with line := s.line + 1 } =
            Source.convertLine k context ⟨raw, r⟩ { s with line := s.line + 1 } ∧
          ∀ out t, Source.convertLine k context ⟨raw, r⟩ { s with line := s.line + 1 } = .ok out t →
            out.2 = true → r.messages = r'.messages := by
      rcases hfirst with hsame | ⟨hoff, hint⟩
      · obtain rfl : r = r' := hsame
        exact ⟨rfl, fun _ _ _ _ => rfl⟩
      · exact (hint s texts hscan).convertLine (remapping_of_off hoff hscan) raw _
    simp only [Source.convertFrom, hline]
    cases hc : Source.convertLine k context ⟨raw, r⟩ { s with line := s.line + 1 } with
    | error e t => rfl
    | ok out t =>
      simp only [hnext hc]
      obtain ⟨text, surfaces⟩ := out
      cases surfaces with
      | false => rfl
      | true => rw [hmessages _ _ hc rfl]

/-- **Muted lines do not show.** Two remaps of the same lines that are alike line by
line lead to the same outcome: the same result, and the same diagnostics. -/
theorem convert_eq_of_alike {lines lines' : List Line}
    (hraw : lines.map Line.raw = lines'.map Line.raw)
    (halike : ∀ i line line', lines[i]? = some line → lines'[i]? = some line' →
      Alike k context (lines.take i) line.remapped line'.remapped) :
    Source.convert k context lines = Source.convert k context lines' :=
  @convertFrom_eq_of_alike k context [] _ _ _ _ rfl hraw halike

/-- A region without remapping that a block ends in, as one remap or another gives it
back: a line, and a line of a block that is not selected. -/
def offRegion (shown hidden : Remapped) : List Line :=
  [.same "//#disable-remap".toText, ⟨"x".toText, shown⟩, .same "//#ifdef A".toText,
    ⟨" y".toText, hidden⟩, .same "//#endif".toText]

/-- The two lines of the region come out as the file has them, whatever two remaps
made of them. -/
theorem convert_eq_offRegion :
    (offRegion ⟨"u".toText, ["m".toText]⟩ ⟨" v".toText, []⟩).map Line.raw =
        (offRegion ⟨"".toText, []⟩ ⟨" w".toText, ["n".toText]⟩).map Line.raw ∧
      Alike .standard ⟨.empty, "a.java".toText⟩
        ((offRegion ⟨"u".toText, ["m".toText]⟩ ⟨" v".toText, []⟩).take 3)
        ⟨" v".toText, []⟩ ⟨" w".toText, ["n".toText]⟩ ∧
      Source.convert .standard ⟨.empty, "a.java".toText⟩
          (offRegion ⟨"u".toText, ["m".toText]⟩ ⟨" v".toText, []⟩) =
        Source.convert .standard ⟨.empty, "a.java".toText⟩
          (offRegion ⟨"".toText, []⟩ ⟨" w".toText, ["n".toText]⟩) := by
  have hshown : Alike .standard ⟨.empty, "a.java".toText⟩
      ((offRegion ⟨"u".toText, ["m".toText]⟩ ⟨" v".toText, []⟩).take 1)
      ⟨"u".toText, ["m".toText]⟩ ⟨"".toText, []⟩ := by
    refine .inr ⟨by decide, fun s texts h => ?_⟩
    cases h
    exact .muted ⟨by decide, by decide⟩ ⟨by decide, by decide⟩
  have hhidden : Alike .standard ⟨.empty, "a.java".toText⟩
      ((offRegion ⟨"u".toText, ["m".toText]⟩ ⟨" v".toText, []⟩).take 3)
      ⟨" v".toText, []⟩ ⟨" w".toText, ["n".toText]⟩ := by
    refine .inr ⟨by decide, fun s texts h => ?_⟩
    cases h
    exact .muted ⟨by decide, by decide⟩ ⟨by decide, by decide⟩
  have hraw : (offRegion ⟨"u".toText, ["m".toText]⟩ ⟨" v".toText, []⟩).map Line.raw =
      (offRegion ⟨"".toText, []⟩ ⟨" w".toText, ["n".toText]⟩).map Line.raw := by
    simp only [offRegion, List.map_cons, List.map_nil]
  refine ⟨hraw, hhidden, ?_⟩
  refine convert_eq_of_alike hraw ?_
  intro i line line' h h'
  match i with
  | 0 | 2 | 4 =>
    obtain rfl := Option.some.inj h
    obtain rfl := Option.some.inj h'
    exact .inl rfl
  | 1 =>
    obtain rfl := Option.some.inj h
    obtain rfl := Option.some.inj h'
    exact hshown
  | 3 =>
    obtain rfl := Option.some.inj h
    obtain rfl := Option.some.inj h'
    exact hhidden
  | n + 5 => cases h

/-- Not all that lies in the region is muted: the eval line behind the switch shows
what the remap made of it. -/
theorem off_not_muted :
    ¬∀ lines lines' : List Line, lines.map Line.raw = lines'.map Line.raw →
      (∀ i line line', lines[i]? = some line → lines'[i]? = some line' →
        line.remapped = line'.remapped ∨ Off .standard (lines.take i) ∧
          (Source.kind .standard line.remapped.text).structural = false ∧
          (Source.kind .standard line'.remapped.text).structural = false) →
      Source.convert .standard ⟨.empty, "a.java".toText⟩ lines =
        Source.convert .standard ⟨.empty, "a.java".toText⟩ lines' := by
  intro h
  have hsame := h [.same "//#disable-remap".toText, .same "//$$ a".toText]
    [.same "//#disable-remap".toText, ⟨"//$$ a".toText, ⟨"//$$ b".toText, []⟩⟩]
    (by simp only [List.map_cons, List.map_nil, Line.same]) fun i line line' hl hl' => by
      match i with
      | 0 =>
        obtain rfl := Option.some.inj hl
        obtain rfl := Option.some.inj hl'
        exact .inl rfl
      | 1 =>
        obtain rfl := Option.some.inj hl
        obtain rfl := Option.some.inj hl'
        exact .inr ⟨by decide, by decide, by decide⟩
      | n + 2 => cases hl
  have hshown : (Source.convert .standard ⟨.empty, "a.java".toText⟩
      [.same "//#disable-remap".toText, .same "//$$ a".toText]).result =
        .ok ["//#disable-remap".toText, "a".toText] := rfl
  have hother : (Source.convert .standard ⟨.empty, "a.java".toText⟩
      [.same "//#disable-remap".toText, ⟨"//$$ a".toText, ⟨"//$$ b".toText, []⟩⟩]).result =
        .ok ["//#disable-remap".toText, "b".toText] := rfl
  rw [hsame, hother] at hshown
  exact absurd (Except.ok.inj hshown) (by decide)

/-- A line of a region that is not selected is shown as the remap gives it back, if it is
indented less than its block. -/
example : (Source.convert .standard ⟨.empty, "a.java".toText⟩
    [.same "//#disable-remap".toText, .same " //#ifdef A".toText, ⟨"x".toText, ⟨"u".toText, []⟩⟩,
      .same " //#endif".toText]).result =
    .ok ["//#disable-remap".toText, " //#ifdef A".toText, "u".toText, " //#endif".toText] := rfl

/-- What the remap says about a blank line of such a region surfaces. -/
example : (Source.convert .standard ⟨.empty, "a.java".toText⟩
    [.same "//#disable-remap".toText, .same "//#ifdef A".toText, ⟨[], ⟨[], ["m".toText]⟩⟩,
      .same "//#endif".toText]).diagnostics = [⟨"a.java".toText, 3, "m".toText⟩] := rfl

end Multiversion.Layout
