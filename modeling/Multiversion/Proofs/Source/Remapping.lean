import Mathlib.Data.List.Forall2
import Multiversion.Proofs.Source.Scan

/-! What a remap cannot do to the blocks.

Directives are recognized on the text that a remap gave, so a remap could open and close
blocks at will. It cannot as long as it is told apart by nothing but what it says in lines
that are not structural, their kind, leading spaces and blankness aside (`Akin`): the stack
in front of every line is the same (`scan_akin`), and with it whether there is a result and
which error there is otherwise.

What still differs are lines that show their remapped text. `Fixed` lists the others, by
the stack in front of them, and `result_of_akin` says that they come out the same. -/
namespace Multiversion.Source
open Block (Stack Context)

variable {k : Keywords} {context : Context}

variable (k) in
/-- Two remapped texts that direct alike. -/
structure Akin (r r' : Remapped) : Prop where
  kind : Source.kind k r.text = Source.kind k r'.text
  text : (Source.kind k r.text).structural = true → r.text = r'.text
  indentation : (Source.kind k r.text).structural = false →
    Text.indentation r.text = Text.indentation r'.text
  blank : (Source.kind k r.text).structural = false →
    Text.isBlank r.text = Text.isBlank r'.text

variable (k) in
/-- A line with two texts that direct alike. -/
def AkinLines (line line' : Line) : Prop :=
  line.raw = line'.raw ∧ Akin k line.remapped line'.remapped

variable (k) in
/-- A remapped text that does not show behind a stack, except by its kind, leading spaces
and blankness, or that is a directive. -/
inductive Fixed (s : Stack) (text : Text) : Prop
  | structural : (kind k text).structural = true → Fixed s text
  | blank : s.active = false → Text.isBlank text = true → Fixed s text
  | commented : s.active = false → kind k text = .plain → s.indent ≤ Text.indentation text →
      Fixed s text
  | raw : s.active = true → kind k text = .plain → s.remapping = false → Fixed s text

theorem Akin.symm {r r' : Remapped} (h : Akin k r r') : Akin k r' r where
  kind := h.kind.symm
  text hs := (h.text (h.kind ▸ hs)).symm
  indentation hs := (h.indentation (h.kind ▸ hs)).symm
  blank hs := (h.blank (h.kind ▸ hs)).symm

theorem AkinLines.symm {line line' : Line} (h : AkinLines k line line') :
    AkinLines k line' line := ⟨h.1.symm, h.2.symm⟩

/-! ### One line -/

/-- What such a text becomes depends on nothing else that the remap said. -/
theorem rewrite_of_fixed {s : Stack} {line line' : Line} (h : AkinLines k line line')
    (hn : (kind k line.remapped.text).structural = false) (hf : Fixed k s line.remapped.text) :
    rewrite k s line = rewrite k s line' := by
  have hkind := h.2.kind
  have hindent := h.2.indentation hn
  have hblank := h.2.blank hn
  cases hf with
  | structural hs => rw [hs] at hn; contradiction
  | blank ha hb =>
    have hb' := hblank ▸ hb
    simp [rewrite, adapt, ha, hb, hb']
  | commented ha hp hi =>
    have hp' := hkind ▸ hp
    have hi' := hindent ▸ hi
    simp [rewrite, adapt, ha, hp, hp', hi, hi', hblank, h.1]
  | raw ha hp hr =>
    have hp' := hkind ▸ hp
    simp [rewrite, adapt, ha, hp, hp', hr, h.1]

/-- Lines with texts that direct alike lead to the same stack, or to the same error, and
they come out the same where the text does not show. -/
theorem advance_akin (context : Context) (s : Stack) {line line' : Line}
    (h : AkinLines k line line') :
    (∃ t text text', advance k context s line = .ok (t, text) ∧
        advance k context s line' = .ok (t, text') ∧
        (Fixed k s line.remapped.text → text = text')) ∨
      ∃ e, advance k context s line = .error e ∧ advance k context s line' = .error e := by
  obtain ⟨raw, r⟩ := line
  obtain ⟨raw', r'⟩ := line'
  cases hk : (kind k r.text).structural with
  | false =>
    have hk' : (kind k r'.text).structural = false := h.2.kind ▸ hk
    exact .inl ⟨next s, _, _, advance_of_not_structural k context s hk,
      advance_of_not_structural k context s hk', rewrite_of_fixed h hk⟩
  | true =>
    have htext : r.text = r'.text := h.2.text hk
    have hsame : advance k context s ⟨raw', r'⟩ = advance k context s ⟨raw, r⟩ := by
      have hk' : (Directive.read k (Text.strip r.text)).kind.structural = true := hk
      simp only [advance, convertLine, ← htext, hk', if_true]
    rw [hsame]
    cases advance k context s ⟨raw, r⟩ with
    | ok p => exact .inl ⟨p.1, p.2, p.2, rfl, rfl, fun _ => rfl⟩
    | error e => exact .inr ⟨e, rfl, rfl⟩

/-! ### All lines -/

theorem forall₂_pair {r r' : List Remapped} (h : List.Forall₂ (Akin k) r r')
    (lines : List Text) : List.Forall₂ (AkinLines k) (pair lines r) (pair lines r') := by
  induction h generalizing lines with
  | nil => cases lines <;> exact .nil
  | cons hfirst _ ih =>
    cases lines with
    | nil => exact .nil
    | cons line rest => exact .cons ⟨rfl, hfirst⟩ (ih rest)

theorem scan_error_akin {ls ls' : List Line} (h : List.Forall₂ (AkinLines k) ls ls') {s : Stack}
    {e : Block.Error} (hs : scan k context s ls = .error e) :
    scan k context s ls' = .error e := by
  induction h generalizing s with
  | nil => exact hs
  | cons hfirst _ ih =>
    rcases advance_akin context s hfirst with ⟨t, text, text', ha, ha', -⟩ | ⟨e', ha, ha'⟩
    · simp only [scan, ha, ok_bind] at hs
      rcases bind_eq_error.1 hs with hrest | ⟨_, _, h⟩
      · simp only [scan, ha', ok_bind, ih hrest, error_bind]
      · cases h
    · simp only [scan, ha, error_bind] at hs
      simp only [scan, ha', error_bind, hs]

/-- Lines with texts that direct alike are read alike: the stack in front of every line
is the same. -/
theorem scan_akin {ls ls' : List Line} (h : List.Forall₂ (AkinLines k) ls ls') {s u : Stack}
    {texts : List Text} (hs : scan k context s ls = .ok (u, texts)) :
    ∃ texts', scan k context s ls' = .ok (u, texts') ∧ texts'.length = texts.length ∧
      ∀ i line, ls[i]? = some line → ∃ t x, scan k context s (ls.take i) = .ok (t, x) ∧
        (Fixed k t line.remapped.text → texts[i]? = texts'[i]?) := by
  induction h generalizing s texts with
  | nil =>
    cases hs
    exact ⟨[], rfl, rfl, nofun⟩
  | @cons line line' _ _ hfirst _ ih =>
    obtain ⟨t, text, more, ha, hrest, rfl⟩ := scan_cons_ok.1 hs
    obtain ⟨more', hrest', hlength, hmore⟩ := ih hrest
    rcases advance_akin context s hfirst with ⟨v, x, text', hx, ha', hsame⟩ | ⟨e, hx, -⟩
    · rw [ha] at hx
      cases hx
      refine ⟨text' :: more', scan_cons_ok.2 ⟨t, text', more', ha', hrest', rfl⟩,
        congrArg (· + 1) hlength, fun i l hl => ?_⟩
      cases i with
      | zero =>
        obtain rfl := Option.some.inj hl
        exact ⟨s, [], rfl, fun hf => congrArg some (hsame hf)⟩
      | succ i =>
        obtain ⟨w, before, hbefore, hf⟩ := hmore i l hl
        exact ⟨w, text :: before, scan_cons_ok.2 ⟨t, text, before, ha, hbefore, rfl⟩, hf⟩
    · rw [ha] at hx
      cases hx

theorem result_error_akin {ls ls' : List Line} (h : List.Forall₂ (AkinLines k) ls ls')
    {e : Block.Error} (hr : (convert k context ls).result = .error e) :
    (convert k context ls').result = .error e := by
  rw [result_convert] at hr ⊢
  rcases bind_eq_error.1 hr with hs | ⟨⟨u, texts⟩, hs, hend⟩
  · rw [scan_error_akin h hs]
    rfl
  · obtain ⟨texts', hs', -⟩ := scan_akin h hs
    rw [hs', ok_bind]
    simp only [conclude] at hend ⊢
    cases hf : u.frames with
    | nil => simp [hf] at hend
    | cons top outer => simpa only [hf] using hend

/-- **A remap cannot disturb the blocks.** Two remaps of the same lines whose texts direct
alike have the same error, or both have a result. The results are then equal at every line
whose text does not show: at directives, at blank lines of a region that is not selected
and at its plain lines that are indented with their block or deeper, and at plain lines of
a selected region while remapping is off. -/
theorem result_of_akin (lines : List Text) {r r' : List Remapped}
    (h : List.Forall₂ (Akin k) r r') :
    (∀ e, (convert k context (pair lines r)).result = .error e ↔
        (convert k context (pair lines r')).result = .error e) ∧
      ∀ out, (convert k context (pair lines r)).result = .ok out →
        ∃ out', (convert k context (pair lines r')).result = .ok out' ∧
          out'.length = out.length ∧
          ∀ i line, (pair lines r)[i]? = some line →
            ∃ s texts, scan k context .start ((pair lines r).take i) = .ok (s, texts) ∧
              (Fixed k s line.remapped.text → out[i]? = out'[i]?) := by
  have hpair := forall₂_pair h lines
  have hback := forall₂_pair (h.flip.imp fun _ _ hr => hr.symm) lines
  refine ⟨fun e => ⟨result_error_akin hpair, result_error_akin hback⟩, fun out hout => ?_⟩
  obtain ⟨u, hscan, hclosed⟩ := result_eq_ok.1 hout
  obtain ⟨out', hscan', hlength, hfixed⟩ := scan_akin hpair hscan
  exact ⟨out', result_eq_ok.2 ⟨u, hscan', hclosed⟩, hlength, hfixed⟩

/-- A line where remapping is off, and a block that is not selected. -/
def darkened : List Text :=
  ["//#disable-remap".toText, "a".toText, "//#ifdef A".toText, "  b".toText, [],
    "//#endif".toText]

/-- What a remap makes of them, given what it makes of the three lines that do not direct. -/
def darkenedAs (line inner empty : Text) : List Remapped :=
  unchanged ["//#disable-remap".toText, line, "//#ifdef A".toText, inner, empty,
    "//#endif".toText]

/-- None of the three lines shows which of two remaps it went through. -/
theorem result_of_akin_darkened :
    List.Forall₂ (Akin .standard) (darkenedAs "x".toText "  u".toText [])
        (darkenedAs "yy".toText "  //v".toText "\t".toText) ∧
      ∃ out', (convert .standard ⟨.empty, "a.java".toText⟩
          (pair darkened (darkenedAs "yy".toText "  //v".toText "\t".toText))).result = .ok out' ∧
        out'.length = 6 ∧ out'[1]? = some "a".toText ∧ out'[3]? = some "//$$   b".toText ∧
        out'[4]? = some "//$$".toText := by
  have h : List.Forall₂ (Akin .standard) (darkenedAs "x".toText "  u".toText [])
      (darkenedAs "yy".toText "  //v".toText "\t".toText) := by
    repeat' apply List.Forall₂.cons
    all_goals first
      | exact .nil
      | exact ⟨by decide, by decide, by decide, by decide⟩
  have hout : (convert .standard ⟨.empty, "a.java".toText⟩
      (pair darkened (darkenedAs "x".toText "  u".toText []))).result =
        .ok ["//#disable-remap".toText, "a".toText, "//#ifdef A".toText, "//$$   b".toText,
          "//$$".toText, "//#endif".toText] := rfl
  obtain ⟨-, hresult⟩ := @result_of_akin .standard ⟨.empty, "a.java".toText⟩ darkened _ _ h
  obtain ⟨out', hout', hlength, hfixed⟩ := hresult _ hout
  obtain ⟨s, texts, hs, hline⟩ := hfixed 1 _ rfl
  obtain ⟨t, texts', ht, hinner⟩ := hfixed 3 _ rfl
  obtain ⟨u, texts'', hu, hempty⟩ := hfixed 4 _ rfl
  cases hs
  cases ht
  cases hu
  refine ⟨h, out', hout', hlength, ?_, ?_, ?_⟩
  · exact (hline (.raw rfl (by decide) rfl)).symm
  · exact (hinner (.commented rfl (by decide) (by decide))).symm
  · exact (hempty (.blank rfl rfl)).symm

end Multiversion.Source
