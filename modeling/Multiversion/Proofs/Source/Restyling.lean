import Multiversion.Proofs.Condition.Alternatives
import Multiversion.Proofs.Condition.Token
import Multiversion.Proofs.Source.Rewriting

/-! The same text in another comment style.

`restyle` puts the tokens of one keyword set in the place of those of another one and keeps
everything else: the margin in front of a token, what follows it, and all plain lines. A line
is read as the same directive in both styles if the tokens of the two sets stand in each
other as they do among themselves (`Parallel`), and then a conversion of the restyled text is
the restyled conversion, line by line (`advance_restyle`) and so for a whole text
(`scan_restyle`).

`pass_restyle_cfg`: the two named keyword sets are such a pair, so a text without a remap
converts to the same in both styles, or both report the same error. -/
namespace Multiversion

theorem LineKind.eq_plain {kind : LineKind} (hn : kind.structural = false) (he : kind ≠ .eval) :
    kind = .plain := by
  cases kind with
  | plain => rfl
  | eval => exact absurd rfl he
  | _ => cases hn

namespace Keywords

/-- The token of the lines of a kind. Plain lines have none. -/
def token (k : Keywords) : LineKind → Text
  | .ifHolds => k.ifHolds
  | .ifDefined => k.ifDefined
  | .elseIf => k.elseIf
  | .otherwise => k.otherwise
  | .endIf => k.endIf
  | .disableRemap => k.disableRemap
  | .enableRemap => k.enableRemap
  | .eval => k.eval
  | .plain => []

/-- The kinds of line that have a token, in the order the tokens are tried. -/
def marked : List LineKind :=
  [.ifDefined, .ifHolds, .elseIf, .otherwise, .endIf, .disableRemap, .enableRemap, .eval]

/-- The markers of the kinds. -/
def markersOf (k : Keywords) (kinds : List LineKind) : List (LineKind × Text) :=
  kinds.map fun kind => (kind, k.token kind)

theorem markers_eq_markersOf (k : Keywords) : k.markers = k.markersOf marked := rfl

/-- No token has white space at its ends. -/
structure Visible (k : Keywords) : Prop where
  starts : ∀ kind, kind ≠ .plain → Text.startsVisible (k.token kind) = true
  ends : ∀ kind, kind ≠ .plain → Text.endsVisible (k.token kind) = true

theorem standard_visible : standard.Visible := by
  constructor <;> intro kind <;> cases kind <;> decide

theorem cfg_visible : cfg.Visible := by
  constructor <;> intro kind <;> cases kind <;> decide

/-- Where a token of the second set starts with another one, the first set has the same two
tokens with the same text between them. -/
structure Parallel (k k' : Keywords) : Prop where
  visible : k.Visible
  visible' : k'.Visible
  evalApart : k.EvalApart
  evalApart' : k'.EvalApart
  nested : ∀ a b, a ≠ .plain → b ≠ .plain → k'.token a <+: k'.token b →
    k.token b = k.token a ++ (k'.token b).drop (k'.token a).length

/-- `##ifdef` starts with `##if`, as `//#ifdef` does with `//#if`, and `##elseif` with
`##else`; no other token starts with another one. -/
theorem standard_parallel_cfg : Parallel standard cfg where
  visible := standard_visible
  visible' := cfg_visible
  evalApart := standard_evalApart
  evalApart' := cfg_evalApart
  nested a b := by cases a <;> cases b <;> decide

variable {k k' : Keywords}

/-- A token that fits a line in the second style fits it in the first. -/
theorem Parallel.fits (h : Parallel k k') {a b : LineKind} (ha : a ≠ .plain) (hb : b ≠ .plain)
    {s : Text} (hp : k'.token b <+: k'.token a ++ s) : k.token b <+: k.token a ++ s := by
  rcases List.prefix_or_prefix_of_prefix hp (List.prefix_append _ s) with hshort | hlong
  · rw [h.nested b a hb ha hshort, List.append_assoc]
    exact List.prefix_append _ _
  · rw [List.prefix_iff_eq_append.1 hlong |>.symm, List.prefix_append_right_inj] at hp
    rw [h.nested a b ha hb hlong, List.prefix_append_right_inj]
    exact hp

/-- The first token that fits is of the same kind in both styles. -/
theorem Parallel.readAmong_markersOf (h : Parallel k k') {kind : LineKind} (hkind : kind ≠ .plain)
    {s : Text} {kinds : List LineKind} (hkinds : ∀ kind ∈ kinds, kind ≠ .plain)
    (hr : Directive.readAmong (k.token kind ++ s) (k.markersOf kinds) = ⟨kind, s⟩) :
    Directive.readAmong (k'.token kind ++ s) (k'.markersOf kinds) = ⟨kind, s⟩ := by
  induction kinds with
  | nil =>
    cases hr
    exact absurd rfl hkind
  | cons other rest ih =>
    cases ha : Text.after? (k.token other) (k.token kind ++ s) with
    | some argument =>
      simp only [markersOf, List.map_cons, Directive.readAmong, ha] at hr
      cases hr
      simp only [markersOf, List.map_cons, Directive.readAmong, Text.after?_append]
    | none =>
      have hnone : Text.after? (k'.token other) (k'.token kind ++ s) = none := by
        rw [Directive.after?_eq_none_iff] at ha ⊢
        exact fun hp => ha (h.fits hkind (hkinds other List.mem_cons_self) hp)
      simp only [markersOf, List.map_cons, Directive.readAmong, ha] at hr
      simp only [markersOf, List.map_cons, Directive.readAmong, hnone]
      exact ih (fun kind hmem => hkinds kind (List.mem_cons_of_mem _ hmem)) hr

end Keywords

namespace Source
open Block (Stack Context)
open Keywords (Parallel)

variable {k k' : Keywords}

/-- A line that is not plain is its margin, its token and an argument. -/
theorem eq_token_of_kind_ne (hv : k.Visible) {text : Text} (h : kind k text ≠ .plain) :
    ∃ rest, text = Text.margin text ++ (k.token (kind k text) ++ rest) ∧
      directive k text = ⟨kind k text, Text.stripBack rest⟩ := by
  have hr : Directive.readAmong (Text.strip text) k.markers = directive k text := rfl
  rcases Directive.readAmong_eq (Text.strip text) k.markers with ⟨_, he⟩ | ⟨m, hm, argument, hl, he⟩
  · rw [hr] at he
    exact absurd (congrArg Directive.kind he) h
  · rw [hr] at he
    have hkind : m.1 = kind k text := (congrArg Directive.kind he).symm
    rw [Keywords.markers_eq_markersOf] at hm
    obtain ⟨marked, -, rfl⟩ := List.mem_map.1 hm
    subst hkind
    obtain ⟨rest, hrest⟩ := Text.eq_margin_append_of_strip hl
    have hstrip := Text.strip_token (Text.isBlank_margin text) (hv.starts _ h) (hv.ends _ h) rest
    rw [← hrest, hl, List.append_cancel_left_eq] at hstrip
    exact ⟨rest, hrest, by rw [he, hstrip]⟩

/-! ### Restyling -/

/-- The line with the token of its kind in the second set in the place of that in the
first. -/
def restyle (k k' : Keywords) (text : Text) : Text :=
  Text.margin text ++
    (k'.token (kind k text) ++ (Text.stripFront text).drop (k.token (kind k text)).length)

theorem restyle_of_plain {text : Text} (h : kind k text = .plain) : restyle k k' text = text := by
  rw [restyle, h]
  exact Text.margin_append_stripFront text

/-- The token is replaced where it stands, behind the margin. -/
theorem restyle_token (hv : k.Visible) {lead rest : Text} {marked : LineKind}
    (hl : Text.isBlank lead = true) (hne : marked ≠ .plain)
    (hkind : kind k (lead ++ (k.token marked ++ rest)) = marked) :
    restyle k k' (lead ++ (k.token marked ++ rest)) = lead ++ (k'.token marked ++ rest) := by
  have hvisible : Text.startsVisible (k.token marked ++ rest) = true :=
    Text.startsVisible_append (hv.starts marked hne)
  rw [restyle, hkind, Text.margin_append hl hvisible, Text.stripFront_append hl,
    Text.stripFront_of_startsVisible hvisible, List.drop_left]

theorem restyle_eval (h : Parallel k k') {lead : Text} (hl : Text.isBlank lead = true)
    (rest : Text) : restyle k k' (lead ++ (k.eval ++ rest)) = lead ++ (k'.eval ++ rest) := by
  show restyle k k' (lead ++ (k.token .eval ++ rest)) = lead ++ (k'.token .eval ++ rest)
  exact restyle_token h.visible hl nofun (kind_margin_eval h.evalApart hl rest)

theorem restyle_commented (h : Parallel k k') (indent : Nat) (behind : Text) :
    restyle k k' (commented k indent behind) = commented k' indent behind :=
  restyle_eval h (Text.isBlank_spaces indent) _

theorem restyle_placeholder (h : Parallel k k') (indent : Nat) :
    restyle k k' (placeholder k indent) = placeholder k' indent := by
  have := restyle_eval h (Text.isBlank_spaces indent) []
  rwa [List.append_nil, List.append_nil] at this

/-- A line with a token is the same directive in both styles. -/
theorem directive_restyle (h : Parallel k k') {text : Text} (hne : kind k text ≠ .plain) :
    directive k' (restyle k k' text) = directive k text := by
  obtain ⟨rest, htext, hdirective⟩ := eq_token_of_kind_ne h.visible hne
  have hread : Directive.read k (k.token (kind k text) ++ Text.stripBack rest) =
      ⟨kind k text, Text.stripBack rest⟩ := by
    rw [← hdirective, directive]
    conv_rhs => rw [htext]
    rw [Text.strip_token (Text.isBlank_margin text) (h.visible.starts _ hne)
      (h.visible.ends _ hne)]
  have hrestyle : restyle k k' text =
      Text.margin text ++ (k'.token (kind k text) ++ rest) := by
    conv_lhs => rw [htext]
    exact restyle_token h.visible (Text.isBlank_margin text) hne (congrArg (kind k) htext).symm
  rw [hdirective, hrestyle, directive, Text.strip_token (Text.isBlank_margin text)
    (h.visible'.starts _ hne) (h.visible'.ends _ hne)]
  rw [Directive.read, Keywords.markers_eq_markersOf] at hread ⊢
  exact h.readAmong_markersOf hne (by decide) hread

theorem indentation_restyle (h : Parallel k k') (text : Text) :
    Text.indentation (restyle k k' text) = Text.indentation text := by
  by_cases hne : kind k text = .plain
  · rw [restyle_of_plain hne]
  · obtain ⟨rest, htext, -⟩ := eq_token_of_kind_ne h.visible hne
    rw [restyle, Text.indentation_append
      (Text.startsVisible_append (h.visible'.starts _ hne))]
    conv_rhs => rw [htext]
    rw [Text.indentation_append (Text.startsVisible_append (h.visible.starts _ hne))]

variable (k k') in
/-- A line means the same in both styles: it is plain in both if it is in the first, and
what an eval line hides is plain. -/
structure Portable (text : Text) : Prop where
  plain : kind k text = .plain → kind k' text = .plain
  clear : Clear k text

instance (k k' : Keywords) (text : Text) : Decidable (Portable k k' text) :=
  decidable_of_iff ((kind k text = .plain → kind k' text = .plain) ∧
      (kind k text = .eval → kind k (enable k text) = .plain))
    ⟨fun h => ⟨h.1, h.2⟩, fun h => ⟨h.plain, h.clear⟩⟩

theorem Portable.kind_restyle (h : Parallel k k') {text : Text} (ht : Portable k k' text) :
    kind k' (restyle k k' text) = kind k text := by
  by_cases hne : kind k text = .plain
  · rw [restyle_of_plain hne, ht.plain hne, hne]
  · exact congrArg Directive.kind (directive_restyle h hne)

theorem reveal_restyle (h : Parallel k k') {text : Text} (ht : Portable k k' text) :
    reveal k' (restyle k k' text) = restyle k k' (reveal k text) := by
  by_cases he : kind k text = .eval
  · obtain ⟨rest, hrest⟩ := eq_of_kind_eval he
    have hblank := Text.isBlank_margin text
    have hsame : enable k' (restyle k k' text) = enable k text := by
      rw [hrest, restyle_eval h hblank, enable_eq h.evalApart.starts hblank,
        enable_eq h.evalApart'.starts hblank]
    rw [reveal_of_kind_eval he, reveal_of_kind_eval ((ht.kind_restyle h).trans he), hsame,
      restyle_of_plain (ht.clear he)]
  · rw [reveal_of_kind_ne he, reveal_of_kind_ne fun he' => he ((ht.kind_restyle h).symm.trans he')]

theorem cover_restyle (h : Parallel k k') {text : Text} (ht : Portable k k' text)
    (hn : (kind k text).structural = false) (indent : Nat) :
    cover k' indent (restyle k k' text) = restyle k k' (cover k indent text) := by
  by_cases he : kind k text = .eval
  · rw [cover_of_kind_eval h.evalApart.starts he,
      cover_of_kind_eval h.evalApart'.starts ((ht.kind_restyle h).trans he)]
  · have hplain : kind k text = .plain := LineKind.eq_plain hn he
    have hplain' := ht.plain hplain
    rw [restyle_of_plain hplain, cover, cover]
    split
    · exact (restyle_placeholder h indent).symm
    · by_cases hdeep : indent ≤ Text.indentation text
      · rw [if_pos ⟨by rw [hplain']; decide, hdeep⟩, if_pos ⟨he, hdeep⟩]
        exact (restyle_commented h indent _).symm
      · rw [if_neg fun hc => hdeep hc.2, if_neg fun hc => hdeep hc.2]
        exact (restyle_of_plain hplain).symm

theorem rewrite_restyle (h : Parallel k k') {text : Text} (ht : Portable k k' text)
    (hn : (kind k text).structural = false) (s : Stack) :
    rewrite k' s (.same (restyle k k' text)) = restyle k k' (rewrite k s (.same text)) := by
  cases ha : s.active with
  | true =>
    rw [rewrite_of_active ha, rewrite_of_active ha]
    exact reveal_restyle h ht
  | false =>
    rw [rewrite_of_inactive ha, rewrite_of_inactive ha]
    exact cover_restyle h ht hn s.indent

/-! ### A conversion in both styles -/

variable {context : Context}

/-- A line leads to the same stack in both styles, and its result is restyled, or both stop
with the same error. -/
theorem advance_restyle (h : Parallel k k') {text : Text} (ht : Portable k k' text) (s : Stack) :
    advance k' context s (.same (restyle k k' text)) =
      (fun p => (p.1, restyle k k' p.2)) <$> advance k context s (.same text) := by
  cases hn : (kind k text).structural with
  | true =>
    have hne : kind k text ≠ .plain := by
      intro hp
      rw [hp] at hn
      cases hn
    have hdirective := directive_restyle h hne
    have hindent := indentation_restyle h text
    unfold directive at hdirective
    have hn' : (Directive.read k (Text.strip text)).kind.structural = true := hn
    simp only [advance, convertLine, Line.same, hdirective, hindent, hn', if_true, bind,
      EStateM.bind]
    cases Block.Action.apply context (Directive.read k (Text.strip text))
      (Text.indentation text) { s with line := s.line + 1 } <;> rfl
  | false =>
    have hn' : (kind k' (restyle k k' text)).structural = false := by rwa [ht.kind_restyle h]
    rw [advance_same s hn, advance_same s hn', rewrite_restyle h ht hn]
    rfl

theorem scan_restyle (h : Parallel k k') {lines : List Text}
    (ht : ∀ text ∈ lines, Portable k k' text) (s : Stack) :
    scan k' context s (asIs (lines.map (restyle k k'))) =
      (fun p => (p.1, p.2.map (restyle k k'))) <$> scan k context s (asIs lines) := by
  induction lines generalizing s with
  | nil => rfl
  | cons text rest ih =>
    have hfirst : advance k' context s (.same (restyle k k' text)) =
        (fun p => (p.1, restyle k k' p.2)) <$> advance k context s (.same text) :=
      advance_restyle h (ht text List.mem_cons_self) s
    have hrest := ih fun text hmem => ht text (List.mem_cons_of_mem _ hmem)
    rw [List.map_cons, asIs_cons, asIs_cons]
    simp only [scan, hfirst]
    cases advance k context s (.same text) with
    | error e => rfl
    | ok p =>
      simp only [Functor.map, Except.map, ok_bind, hrest]
      cases scan k context p.1 (asIs rest) <;> rfl

theorem pass_restyle (h : Parallel k k') {lines : List Text}
    (ht : ∀ text ∈ lines, Portable k k' text) :
    pass k' context (lines.map (restyle k k')) =
      (List.map (restyle k k')) <$> pass k context lines := by
  rw [pass, pass, result_convert, result_convert, scan_restyle h ht]
  cases scan k context .start (asIs lines) with
  | error e => rfl
  | ok p =>
    show conclude context p.1 _ = _ <$> conclude context p.1 p.2
    unfold conclude
    cases p.1.frames <;> rfl

/-! ### Errors -/

/-- A conversion is stopped by a layout error, or by a literal with more digits than may be
read. -/
theorem error_of_result {lines : List Line} {e : Block.Error}
    (h : (convert k context lines).result = .error e) :
    (∃ error, e = .layout error) ∨ ∃ o : Overlong, e = .overlong o ∧ Literal.digitLimit < o.digits := by
  have verdict {n : Nat} {argument : Text} (hv : context.verdict n argument = .error e) :
      (∃ error, e = .layout error) ∨
        ∃ o : Overlong, e = .overlong o ∧ Literal.digitLimit < o.digits := by
    rcases Context.verdict_error hv with ⟨fault, rfl, -⟩ | ⟨o, rfl, ho⟩
    · exact .inl ⟨_, rfl⟩
    · exact .inr ⟨o, rfl, Condition.digitLimit_lt_of_evaluate (Text.strip_strip argument) ho⟩
  rw [result_convert] at h
  rcases bind_eq_error.1 h with hscan | ⟨⟨t, texts⟩, -, hend⟩
  · obtain ⟨before, line, after, u, texts, -, -, ha⟩ := exists_stop_of_scan hscan
    obtain ⟨hn, hstop⟩ := stop_of_advance k context ha
    have hkind : kind k line.remapped.text = (directive k line.remapped.text).kind := rfl
    rw [hkind] at hn
    generalize directive k line.remapped.text = d at hn hstop
    cases hstop with
    | ifHolds hv => exact verdict hv
    | elseIf _ _ _ hv => exact verdict hv
    | notStructural hn' =>
      rw [hn] at hn'
      cases hn'
    | _ => exact .inl ⟨_, rfl⟩
  · cases hf : t.frames with
    | nil => simp only [conclude, hf] at hend; cases hend
    | cons top outer =>
      simp only [conclude, hf] at hend
      cases hend
      exact .inl ⟨_, rfl⟩

/-! ### The named keyword sets -/

/-- **The comment style makes no difference.** A text that means the same in both styles
converts to the same in both, restyled, or both report the same layout error, in the same
line, or both are stopped by the same literal that is too long. -/
theorem pass_restyle_cfg {lines : List Text}
    (ht : ∀ text ∈ lines, Portable .standard .cfg text) :
    (∃ out, pass .standard context lines = .ok out ∧
        pass .cfg context (lines.map (restyle .standard .cfg)) =
          .ok (out.map (restyle .standard .cfg))) ∨
      (∃ error : LayoutError, pass .standard context lines = .error (.layout error) ∧
        pass .cfg context (lines.map (restyle .standard .cfg)) = .error (.layout error)) ∨
      ∃ o : Overlong, Literal.digitLimit < o.digits ∧
        pass .standard context lines = .error (.overlong o) ∧
        pass .cfg context (lines.map (restyle .standard .cfg)) = .error (.overlong o) := by
  rw [pass_restyle Keywords.standard_parallel_cfg ht]
  cases hpass : pass .standard context lines with
  | ok out => exact .inl ⟨out, rfl, rfl⟩
  | error e =>
    rcases error_of_result hpass with ⟨error, rfl⟩ | ⟨o, rfl, hlimit⟩
    · exact .inr (.inl ⟨error, rfl, rfl⟩)
    · exact .inr (.inr ⟨o, hlimit, rfl, rfl⟩)

/-- A chain on a name that is not bound, with a line that is commented out and one that comes
back. -/
theorem pass_restyle_cfg_unbound :
    (∀ text ∈ ["//#ifdef A", "  x", "//#else", "//$$ y", "//#endif"].map String.toText,
        Portable .standard .cfg text) ∧
      pass .cfg ⟨.empty, "a.java".toText⟩
          (["##ifdef A", "  x", "##else", "#$$ y", "##endif"].map String.toText) =
        .ok (["##ifdef A", "#$$   x", "##else", "y", "##endif"].map String.toText) := by
  have ht : ∀ text ∈ ["//#ifdef A", "  x", "//#else", "//$$ y", "//#endif"].map String.toText,
      Portable .standard .cfg text := by decide
  have hpass : pass .standard ⟨.empty, "a.java".toText⟩
      (["//#ifdef A", "  x", "//#else", "//$$ y", "//#endif"].map String.toText) =
        .ok (["//#ifdef A", "//$$   x", "//#else", "y", "//#endif"].map String.toText) := rfl
  refine ⟨ht, ?_⟩
  rcases @pass_restyle_cfg ⟨.empty, "a.java".toText⟩ _ ht with
    ⟨out, hout, hcfg⟩ | ⟨error, herror, -⟩ | ⟨o, -, herror, -⟩
  · rw [hpass] at hout
    cases hout
    exact hcfg
  · rw [hpass] at herror
    cases herror
  · rw [hpass] at herror
    cases herror

/-! ### A literal that is too long -/

/-- An `if` with nothing but a literal behind it. -/
def ifLiteral (digits : Text) : Text := "//#if".toText ++ (" ".toText ++ digits)

theorem directive_ifLiteral {digits : Text} (h : Literal.isDigits digits = true) :
    directive .standard (ifLiteral digits) = ⟨.ifHolds, " ".toText ++ digits⟩ := by
  obtain ⟨hstarts, hends⟩ := Literal.visible_of_isDigits h
  have hstrip : Text.strip ([] ++ ("//#if".toText ++ (" ".toText ++ digits))) =
      "//#if".toText ++ Text.stripBack (" ".toText ++ digits) :=
    Text.strip_token rfl (by decide) (by decide) _
  rw [List.nil_append, Text.stripBack_append (Text.isBlank_of_startsVisible hstarts),
    Text.stripBack_of_endsVisible hends] at hstrip
  rw [directive, ifLiteral, hstrip]
  rfl

/-- A literal that is too long stops a conversion, with an error that is none of the
layout. -/
theorem pass_ifLiteral {digits : Text} (h : Literal.isDigits digits = true)
    (hlong : Literal.digitLimit < digits.length) (rest : List Text) :
    pass .standard context (ifLiteral digits :: rest) = .error (.overlong ⟨digits.length⟩) := by
  obtain ⟨hstarts, hends⟩ := Literal.visible_of_isDigits h
  have hdirective : directive .standard (Line.same (ifLiteral digits)).remapped.text =
      ⟨.ifHolds, " ".toText ++ digits⟩ := directive_ifLiteral h
  have hn : (kind .standard (Line.same (ifLiteral digits)).remapped.text).structural = true := by
    rw [kind, hdirective]
    rfl
  have hverdict (n : Nat) : context.verdict n (" ".toText ++ digits) =
      .error (.overlong ⟨digits.length⟩) := by
    have hstrip : Text.strip (" ".toText ++ digits) = digits := by
      rw [Text.strip_isBlank_append (by decide), Text.strip_of_visible hstarts hends]
    have hspace : (" ".toText ++ digits).head? = some ' ' := rfl
    rw [Block.Context.verdict, if_pos hspace, hstrip, Condition.evaluate_overlong _ h hlong]
  have ha : advance .standard context .start (.same (ifLiteral digits)) =
      .error (.overlong ⟨digits.length⟩) := by
    rcases advance_of_structural .standard context .start hn with ⟨t, -, hstep⟩ | ⟨e, ha, hstop⟩
    · rw [hdirective] at hstep
      cases hstep with
      | ifHolds hv =>
        rw [hverdict] at hv
        cases hv
    · rw [hdirective] at hstop
      cases hstop with
      | ifHolds hv =>
        rw [hverdict] at hv
        cases hv
        exact ha
      | notStructural hnot => cases hnot
  rw [pass, result_convert, asIs_cons, scan, ha]
  rfl

theorem portable_ifLiteral {digits : Text} (h : Literal.isDigits digits = true) :
    Portable .standard k' (ifLiteral digits) := by
  have hkind : kind .standard (ifLiteral digits) = .ifHolds := by
    rw [kind, directive_ifLiteral h]
  refine ⟨fun hp => ?_, fun he => ?_⟩
  · rw [hkind] at hp
    cases hp
  · rw [hkind] at he
    cases he

/-- A chain on a literal of 4301 digits. -/
def overlongChain : List Text :=
  [ifLiteral (List.replicate 4301 (CodePoint.ofChar '1')), "//#endif".toText]

/-- It means the same in both styles, but it has no result in the first, and no layout error
either. -/
theorem pass_restyle_cfg_overlong :
    (∀ text ∈ overlongChain, Portable .standard .cfg text) ∧
      ¬ ((∃ out, pass .standard ⟨.empty, "a.java".toText⟩ overlongChain = .ok out ∧
            pass .cfg ⟨.empty, "a.java".toText⟩ (overlongChain.map (restyle .standard .cfg)) =
              .ok (out.map (restyle .standard .cfg))) ∨
          ∃ error : LayoutError,
            pass .standard ⟨.empty, "a.java".toText⟩ overlongChain = .error (.layout error) ∧
              pass .cfg ⟨.empty, "a.java".toText⟩ (overlongChain.map (restyle .standard .cfg)) =
                .error (.layout error)) := by
  have hdigits : Literal.isDigits (List.replicate 4301 (CodePoint.ofChar '1')) = true :=
    Literal.isDigits_replicate (by decide) (by decide)
  have hpass : pass .standard ⟨.empty, "a.java".toText⟩ overlongChain = _ :=
    pass_ifLiteral hdigits (by rw [List.length_replicate]; decide) ["//#endif".toText]
  refine ⟨fun text hmem => ?_, ?_⟩
  · rcases List.mem_cons.1 hmem with rfl | hmem
    · exact portable_ifLiteral hdigits
    · obtain rfl := List.mem_singleton.1 hmem
      decide
  · rw [hpass]
    intro h
    rcases h with ⟨out, hout, -⟩ | ⟨error, herror, -⟩
    · cases hout
    · cases herror

end Source
end Multiversion
