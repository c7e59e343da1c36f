import Mathlib.Data.List.Chain
import Multiversion.Proofs.Layout.Open

/-! Which texts can be converted, and what is said of the others.

A line of a text can be at fault in three ways (`Violates`): no well-nested text
starts with the lines up to it, its condition is looked at and has no value, or it
switches remapping the way it already is. A text is `Acceptable` when it is well
nested, every condition that is looked at has a value, and the switches alternate.

`accepts_iff_and_error_line`: a conversion has a result exactly for the acceptable
texts. Any other error than a missing `endif` names the first line at fault, and
the lines before it need only be closed. A missing `endif` means that no line is at
fault, and names the last directive of the innermost open chain that was looked
at. -/
namespace Multiversion.Layout
open Block (Stack Frame Context Step Stop)
open Source (Line)

variable (k : Keywords) (context : Context)

/-- The kinds of the lines that switch remapping. -/
def toggles (lines : List Line) : List LineKind :=
  (lines.map fun line => Source.kind k line.remapped.text).filter
    fun kind => kind = .disableRemap || kind = .enableRemap

/-- Remapping is switched off and on in turn. Before the first line it is on. -/
def Alternating (lines : List Line) : Prop :=
  (LineKind.enableRemap :: toggles k lines).IsChain (· ≠ ·)

/-- The condition of a line is looked at when it stands behind such lines: that of
an `if` always, that of an `elseif` unless a branch of its chain holds already. -/
def Due (before : List Line) (line : Line) : Prop :=
  Source.kind k line.remapped.text = .ifHolds ∨
    Source.kind k line.remapped.text = .elseIf ∧
      ∃ outer, ∃ c : Chain k, before = outer ++ c.lines ∧ c.matched context = false

/-- The condition of a line is looked at and has no value. -/
def Unreadable (before : List Line) (line : Line) : Prop :=
  Due k context before line ∧
    context.value? (Source.directive k line.remapped.text).argument = none

/-- A line is at fault when it stands behind such lines. -/
def Violates (before : List Line) (line : Line) : Prop :=
  (¬∃ after, WellNested k (before ++ line :: after)) ∨ Unreadable k context before line ∨
    ¬Alternating k (before ++ [line])

/-- What a text must be to be converted. -/
structure Acceptable (lines : List Line) : Prop where
  nested : WellNested k lines
  readable : ∀ before line after, lines = before ++ line :: after →
    ¬Unreadable k context before line
  alternating : Alternating k lines

/-- No condition holds a literal of more digits than may be read. -/
def WithinDigitLimit (lines : List Line) : Prop :=
  ∀ line ∈ lines, Source.kind k line.remapped.text ∈ [LineKind.ifHolds, .elseIf] →
    ∀ literal, Condition.evaluate context.environment
      (Text.strip (Source.directive k line.remapped.text).argument) ≠ .error (.overlong literal)

/-- The line of this number is at fault, and none before it is. -/
def FirstAtFault (lines : List Line) (n : Nat) : Prop :=
  ∃ before line after, lines = before ++ line :: after ∧ n = before.length + 1 ∧
    Violates k context before line ∧
    ∀ earlier line' between, before = earlier ++ line' :: between →
      ¬Violates k context earlier line'

/-- No line is at fault. -/
def Faultless (lines : List Line) : Prop :=
  ∀ before line after, lines = before ++ line :: after → ¬Violates k context before line

/-- The lines end in a chain that is open, and this is the line of its last
directive that was looked at. -/
def Dangling (lines : List Line) (n : Nat) : Prop :=
  ∃ outer, ∃ o : Opened k, lines = outer ++ o.lines ∧ n = o.cited context outer.length

variable {k context}

/-! ### Nesting -/

/-- The fault is that a directive is not where the grammar of blocks wants it. -/
def misplaced : Block.Error → Bool
  | .layout ⟨.unexpectedElseIf, _, _⟩ | .layout ⟨.elseIfAfterElse, _, _⟩ => true
  | .layout ⟨.unexpectedElse, _, _⟩ | .layout ⟨.elseAfterElse, _, _⟩ => true
  | .layout ⟨.unexpectedEndIf, _, _⟩ => true
  | _ => false

theorem misplaced_of_verdict {line : Nat} {argument : Text} {e : Block.Error}
    (h : context.verdict line argument = .error e) : misplaced e = false := by
  rcases Context.verdict_error h with ⟨fault, rfl, rfl | ⟨refusal, rfl⟩⟩ | ⟨literal, rfl, _⟩ <;> rfl

theorem misplaced_of_switch {p : Progress} {l : LineOf k [.disableRemap, .enableRemap]}
    {e : Block.Error} (h : p.switch context l = .error e) : misplaced e = false := by
  unfold Progress.switch at h
  split at h <;> split at h <;> cases h <;> rfl

theorem misplaced_of_opens {p : Progress} {head : LineOf k [.ifHolds, .ifDefined]}
    {e : Block.Error} (h : opens context p head = .error e) : misplaced e = false := by
  unfold opens at h
  split at h
  · exact misplaced_of_verdict h
  · cases h

theorem misplaced_of_continues {found : Bool} {p : Progress} {head : LineOf k [.elseIf]}
    {e : Block.Error} (h : continues context found p head = .error e) : misplaced e = false := by
  unfold continues at h
  split at h
  · cases h
  · exact misplaced_of_verdict h

mutual

/-- Nothing is misplaced in a tree. -/
theorem misplaced_of_body : (b : Body k) → {r : Region} → {p : Progress} → {e : Block.Error} →
    b.render context r p = .error e → misplaced e = false
  | .nil, r, p, e, h => by cases h
  | .line l rest, r, p, e, h => by
    rcases bind_eq_error.1 h with h | ⟨_, _, h⟩
    · exact misplaced_of_body rest h
    · cases h
  | .toggle l rest, r, p, e, h => by
    rcases bind_eq_error.1 h with h | ⟨_, _, h⟩
    · exact misplaced_of_switch h
    rcases bind_eq_error.1 h with h | ⟨_, _, h⟩
    · exact misplaced_of_body rest h
    · cases h
  | .chain head body more rest, r, p, e, h => by
    rcases bind_eq_error.1 h with h | ⟨_, _, h⟩
    · exact misplaced_of_opens h
    rcases bind_eq_error.1 h with h | ⟨_, _, h⟩
    · exact misplaced_of_body body h
    rcases bind_eq_error.1 h with h | ⟨_, _, h⟩
    · exact misplaced_of_branches more h
    rcases bind_eq_error.1 h with h | ⟨_, _, h⟩
    · exact misplaced_of_body rest h
    · cases h

/-- Nothing is misplaced in the branches of a tree. -/
theorem misplaced_of_branches : (more : Branches k) → {active found : Bool} → {p : Progress} →
    {e : Block.Error} → more.render context active found p = .error e → misplaced e = false
  | .endIf close, active, found, p, e, h => by cases h
  | .otherwise head body close, active, found, p, e, h => by
    rcases bind_eq_error.1 h with h | ⟨_, _, h⟩
    · exact misplaced_of_body body h
    · cases h
  | .elseIf head body more, active, found, p, e, h => by
    rcases bind_eq_error.1 h with h | ⟨_, _, h⟩
    · exact misplaced_of_continues h
    rcases bind_eq_error.1 h with h | ⟨_, _, h⟩
    · exact misplaced_of_body body h
    rcases bind_eq_error.1 h with h | ⟨_, _, h⟩
    · exact misplaced_of_branches more h
    · cases h

end

/-- A misplaced directive cannot be mended by what follows it. -/
theorem not_wellNested_of_misplaced (hs : Text.startsVisible k.eval = true) {before : List Line}
    {line : Line} {u : Stack} {texts : List Text} {e : Block.Error}
    (h : Source.scan k context .start before = .ok (u, texts))
    (ha : Source.advance k context u line = .error e) (he : misplaced e = true) :
    ¬∃ after, WellNested k (before ++ line :: after) := by
  rintro ⟨after, b, hb⟩
  have hscan : Source.scan k context .start b.lines = .error e := by
    rw [hb]
    simp only [Source.scan_append, h, ok_bind, Source.scan, ha, error_bind]
  have hbody : Source.scan k context .start b.lines = _ := scan_body context hs b .start []
  rw [hscan] at hbody
  rcases bind_eq_error.1 hbody.symm with hr | ⟨_, _, hr⟩
  · rw [misplaced_of_body b hr] at he
    cases he
  · cases hr

/-! ### Closing what is open -/

/-- As many `endif` lines as there are open blocks close them all. -/
theorem scan_closes (context : Context) (close : LineOf k [.endIf]) (frames : List Frame)
    (p : Progress) :
    ∃ q texts, Source.scan k context (Progress.stack p frames)
      (List.replicate frames.length close.line) = .ok (Progress.stack q [], texts) := by
  induction frames generalizing p with
  | nil => exact ⟨p, [], rfl⟩
  | cons top outer ih =>
    obtain ⟨q, texts, hq⟩ := ih p.next
    exact ⟨q, close.text :: texts, Source.scan_cons_ok.2
      ⟨_, _, _, advance_endIf context p outer top close, hq, rfl⟩⟩

/-- Lines that are read can be closed. -/
theorem exists_result_closed (close : LineOf k [.endIf]) {lines : List Line} {t : Stack}
    {texts : List Text} (h : Source.scan k context .start lines = .ok (t, texts)) :
    ∃ out, (Source.convert k context
      (lines ++ List.replicate t.frames.length close.line)).result = .ok out := by
  obtain ⟨q, more, hclose⟩ := scan_closes context close t.frames ⟨t.line, t.remapping⟩
  exact ⟨texts ++ more, Source.result_eq_ok.2
    ⟨_, Source.scan_append_ok.2 ⟨t, texts, more, h, hclose, rfl⟩, rfl⟩⟩

theorem wellNested_of_result {lines : List Line} {out : List Text}
    (h : (Source.convert k context lines).result = .ok out) : WellNested k lines := by
  obtain ⟨t, hscan, hf⟩ := Source.result_eq_ok.1 h
  have hstanding := Standing.of_scan hscan
  rw [hf] at hstanding
  cases hstanding with
  | outside b => exact ⟨b, rfl⟩

/-! ### Switches -/

theorem toggles_append (a b : List Line) : toggles k (a ++ b) = toggles k a ++ toggles k b := by
  simp [toggles]

theorem toggles_singleton_of_ne {line : Line}
    (hd : Source.kind k line.remapped.text ≠ .disableRemap)
    (he : Source.kind k line.remapped.text ≠ .enableRemap) : toggles k [line] = [] := by
  simp [toggles, hd, he]

theorem toggles_singleton {line : Line} {kind : LineKind}
    (h : Source.kind k line.remapped.text = kind)
    (hk : kind = .disableRemap ∨ kind = .enableRemap) : toggles k [line] = [kind] := by
  rcases hk with rfl | rfl <;> simp [toggles, h]

/-- The switch that leaves remapping as it is. -/
def lastToggle (remapping : Bool) : LineKind := if remapping then .enableRemap else .disableRemap

/-- The switches so far alternate, and the last of them left remapping as it is. -/
structure Switched (k : Keywords) (lines : List Line) (remapping : Bool) : Prop where
  alternating : Alternating k lines
  last : (LineKind.enableRemap :: toggles k lines).getLast? = some (lastToggle remapping)

theorem Switched.start : Switched k [] true := ⟨.singleton _, rfl⟩

/-- The next switch alternates with the others exactly if it is another one than
the last. -/
theorem Switched.alternating_append_iff {lines : List Line} {remapping : Bool} {line : Line}
    {kind : LineKind} (h : Switched k lines remapping)
    (hk : Source.kind k line.remapped.text = kind)
    (hkind : kind = .disableRemap ∨ kind = .enableRemap) :
    Alternating k (lines ++ [line]) ↔ lastToggle remapping ≠ kind := by
  rw [Alternating, toggles_append, toggles_singleton hk hkind, ← List.cons_append,
    List.isChain_append]
  refine ⟨fun ⟨_, _, hne⟩ => hne _ h.last _ rfl, fun hne => ⟨h.alternating, .singleton _, ?_⟩⟩
  intro x hx y hy
  rw [h.last] at hx
  cases hx
  cases hy
  exact hne

theorem Switched.append {lines : List Line} {remapping : Bool} {line : Line} {kind : LineKind}
    (h : Switched k lines remapping) (hk : Source.kind k line.remapped.text = kind)
    (hkind : kind = .disableRemap ∨ kind = .enableRemap) (hne : lastToggle remapping ≠ kind)
    {remapping' : Bool} (hlast : lastToggle remapping' = kind) :
    Switched k (lines ++ [line]) remapping' := by
  refine ⟨(h.alternating_append_iff hk hkind).2 hne, ?_⟩
  rw [toggles_append, toggles_singleton hk hkind, ← List.cons_append, List.getLast?_concat, hlast]

theorem Switched.append_other {lines : List Line} {remapping : Bool} {line : Line}
    (h : Switched k lines remapping) (hd : Source.kind k line.remapped.text ≠ .disableRemap)
    (he : Source.kind k line.remapped.text ≠ .enableRemap) :
    Switched k (lines ++ [line]) remapping := by
  have hsame : toggles k (lines ++ [line]) = toggles k lines := by
    rw [toggles_append, toggles_singleton_of_ne hd he, List.append_nil]
  exact ⟨by rw [Alternating, hsame]; exact h.alternating, by rw [hsame]; exact h.last⟩

/-- The switches of lines that are read alternate. -/
theorem Switched.of_scan {lines : List Line} {t : Stack} {texts : List Text}
    (h : Source.scan k context .start lines = .ok (t, texts)) :
    Switched k lines t.remapping := by
  induction lines using List.reverseRecOn generalizing t texts with
  | nil =>
    cases h
    exact .start
  | append_singleton lines line ih =>
    obtain ⟨u, x, text, hlines, ha, rfl⟩ := Source.scan_concat_ok.1 h
    have hu : Switched k lines u.remapping := ih hlines
    cases hk : (Source.kind k line.remapped.text).structural with
    | true =>
      have hstep := (Source.step_of_advance k context hk ha).2
      rcases hstep.remapping_cases with ⟨hkind, hr, hr'⟩ | ⟨hkind, hr, hr'⟩ | ⟨hd, he, hr⟩
      · rw [Source.next_remapping] at hr
        rw [hr] at hu
        exact hu.append hkind (.inl rfl) (by decide) (by rw [hr']; rfl)
      · rw [Source.next_remapping] at hr
        rw [hr] at hu
        exact hu.append hkind (.inr rfl) (by decide) (by rw [hr']; rfl)
      · rw [hr]
        exact hu.append_other hd he
    | false =>
      rw [Source.advance_of_not_structural k context u hk] at ha
      cases ha
      exact hu.append_other (fun hd => by rw [hd] at hk; cases hk)
        (fun he => by rw [he] at hk; cases hk)

/-! ### Lines that are read and lines that are not -/

section
variable (hs : Text.startsVisible k.eval = true)
include hs

/-- The condition of a line that is read has a value if it is looked at. -/
theorem not_unreadable_of_advance {before : List Line} {line : Line} {u t : Stack}
    {texts : List Text} {text : Text}
    (h : Source.scan k context .start before = .ok (u, texts))
    (ha : Source.advance k context u line = .ok (t, text)) : ¬Unreadable k context before line := by
  rintro ⟨hdue, hnone⟩
  have hstructural : (Source.kind k line.remapped.text).structural = true := by
    rcases hdue with hk | ⟨hk, _⟩ <;> rw [hk] <;> rfl
  have hstep := (Source.step_of_advance k context hstructural ha).2
  have hkind : Source.kind k line.remapped.text =
    (Source.directive k line.remapped.text).kind := rfl
  have readable {argument : Text} {selected : Bool}
      (hd : (Source.directive k line.remapped.text).argument = argument)
      (hv : context.verdict (Source.next u).line argument = .ok selected) : False := by
    rw [hd, Context.verdict_eq_ok_iff.1 hv] at hnone
    cases hnone
  rcases hdue with hk | ⟨hk, outer, c, rfl, hmatched⟩
  · rw [hkind] at hk
    generalize hd : Source.directive k line.remapped.text = d at *
    cases hstep with
    | ifHolds hv => exact readable rfl hv
    | _ => cases hk
  · obtain ⟨v, x, y, _, hchain, rfl⟩ := Source.scan_append_ok.1 h
    have hframes := frames_of_scan_chain hs hchain
    rw [hkind] at hk
    generalize hd : Source.directive k line.remapped.text = d at *
    cases hstep with
    | elseIfPassed hf _ hm =>
      rw [Source.next_frames, hframes] at hf
      cases hf
      rw [Chain.frame_matched, hmatched] at hm
      cases hm
    | elseIf _ _ _ hv => exact readable rfl hv
    | _ => cases hk

/-- A line that is read is not at fault. -/
theorem not_violates_of_advance (close : LineOf k [.endIf]) {before : List Line} {line : Line}
    {u t : Stack} {texts : List Text} {text : Text}
    (h : Source.scan k context .start before = .ok (u, texts))
    (ha : Source.advance k context u line = .ok (t, text)) : ¬Violates k context before line := by
  have hscan : Source.scan k context .start (before ++ [line]) = .ok (t, texts ++ [text]) :=
    Source.scan_concat_ok.2 ⟨u, texts, text, h, ha, rfl⟩
  rintro (hnested | hunreadable | halternating)
  · obtain ⟨out, hout⟩ := exists_result_closed close hscan
    refine hnested ⟨List.replicate t.frames.length close.line, ?_⟩
    have := wellNested_of_result hout
    rwa [List.append_assoc] at this
  · exact not_unreadable_of_advance hs h ha hunreadable
  · exact halternating (Switched.of_scan hscan).alternating

/-- No line of a text that is read is at fault. -/
theorem faultless_of_scan (close : LineOf k [.endIf]) {lines : List Line} {t : Stack}
    {texts : List Text} (h : Source.scan k context .start lines = .ok (t, texts)) :
    Faultless k context lines := by
  rintro before line after rfl
  obtain ⟨u, x, v, text, hbefore, ha⟩ := Source.advance_of_scan h
  exact not_violates_of_advance hs close hbefore ha

omit hs in
theorem exists_fault_of_verdict {n : Nat} {argument : Text} {e : Block.Error}
    (limit : ∀ literal, Condition.evaluate context.environment (Text.strip argument) ≠
      .error (.overlong literal))
    (hv : context.verdict n argument = .error e) :
    ∃ fault, e = context.fault n fault ∧ fault ≠ .missingEndIf := by
  rcases Context.verdict_error hv with ⟨fault, rfl, rfl | ⟨refusal, rfl⟩⟩ | ⟨literal, _, hlong⟩
  · exact ⟨_, rfl, nofun⟩
  · exact ⟨_, rfl, nofun⟩
  · exact absurd hlong (limit literal)

/-- A line that is not read is at fault, and the error names it. -/
theorem violates_of_advance {before : List Line} {line : Line} {u : Stack} {texts : List Text}
    {e : Block.Error} (limit : WithinDigitLimit k context [line])
    (h : Source.scan k context .start before = .ok (u, texts))
    (ha : Source.advance k context u line = .error e) :
    Violates k context before line ∧
      ∃ fault, e = context.fault (before.length + 1) fault ∧ fault ≠ .missingEndIf := by
  have hstop := (Source.stop_of_advance k context ha).2
  have hstructural := (Source.stop_of_advance k context ha).1
  have hswitched : Switched k before (Source.next u).remapping := by
    rw [Source.next_remapping]
    exact .of_scan h
  have limit' := limit line (List.mem_singleton_self line)
  have nested : misplaced e = true → Violates k context before line :=
    fun he => .inl (not_wellNested_of_misplaced hs h ha he)
  have unreadable {argument : Text} (hdue : Due k context before line)
      (hd : (Source.directive k line.remapped.text).argument = argument)
      (hv : context.verdict (Source.next u).line argument = .error e) :
      Violates k context before line :=
    .inr (.inl ⟨hdue, by rw [hd]; exact Context.value?_of_verdict_error hv⟩)
  have hkind : Source.kind k line.remapped.text =
    (Source.directive k line.remapped.text).kind := rfl
  rw [hkind] at limit' hstructural
  generalize hd : Source.directive k line.remapped.text = d at *
  rw [← Source.next_line_of_scan h]
  cases hstop with
  | ifHolds hv =>
    exact ⟨unreadable (.inl hkind) rfl hv, exists_fault_of_verdict (limit' (by simp)) hv⟩
  | elseIf hf he hm hv =>
    have hstanding := Standing.of_scan h
    rw [Source.next_frames] at hf
    rw [hf] at hstanding
    cases hstanding with
    | inside o _ =>
      obtain ⟨c, rfl⟩ := Opened.eq_branch he
      have hmatched : c.matched context = false := (c.frame_matched context _).symm.trans hm
      exact ⟨unreadable (.inr ⟨hkind, _, c, rfl, hmatched⟩) rfl hv,
        exists_fault_of_verdict (limit' (by simp)) hv⟩
  | elseIfOutside => exact ⟨nested rfl, _, rfl, nofun⟩
  | elseIfAfterElse => exact ⟨nested rfl, _, rfl, nofun⟩
  | elseOutside => exact ⟨nested rfl, _, rfl, nofun⟩
  | elseAfterElse => exact ⟨nested rfl, _, rfl, nofun⟩
  | endIfOutside => exact ⟨nested rfl, _, rfl, nofun⟩
  | alreadyDisabled hr =>
    rw [hr] at hswitched
    refine ⟨.inr (.inr fun halternating => ?_), _, rfl, nofun⟩
    exact (hswitched.alternating_append_iff hkind (.inl rfl)).1 halternating rfl
  | notDisabled hr =>
    rw [hr] at hswitched
    refine ⟨.inr (.inr fun halternating => ?_), _, rfl, nofun⟩
    exact (hswitched.alternating_append_iff hkind (.inr rfl)).1 halternating rfl
  | notStructural hn =>
    rw [hn] at hstructural
    cases hstructural

/-! ### Conversions -/

theorem acceptable_of_result {lines : List Line} {out : List Text}
    (h : (Source.convert k context lines).result = .ok out) : Acceptable k context lines where
  nested := wellNested_of_result h
  readable := by
    rintro before line after rfl
    obtain ⟨t, hscan, _⟩ := Source.result_eq_ok.1 h
    obtain ⟨u, x, v, text, hbefore, ha⟩ := Source.advance_of_scan hscan
    exact not_unreadable_of_advance hs hbefore ha
  alternating := by
    obtain ⟨t, hscan, _⟩ := Source.result_eq_ok.1 h
    exact (Switched.of_scan hscan).alternating

omit hs in
theorem Acceptable.faultless {lines : List Line} (h : Acceptable k context lines) :
    Faultless k context lines := by
  rintro before line after rfl (hnested | hunreadable | halternating)
  · exact hnested ⟨after, h.nested⟩
  · exact h.readable before line after rfl hunreadable
  · have hlines : before ++ line :: after = (before ++ [line]) ++ after := by simp
    have hchain := h.alternating
    rw [hlines, Alternating, toggles_append, ← List.cons_append] at hchain
    exact halternating hchain.left_of_append

/-- A conversion without a result found a line at fault, or an open chain at the end. -/
theorem fault_of_result (close : LineOf k [.endIf]) {lines : List Line} {e : Block.Error}
    (limit : WithinDigitLimit k context lines)
    (h : (Source.convert k context lines).result = .error e) :
    (∃ fault n, e = context.fault n fault ∧ fault ≠ .missingEndIf ∧
        FirstAtFault k context lines n ∧
        ∃ closing out, (Source.convert k context
          (lines.take (n - 1) ++ List.replicate closing close.line)).result = .ok out) ∨
      ∃ n, e = context.fault n .missingEndIf ∧ Faultless k context lines ∧
        Dangling k context lines n ∧ ¬WellNested k lines := by
  rw [Source.result_convert] at h
  rcases bind_eq_error.1 h with hstop | ⟨⟨t, texts⟩, hscan, hend⟩
  · obtain ⟨before, line, after, u, texts, rfl, hbefore, ha⟩ := Source.exists_stop_of_scan hstop
    have limit' : WithinDigitLimit k context [line] := by
      intro l hl
      rw [List.mem_singleton.1 hl]
      exact limit line (by simp)
    obtain ⟨hviolates, fault, rfl, hfault⟩ := violates_of_advance hs limit' hbefore ha
    refine .inl ⟨fault, _, rfl, hfault, ⟨before, line, after, rfl, rfl, hviolates,
      faultless_of_scan hs close hbefore⟩, u.frames.length, ?_⟩
    rw [Nat.add_sub_cancel, List.take_left]
    exact exists_result_closed close hbefore
  · have hstanding := Standing.of_scan hscan
    cases hf : t.frames with
    | nil =>
      simp only [Source.conclude, hf] at hend
      cases hend
    | cons top outer =>
      simp only [Source.conclude, hf] at hend
      cases hend
      rw [hf] at hstanding
      refine .inr ⟨top.line, rfl, faultless_of_scan hs close hscan, ?_, ?_⟩
      · cases hstanding with
        | @inside before _ o _ => exact ⟨before, o, rfl, o.frame_line context _⟩
      · rintro ⟨b, rfl⟩
        rw [frames_of_scan_body hs hscan] at hf
        cases hf

/-- A text has a result exactly if it is acceptable. Any other error than a missing
`endif` names the first line at fault, and enough `endif` lines behind the lines
before it give a text with a result. A missing `endif` means that no line is at
fault, and names the last directive that was looked at of the innermost open chain. -/
theorem accepts_iff_and_error_line (close : LineOf k [.endIf]) (lines : List Line)
    (limit : WithinDigitLimit k context lines) :
    ((∃ out, (Source.convert k context lines).result = .ok out) ↔ Acceptable k context lines) ∧
      ∀ e, (Source.convert k context lines).result = .error e →
        ∃ fault n, e = .layout ⟨fault, context.file, n⟩ ∧
          (fault ≠ .missingEndIf → FirstAtFault k context lines n ∧
            ∃ closing out, (Source.convert k context
              (lines.take (n - 1) ++ List.replicate closing close.line)).result = .ok out) ∧
          (fault = .missingEndIf → Faultless k context lines ∧ Dangling k context lines n) := by
  refine ⟨⟨fun ⟨out, h⟩ => acceptable_of_result hs h, fun hacceptable => ?_⟩, fun e h => ?_⟩
  · cases h : (Source.convert k context lines).result with
    | ok out => exact ⟨out, rfl⟩
    | error e =>
      rcases fault_of_result hs close limit h with
        ⟨_, _, _, _, ⟨before, line, after, hl, _, hviolates, _⟩, _⟩ | ⟨_, _, _, _, hnested⟩
      · exact absurd hviolates (hacceptable.faultless before line after hl)
      · exact absurd hacceptable.nested hnested
  · rcases fault_of_result hs close limit h with
      ⟨fault, n, rfl, hfault, hfirst⟩ | ⟨n, rfl, hfaultless, hdangling, _⟩
    · exact ⟨fault, n, rfl, fun _ => hfirst, fun hmissing => absurd hmissing hfault⟩
    · exact ⟨.missingEndIf, n, rfl, fun hother => absurd rfl hother,
        fun _ => ⟨hfaultless, hdangling⟩⟩

end

/-- A chain whose `elseif` is not looked at: its condition has no value. -/
def unread : List Line :=
  Source.asIs (["//#ifdef A", "x", "//#elseif B", "//#endif"].map String.toText)

/-- Only the conditions that are looked at must have a value. -/
theorem accepts_unread_elseIf :
    Text.startsVisible Keywords.standard.eval = true ∧
      WithinDigitLimit .standard ⟨.insert .empty "A".toText 1, "a.java".toText⟩ unread ∧
      Acceptable .standard ⟨.insert .empty "A".toText 1, "a.java".toText⟩ unread := by
  have limit : WithinDigitLimit .standard ⟨.insert .empty "A".toText 1, "a.java".toText⟩
      unread := by
    intro line hline hkind literal
    have hcases : line = .same "//#elseif B".toText ∨
        Source.kind .standard line.remapped.text ∉ [LineKind.ifHolds, .elseIf] := by
      revert line
      decide
    rcases hcases with rfl | hother
    · have hatom : Text.strip (Source.directive .standard "//#elseif B".toText).argument =
          "B".toText := by decide
      rw [show (Line.same "//#elseif B".toText).remapped.text = "//#elseif B".toText from rfl,
        hatom, Condition.evaluate_eq]
      exact nofun
    · exact absurd hkind hother
  have hs : Text.startsVisible Keywords.standard.eval = true := by decide
  exact ⟨hs, limit, (accepts_iff_and_error_line hs ⟨.same "//#endif".toText, by decide⟩
    unread limit).1.1 ⟨_, rfl⟩⟩

end Multiversion.Layout
