import Multiversion.Proofs.Block.Step
import Multiversion.Proofs.Source.Recognition

/-! Reading the lines of a text, one after the other.

`scan` is the part of a conversion before its end: the stack that the lines lead
to, and what they become. `result_convert` puts the end back.
`advance_of_structural` and `advance_of_not_structural` say what one line does;
`scan_append` cuts a text anywhere, and the stack in front of a line is the one its
predecessors lead to. -/
namespace Multiversion

/-! ### Outcomes -/

section Outcomes
variable {ε α β : Type}

@[simp] theorem ok_bind (a : α) (f : α → Except ε β) : (Except.ok a >>= f) = f a := rfl

@[simp] theorem error_bind (e : ε) (f : α → Except ε β) :
    (Except.error e >>= f) = Except.error e := rfl

theorem bind_eq_ok {x : Except ε α} {f : α → Except ε β} {b : β} :
    (x >>= f) = .ok b ↔ ∃ a, x = .ok a ∧ f a = .ok b := by
  cases x <;> simp

theorem bind_eq_error {x : Except ε α} {f : α → Except ε β} {e : ε} :
    (x >>= f) = .error e ↔ x = .error e ∨ ∃ a, x = .ok a ∧ f a = .error e := by
  cases x <;> simp

theorem pure_eq_ok {a b : α} : (pure a : Except ε α) = .ok b ↔ a = b := by
  simp [pure, Except.pure]

end Outcomes

namespace Source
open Block (Stack Context Step Stop)

/-! ### One line -/

/-- The next line: the stack behind it, and what it becomes. -/
def advance (k : Keywords) (context : Context) (s : Stack) (line : Line) :
    Except Block.Error (Stack × Text) :=
  match convertLine k context line { s with line := s.line + 1 } with
  | .ok (text, _) t => .ok (t, text)
  | .error e _ => .error e

/-- The stack when the next line is looked at. -/
def next (s : Stack) : Stack := { s with line := s.line + 1 }

@[simp] theorem next_frames (s : Stack) : (next s).frames = s.frames := rfl
@[simp] theorem next_remapping (s : Stack) : (next s).remapping = s.remapping := rfl
@[simp] theorem next_line (s : Stack) : (next s).line = s.line + 1 := rfl

variable (k : Keywords) (context : Context)

/-- What a line that is not structural becomes. -/
def rewrite (s : Stack) (line : Line) : Text :=
  (adapt k s (kind k line.remapped.text = .eval) line).1

theorem convertLine_of_not_structural {line : Line}
    (h : (kind k line.remapped.text).structural = false) (s : Stack) :
    convertLine k context line s =
      .ok (adapt k s (kind k line.remapped.text = .eval) line) s := by
  have h' : (Directive.read k (Text.strip line.remapped.text)).kind.structural = false := h
  simp only [convertLine, h', Bool.false_eq_true, if_false]
  rfl

theorem advance_of_not_structural {line : Line} (s : Stack)
    (h : (kind k line.remapped.text).structural = false) :
    advance k context s line = .ok (next s, rewrite k s line) := by
  rw [advance, convertLine_of_not_structural k context h]
  rfl

theorem advance_of_structural {line : Line} (s : Stack)
    (h : (kind k line.remapped.text).structural = true) :
    (∃ t, advance k context s line = .ok (t, line.remapped.text) ∧
        Step context (Text.indentation line.remapped.text) (next s)
          (directive k line.remapped.text) t) ∨
      ∃ e, advance k context s line = .error e ∧
        Stop context (next s) (directive k line.remapped.text) e := by
  have h' : (Directive.read k (Text.strip line.remapped.text)).kind.structural = true := h
  simp only [advance, convertLine, h', if_true, bind, EStateM.bind]
  rcases Block.apply_cases context (directive k line.remapped.text)
    (Text.indentation line.remapped.text) (next s) with ⟨t, ha, hstep⟩ | ⟨e, ha, hstop⟩
  · refine .inl ⟨t, ?_, hstep⟩
    simp only [directive, next] at ha
    simp only [ha]
    rfl
  · refine .inr ⟨e, ?_, hstop⟩
    simp only [directive, next] at ha
    simp only [ha]

/-- A structural line that is read keeps its text. -/
theorem step_of_advance {line : Line} {s t : Stack} {text : Text}
    (h : (kind k line.remapped.text).structural = true)
    (ha : advance k context s line = .ok (t, text)) :
    text = line.remapped.text ∧
      Step context (Text.indentation line.remapped.text) (next s)
        (directive k line.remapped.text) t := by
  rcases advance_of_structural k context s h with ⟨t', ha', hstep⟩ | ⟨e, ha', _⟩
  · rw [ha'] at ha
    cases ha
    exact ⟨rfl, hstep⟩
  · rw [ha'] at ha
    cases ha

/-- A line that is not read is structural. -/
theorem stop_of_advance {line : Line} {s : Stack} {e : Block.Error}
    (ha : advance k context s line = .error e) :
    (kind k line.remapped.text).structural = true ∧
      Stop context (next s) (directive k line.remapped.text) e := by
  cases h : (kind k line.remapped.text).structural with
  | false =>
    rw [advance_of_not_structural k context s h] at ha
    cases ha
  | true =>
    rcases advance_of_structural k context s h with ⟨t, ha', _⟩ | ⟨e', ha', hstop⟩
    · rw [ha'] at ha
      cases ha
    · rw [ha'] at ha
      cases ha
      exact ⟨rfl, hstop⟩

/-- The line number counts the lines, whatever they are. -/
theorem line_of_advance {line : Line} {s t : Stack} {text : Text}
    (ha : advance k context s line = .ok (t, text)) : t.line = s.line + 1 := by
  cases h : (kind k line.remapped.text).structural with
  | false =>
    rw [advance_of_not_structural k context s h] at ha
    cases ha
    rfl
  | true =>
    have hstep := (step_of_advance k context h ha).2
    generalize directive k line.remapped.text = d at hstep
    cases hstep <;> rfl

/-! ### Many lines -/

/-- The lines up to their end: the stack behind them, and what they become. -/
def scan : Stack → List Line → Except Block.Error (Stack × List Text)
  | s, [] => .ok (s, [])
  | s, line :: rest => do
    let (t, text) ← advance k context s line
    let (u, texts) ← scan t rest
    pure (u, text :: texts)

/-- What becomes of the lines when they have ended. -/
def conclude (s : Stack) (texts : List Text) : Except Block.Error (List Text) :=
  match s.frames with
  | [] => .ok texts
  | top :: _ => .error (context.fault top.line .missingEndIf)

theorem scan_append (s : Stack) (a b : List Line) :
    scan k context s (a ++ b) = (do
      let (t, x) ← scan k context s a
      let (u, y) ← scan k context t b
      pure (u, x ++ y)) := by
  induction a generalizing s with
  | nil => simp [scan]
  | cons line rest ih =>
    simp only [List.cons_append, scan, ih, bind_assoc, pure_bind]

theorem convertFrom_eq (s : Stack) (lines : List Line) :
    (convertFrom k context s.line s lines).result =
      (scan k context s lines >>= fun p => conclude context p.1 p.2) := by
  induction lines generalizing s with
  | nil =>
    simp only [convertFrom, Block.finish_eq, scan, conclude, bind, Except.bind]
    cases s.frames <;> rfl
  | cons line rest ih =>
    simp only [convertFrom, scan, advance]
    cases h : convertLine k context line { s with line := s.line + 1 } with
    | error e t => rfl
    | ok p t =>
      obtain ⟨text, surfaces⟩ := p
      have ha : advance k context s line = .ok (t, text) := by simp only [advance, h]
      have hline := line_of_advance k context ha
      simp only [← hline, ih, ok_bind]
      cases hs : scan k context t rest with
      | error e => rfl
      | ok q =>
        obtain ⟨u, texts⟩ := q
        simp only [ok_bind, pure_bind, conclude]
        cases u.frames <;> rfl

/-- A conversion reads all lines and then ends. -/
theorem result_convert (lines : List Line) :
    (convert k context lines).result =
      (scan k context .start lines >>= fun p => conclude context p.1 p.2) :=
  convertFrom_eq k context .start lines

variable {k context}

theorem scan_cons_ok {s u : Stack} {line : Line} {rest : List Line} {texts : List Text} :
    scan k context s (line :: rest) = .ok (u, texts) ↔
      ∃ t text more, advance k context s line = .ok (t, text) ∧
        scan k context t rest = .ok (u, more) ∧ texts = text :: more := by
  simp only [scan, bind_eq_ok, pure_eq_ok, Prod.exists, Prod.mk.injEq]
  refine ⟨?_, ?_⟩
  · rintro ⟨t, text, ha, u, more, hs, rfl, rfl⟩
    exact ⟨t, text, more, ha, hs, rfl⟩
  · rintro ⟨t, text, more, ha, hs, rfl⟩
    exact ⟨t, text, ha, u, more, hs, rfl, rfl⟩

theorem scan_append_ok {s u : Stack} {a b : List Line} {texts : List Text} :
    scan k context s (a ++ b) = .ok (u, texts) ↔
      ∃ t x y, scan k context s a = .ok (t, x) ∧ scan k context t b = .ok (u, y) ∧
        texts = x ++ y := by
  simp only [scan_append, bind_eq_ok, pure_eq_ok, Prod.exists, Prod.mk.injEq]
  refine ⟨?_, ?_⟩
  · rintro ⟨t, x, ha, u, y, hb, rfl, rfl⟩
    exact ⟨t, x, y, ha, hb, rfl⟩
  · rintro ⟨t, x, y, ha, hb, rfl⟩
    exact ⟨t, x, ha, u, y, hb, rfl, rfl⟩

theorem scan_concat_ok {s u : Stack} {lines : List Line} {line : Line} {texts : List Text} :
    scan k context s (lines ++ [line]) = .ok (u, texts) ↔
      ∃ t x text, scan k context s lines = .ok (t, x) ∧
        advance k context t line = .ok (u, text) ∧ texts = x ++ [text] := by
  rw [scan_append_ok]
  refine ⟨?_, ?_⟩
  · rintro ⟨t, x, y, hlines, hlast, rfl⟩
    obtain ⟨v, text, more, ha, hnil, rfl⟩ := scan_cons_ok.1 hlast
    cases hnil
    exact ⟨t, x, text, hlines, ha, rfl⟩
  · rintro ⟨t, x, text, hlines, ha, rfl⟩
    exact ⟨t, x, [text], hlines, scan_cons_ok.2 ⟨u, text, [], ha, rfl, rfl⟩, rfl⟩

/-- Every line of lines that are read is read behind its predecessors. -/
theorem advance_of_scan {s u : Stack} {before after : List Line} {line : Line}
    {texts : List Text} (h : scan k context s (before ++ line :: after) = .ok (u, texts)) :
    ∃ t x v text, scan k context s before = .ok (t, x) ∧
      advance k context t line = .ok (v, text) := by
  obtain ⟨t, x, y, hbefore, hrest, _⟩ := scan_append_ok.1 h
  obtain ⟨v, text, more, ha, _⟩ := scan_cons_ok.1 hrest
  exact ⟨t, x, v, text, hbefore, ha⟩

/-- What comes out for a line is what it becomes behind its predecessors. -/
theorem getElem?_of_scan {s u : Stack} {lines : List Line} {texts : List Text}
    (h : scan k context s lines = .ok (u, texts)) {i : Nat} {line : Line}
    (hi : lines[i]? = some line) :
    ∃ t x v text, scan k context s (lines.take i) = .ok (t, x) ∧
      advance k context t line = .ok (v, text) ∧ texts[i]? = some text := by
  induction lines generalizing s texts i with
  | nil => cases hi
  | cons first rest ih =>
    obtain ⟨w, text, more, ha, hrest, rfl⟩ := scan_cons_ok.1 h
    cases i with
    | zero =>
      obtain rfl := Option.some.inj hi
      exact ⟨s, [], w, text, rfl, ha, rfl⟩
    | succ i =>
      obtain ⟨t, x, v, out, hbefore, hline, hout⟩ := ih hrest hi
      exact ⟨t, text :: x, v, out, scan_cons_ok.2 ⟨w, text, x, ha, hbefore, rfl⟩, hline, hout⟩

/-- Lines that are not read have a first one that is not. -/
theorem exists_stop_of_scan {s : Stack} {lines : List Line} {e : Block.Error}
    (h : scan k context s lines = .error e) :
    ∃ before line after u texts, lines = before ++ line :: after ∧
      scan k context s before = .ok (u, texts) ∧ advance k context u line = .error e := by
  induction lines generalizing s with
  | nil => cases h
  | cons line rest ih =>
    rcases bind_eq_error.1 h with ha | ⟨⟨t, text⟩, ha, h⟩
    · exact ⟨[], line, rest, s, [], rfl, rfl, ha⟩
    rcases bind_eq_error.1 h with hrest | ⟨_, _, h⟩
    · obtain ⟨before, stopped, after, u, texts, rfl, hbefore, hstop⟩ := ih hrest
      exact ⟨line :: before, stopped, after, u, text :: texts, rfl,
        scan_cons_ok.2 ⟨t, text, texts, ha, hbefore, rfl⟩, hstop⟩
    · cases h

theorem line_of_scan {s t : Stack} {lines : List Line} {texts : List Text}
    (h : scan k context s lines = .ok (t, texts)) : t.line = s.line + lines.length := by
  induction lines generalizing s texts with
  | nil =>
    cases h
    rfl
  | cons line rest ih =>
    obtain ⟨u, text, more, ha, hs, rfl⟩ := scan_cons_ok.1 h
    rw [ih hs, line_of_advance k context ha, List.length_cons]
    omega

/-- The number of the line that is looked at next. -/
theorem next_line_of_scan {t : Stack} {lines : List Line} {texts : List Text}
    (h : scan k context .start lines = .ok (t, texts)) :
    (next t).line = lines.length + 1 := by
  rw [next_line, line_of_scan h]
  exact congrArg (· + 1) (Nat.zero_add _)

/-- A conversion has a result when the lines are read and leave no block open. -/
theorem result_eq_ok {lines : List Line} {out : List Text} :
    (convert k context lines).result = .ok out ↔
      ∃ t, scan k context .start lines = .ok (t, out) ∧ t.frames = [] := by
  rw [result_convert, bind_eq_ok]
  refine ⟨?_, ?_⟩
  · rintro ⟨⟨t, texts⟩, hscan, hend⟩
    refine ⟨t, ?_⟩
    cases hf : t.frames with
    | nil =>
      simp only [conclude, hf] at hend
      cases hend
      exact ⟨hscan, rfl⟩
    | cons top outer =>
      simp only [conclude, hf] at hend
      cases hend
  · rintro ⟨t, hscan, hf⟩
    exact ⟨(t, out), hscan, by simp only [conclude, hf]⟩

/-! ### Texts without a remap -/

/-- A line that the remap leaves as it is. -/
def Line.same (text : Text) : Line := ⟨text, ⟨text, []⟩⟩

/-- The lines as a remap that changes nothing gives them back. -/
def asIs (lines : List Text) : List Line := pair lines (unchanged lines)

theorem asIs_cons (text : Text) (rest : List Text) :
    asIs (text :: rest) = .same text :: asIs rest := rfl

theorem advance_same (s : Stack) {text : Text} (h : (kind k text).structural = false) :
    advance k context s (.same text) = .ok (next s, rewrite k s (.same text)) :=
  advance_of_not_structural k context s h

/-- A conversion without a remap. -/
def pass (k : Keywords) (context : Context) (lines : List Text) :
    Except Block.Error (List Text) :=
  (convert k context (asIs lines)).result

end Source

end Multiversion
