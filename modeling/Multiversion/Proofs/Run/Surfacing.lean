import Multiversion.Proofs.Source.Commenting
import Multiversion.Proofs.Run.Attempt

/-! Which messages surface.

A conversion reads its lines up to the first one that stops it. The messages of every line
that is read surface, in the order of the lines, but for lines whose remapped text is not
used: lines that are plain where remapping is off, and lines that are commented out. They
surface as well when the conversion fails in the end.

`diagnostics_surface`: the diagnostics of a conversion are those of the lines that are read,
each behind its predecessors, and a report that is given them has them behind its own, with
one line printed for each and nothing else. -/
namespace Multiversion

/-! ### Printing -/

namespace Terminal.Stream

/-- The stream after lines are printed, one after the other. -/
def writeLines (s : Stream) (lines : List Text) : Except Fault Stream :=
  lines.foldlM (fun s line => s.writeLine line) s

theorem writeLines_cons (s : Stream) (line : Text) (rest : List Text) :
    s.writeLines (line :: rest) = (s.writeLine line).bind (·.writeLines rest) := rfl

/-- A stream that is not stripped prints every line as it is. -/
theorem writeLine_eq_ok {s : Stream} (h : s.mode ≠ .stripped) (line : Text) :
    s.writeLine line = .ok ⟨s.mode, s.printed ++ line ++ "\n".toText⟩ := by
  rw [writeLine, write_eq_ok_of_not_stripped line h]
  exact write_eq_ok_of_not_stripped "\n".toText (s := ⟨s.mode, s.printed ++ line⟩) h

theorem writeLines_eq_ok {s : Stream} (h : s.mode ≠ .stripped) (lines : List Text) :
    s.writeLines lines = .ok ⟨s.mode, s.printed ++ lines.flatMap (· ++ "\n".toText)⟩ := by
  induction lines generalizing s with
  | nil =>
    rw [List.flatMap_nil, List.append_nil]
    rfl
  | cons line rest ih =>
    rw [writeLines_cons, writeLine_eq_ok h, List.flatMap_cons, ← List.append_assoc,
      ← List.append_assoc]
    exact @ih ⟨s.mode, s.printed ++ line ++ "\n".toText⟩ h

theorem mode_write {text : Text} {s t : Stream} (h : s.write text = .ok t) : t.mode = s.mode := by
  unfold write at h
  split at h
  · cases hs : strip text with
    | ok through =>
      rw [hs] at h
      cases h
      rfl
    | error fault =>
      rw [hs] at h
      cases h
  · cases h
    rfl

theorem mode_writeLine {line : Text} {s t : Stream} (h : s.writeLine line = .ok t) :
    t.mode = s.mode := by
  unfold writeLine at h
  cases hw : s.write line with
  | error fault =>
    rw [hw] at h
    cases h
  | ok u =>
    rw [hw] at h
    exact (mode_write h).trans (mode_write hw)

end Terminal.Stream

namespace Report
open Run (withDiagnostics)

/-- What is printed for diagnostics without colours. -/
def printout (ds : List Diagnostic) : Text :=
  ds.flatMap fun d =>
    d.file ++ ":".toText ++ Literal.ofNat d.line ++ ": ".toText ++ d.message ++ "\n".toText

theorem withDiagnostics_append (a b : List Diagnostic) (s t : Terminal.Stream) (r : Report) :
    withDiagnostics b t (withDiagnostics a s r) = withDiagnostics (a ++ b) t r := by
  cases a <;> simp [withDiagnostics]

theorem addDiagnostic_writeLine (d : Diagnostic) (r : Report) :
    addDiagnostic d r =
      match r.stream.writeLine (d.render r.coloured) with
      | .ok stream => .ok () (withDiagnostics [d] stream r)
      | .error fault => .error fault (withDiagnostics [d] r.stream r) := by
  simp only [addDiagnostic_eq, print, withDiagnostics, coloured]
  cases r.stream.writeLine (d.render (r.stream.mode = .coloured)) <;> simp

/-- Diagnostics that surface are recorded behind those that have, and a line is printed for
each of them. Only a stripped stream refuses one. -/
theorem addDiagnostics_writeLines (ds : List Diagnostic) (r : Report) :
    (∃ stream, r.stream.writeLines (ds.map (·.render r.coloured)) = .ok stream ∧
        addDiagnostics ds r = .ok () (withDiagnostics ds stream r)) ∨
      r.stream.mode = .stripped ∧
        ∃ fault r', r.stream.writeLines (ds.map (·.render r.coloured)) = .error fault ∧
          addDiagnostics ds r = .error fault r' := by
  unfold addDiagnostics
  induction ds generalizing r with
  | nil => exact .inl ⟨r.stream, rfl, by simp [withDiagnostics]; rfl⟩
  | cons d rest ih =>
    rw [forM_cons_eq, addDiagnostic_writeLine, List.map_cons, Terminal.Stream.writeLines_cons]
    cases hw : r.stream.writeLine (d.render r.coloured) with
    | error fault =>
      have hmode : r.stream.mode = .stripped := by
        by_contra hm
        rw [Terminal.Stream.writeLine_eq_ok hm] at hw
        cases hw
      exact .inr ⟨hmode, fault, _, rfl, rfl⟩
    | ok stream =>
      have hmode : stream.mode = r.stream.mode := Terminal.Stream.mode_writeLine hw
      have hcoloured : (withDiagnostics [d] stream r).coloured = r.coloured := by
        simp only [coloured, withDiagnostics, hmode]
      have hrest := ih (withDiagnostics [d] stream r)
      simp only [hcoloured, withDiagnostics_append] at hrest
      exact hrest.imp id (And.imp_left hmode.symm.trans)

/-- Without colours the lines are files, line numbers and messages. -/
theorem addDiagnostics_plain (ds : List Diagnostic) (r : Report) (printed : Text) :
    addDiagnostics ds { r with stream := ⟨.plain, printed⟩ } =
      .ok () (withDiagnostics ds ⟨.plain, printed ++ printout ds⟩ r) := by
  have hprintout : (ds.map (·.render false)).flatMap (· ++ "\n".toText) = printout ds := by
    simp [printout, List.flatMap_map, Diagnostic.render]
  have hplain : Terminal.Mode.plain ≠ .stripped := nofun
  obtain ⟨stream, hw, h⟩ | ⟨hmode, -⟩ :=
    addDiagnostics_writeLines ds { r with stream := ⟨.plain, printed⟩ }
  · rw [@Terminal.Stream.writeLines_eq_ok ⟨.plain, printed⟩ hplain] at hw
    obtain rfl := Except.ok.inj hw
    rw [h, ← hprintout]
    rfl
  · cases hmode

end Report

namespace Source
open Block (Stack Context Stop)
open Run (withDiagnostics)

variable (k : Keywords) (context : Context)

/-! ### One line -/

/-- The messages of a line with such a text do not surface behind a stack: the remap is off,
or the line is commented out, and so the text is not used. -/
def Withheld (s : Stack) (text : Text) : Prop :=
  (s.active = true ∧ s.remapping = false ∧ kind k text = .plain) ∨ CommentedOut k s text

instance (s : Stack) (text : Text) : Decidable (Withheld k s text) :=
  inferInstanceAs (Decidable ((s.active = true ∧ s.remapping = false ∧ kind k text = .plain) ∨
    CommentedOut k s text))

/-- What surfaces for a line, read behind a stack. -/
def heard (p : Stack × Line) : List Diagnostic :=
  if Withheld k p.1 p.2.remapped.text then []
  else p.2.remapped.messages.map fun message => ⟨context.file, p.1.line + 1, message⟩

variable {k context}

theorem not_withheld_of_ne_plain {s : Stack} {text : Text} (h : kind k text ≠ .plain) :
    ¬Withheld k s text := by
  rintro (⟨-, -, hp⟩ | hc)
  · exact h hp
  · exact h hc.plain

/-- The messages of a line that is no directive surface unless they are withheld. -/
theorem adapt_surfaces {s : Stack} {line : Line}
    (h : (kind k line.remapped.text).structural = false) :
    (adapt k s (kind k line.remapped.text = .eval) line).2 =
      !decide (Withheld k s line.remapped.text) := by
  by_cases hp : kind k line.remapped.text = .plain
  · cases hs : s.active with
    | true =>
      have hc : ¬CommentedOut k s line.remapped.text := fun hc => by
        rw [hc.inactive] at hs
        cases hs
      cases hr : s.remapping <;> simp [adapt, Withheld, hp, hs, hr, hc]
    | false =>
      have hc : CommentedOut k s line.remapped.text ↔
          Text.isBlank line.remapped.text = false ∧
            s.indent ≤ Text.indentation line.remapped.text :=
        ⟨fun hc => ⟨hc.visible, hc.deep⟩, fun hv => ⟨hs, hp, hv.1, hv.2⟩⟩
      cases hb : Text.isBlank line.remapped.text <;>
        by_cases hd : s.indent ≤ Text.indentation line.remapped.text <;>
        simp [adapt, Withheld, hp, hs, hb, hd, hc]
  · have he : kind k line.remapped.text = .eval := by
      revert h hp
      cases kind k line.remapped.text <;> simp [LineKind.structural]
    have hn := not_withheld_of_ne_plain (s := s) hp
    cases hs : s.active <;> cases hb : Text.isBlank line.remapped.text <;>
      simp [adapt, he, hs, hb, hn]

/-- The messages of a line that is read are heard, whatever it does to the stack. -/
theorem heard_of_convertLine {s t : Stack} {line : Line} {text : Text} {surfaces : Bool}
    (h : convertLine k context line (next s) = .ok (text, surfaces) t) :
    (if surfaces then surface context.file (s.line + 1) line.remapped.messages else []) =
      heard k context (s, line) := by
  have hsurfaces : surfaces = !decide (Withheld k s line.remapped.text) := by
    cases hk : (kind k line.remapped.text).structural with
    | false =>
      rw [convertLine_of_not_structural k context hk] at h
      injection h with hadapt
      have hsecond : (adapt k s (kind k line.remapped.text = .eval) line).2 = surfaces :=
        congrArg Prod.snd hadapt
      rw [← hsecond, adapt_surfaces hk]
    | true =>
      have hn : ¬Withheld k s line.remapped.text := not_withheld_of_ne_plain fun hp => by
        rw [hp] at hk
        cases hk
      have hk' : (Directive.read k (Text.strip line.remapped.text)).kind.structural = true := hk
      simp only [convertLine, hk', if_true] at h
      obtain ⟨_, u, -, h⟩ := exists_of_bind_eq_ok h
      cases h
      simp [hn]
  subst hsurfaces
  by_cases hw : Withheld k s line.remapped.text <;> simp [heard, hw, surface]

/-! ### Many lines -/

variable (k context) in
/-- The lines that are read, each with the stack in front of it. -/
def readings : Stack → List Line → List (Stack × Line)
  | _, [] => []
  | s, line :: rest =>
    match advance k context s line with
    | .ok (t, _) => (s, line) :: readings t rest
    | .error _ => []

theorem readings_cons_ok {s t : Stack} {line : Line} {text : Text}
    (h : advance k context s line = .ok (t, text)) (rest : List Line) :
    readings k context s (line :: rest) = (s, line) :: readings k context t rest := by
  rw [readings, h]

theorem readings_cons_error {s : Stack} {line : Line} {e : Block.Error}
    (h : advance k context s line = .error e) (rest : List Line) :
    readings k context s (line :: rest) = [] := by
  rw [readings, h]

/-- The diagnostics of a conversion are what is heard of the lines that are read. -/
theorem diagnostics_convertFrom (s : Stack) (lines : List Line) :
    (convertFrom k context s.line s lines).diagnostics =
      (readings k context s lines).flatMap (heard k context) := by
  induction lines generalizing s with
  | nil =>
    simp only [convertFrom, Block.finish_eq]
    cases s.frames <;> rfl
  | cons line rest ih =>
    have hnext : next s = { s with line := s.line + 1 } := rfl
    simp only [convertFrom, ← hnext]
    cases h : convertLine k context line (next s) with
    | error e t =>
      have ha : advance k context s line = .error e := by rw [advance, ← hnext, h]
      rw [readings_cons_error ha]
      rfl
    | ok p t =>
      obtain ⟨text, surfaces⟩ := p
      have ha : advance k context s line = .ok (t, text) := by rw [advance, ← hnext, h]
      rw [readings_cons_ok ha, List.flatMap_cons, ← ih, line_of_advance k context ha]
      exact congrArg (· ++ _) (heard_of_convertLine h)

/-- A line that is read is read behind its predecessors. -/
theorem scan_of_readings {s t : Stack} {lines : List Line} {line : Line} {i : Nat}
    (h : (readings k context s lines)[i]? = some (t, line)) :
    lines[i]? = some line ∧ ∃ texts, scan k context s (lines.take i) = .ok (t, texts) := by
  induction lines generalizing s i with
  | nil => cases h
  | cons first rest ih =>
    cases ha : advance k context s first with
    | error e =>
      rw [readings_cons_error ha] at h
      cases h
    | ok p =>
      obtain ⟨u, text⟩ := p
      rw [readings_cons_ok ha] at h
      cases i with
      | zero =>
        cases h
        exact ⟨rfl, [], rfl⟩
      | succ i =>
        obtain ⟨hline, texts, hscan⟩ := ih h
        exact ⟨hline, text :: texts, scan_cons_ok.2 ⟨u, text, texts, ha, hscan, rfl⟩⟩

/-- All lines are read, or the first one that is not stops them. -/
theorem length_readings (s : Stack) (lines : List Line) :
    (∃ p, scan k context s lines = .ok p ∧
        (readings k context s lines).length = lines.length) ∨
      ∃ t texts line e, scan k context s lines = .error e ∧
        scan k context s (lines.take (readings k context s lines).length) = .ok (t, texts) ∧
        lines[(readings k context s lines).length]? = some line ∧
        advance k context t line = .error e := by
  induction lines generalizing s with
  | nil => exact .inl ⟨_, rfl, rfl⟩
  | cons line rest ih =>
    cases ha : advance k context s line with
    | error e =>
      rw [readings_cons_error ha]
      exact .inr ⟨s, [], line, e, bind_eq_error.2 (.inl ha), rfl, rfl, ha⟩
    | ok p =>
      obtain ⟨t, text⟩ := p
      rw [readings_cons_ok ha, List.length_cons]
      obtain ⟨⟨u, texts⟩, hscan, hlength⟩ | ⟨u, texts, stopped, e, hscan, hbefore, hline, hstop⟩ :=
        ih t
      · exact .inl ⟨_, scan_cons_ok.2 ⟨t, text, texts, ha, hscan, rfl⟩, by rw [hlength]; rfl⟩
      · refine .inr ⟨u, text :: texts, stopped, e, ?_, ?_, hline, hstop⟩
        · exact bind_eq_error.2 (.inr ⟨_, ha, bind_eq_error.2 (.inl hscan)⟩)
        · exact scan_cons_ok.2 ⟨t, text, texts, ha, hbefore, rfl⟩

/-- The fault of a directive is not that of a block that is left open. -/
theorem ne_missingEndIf_of_stop {s : Stack} {d : Directive} {e : Block.Error}
    (h : Stop context s d e) (n : Nat) : e ≠ context.fault n .missingEndIf := by
  have hverdict {argument : Text} (hv : context.verdict s.line argument = .error e) :
      e ≠ context.fault n .missingEndIf := by
    obtain ⟨fault, rfl, rfl | ⟨refusal, rfl⟩⟩ | ⟨literal, rfl, -⟩ := Block.Context.verdict_error hv
    all_goals nofun
  cases h with
  | ifHolds hv => exact hverdict hv
  | elseIf _ _ _ hv => exact hverdict hv
  | _ => nofun

/-- **What surfaces.** The diagnostics of a conversion are what is heard of the lines that are
read, in their order. All lines are read when there is a result or a block is missing its end;
otherwise the lines are read up to the one that the conversion fails at. A report has them
behind those it had, it counts as failed if it did or there is one of them, nothing else about it
changes, and one line is printed for each, which only a stripped stream can refuse; without
colours that is file, line and message. -/
theorem diagnostics_surface (k : Keywords) (context : Context) (lines : List Line) :
    ∃ read : List (Stack × Line),
      (∀ (i : Nat) (s : Stack) (line : Line), read[i]? = some (s, line) →
        lines[i]? = some line ∧ s.line = i ∧
          ∃ texts, scan k context .start (lines.take i) = .ok (s, texts)) ∧
      (read.length = lines.length ∧
          ((∃ out, (convert k context lines).result = .ok out) ∨
            ∃ n, (convert k context lines).result = .error (context.fault n .missingEndIf)) ∨
        ∃ s texts line e, (convert k context lines).result = .error e ∧
          (∀ n, e ≠ context.fault n .missingEndIf) ∧
          scan k context .start (lines.take read.length) = .ok (s, texts) ∧
          lines[read.length]? = some line ∧
          Stop context (next s) (directive k line.remapped.text) e) ∧
      ∃ ds, (convert k context lines).diagnostics = ds ∧ ds = read.flatMap (heard k context) ∧
        ∀ r : Report,
          ((∃ stream, r.stream.writeLines (ds.map (·.render r.coloured)) = .ok stream ∧
              Report.addDiagnostics ds r = .ok () (withDiagnostics ds stream r)) ∨
            r.stream.mode = .stripped ∧
              ∃ fault r', r.stream.writeLines (ds.map (·.render r.coloured)) = .error fault ∧
                Report.addDiagnostics ds r = .error fault r') ∧
          ∀ printed, Report.addDiagnostics ds { r with stream := ⟨.plain, printed⟩ } =
            .ok () (withDiagnostics ds ⟨.plain, printed ++ Report.printout ds⟩ r) := by
  refine ⟨readings k context .start lines, fun i s line h => ?_, ?_, _, rfl,
    diagnostics_convertFrom .start lines,
    fun r => ⟨Report.addDiagnostics_writeLines _ r, Report.addDiagnostics_plain _ r⟩⟩
  · obtain ⟨hline, texts, hscan⟩ := scan_of_readings h
    refine ⟨hline, ?_, texts, hscan⟩
    have hlt : i < lines.length := (List.getElem?_eq_some_iff.1 hline).1
    rw [line_of_scan hscan, List.length_take, Nat.min_eq_left hlt.le]
    exact Nat.zero_add i
  · rw [result_convert]
    obtain ⟨⟨s, texts⟩, hscan, hlength⟩ | ⟨s, texts, line, e, hscan, hbefore, hline, hstop⟩ :=
      @length_readings k context .start lines
    · refine .inl ⟨hlength, ?_⟩
      rw [hscan, ok_bind, conclude]
      cases s.frames with
      | nil => exact .inl ⟨texts, rfl⟩
      | cons top outer => exact .inr ⟨top.line, rfl⟩
    · have hs := (stop_of_advance k context hstop).2
      refine .inr ⟨s, texts, line, e, ?_, ne_missingEndIf_of_stop hs, hbefore, hline, hs⟩
      rw [hscan, error_bind]

/-- The message of the line in front of the one that fails surfaces, the one of a line that is
commented out does not, and what is behind is not looked at. -/
example : (convert .standard ⟨.empty, "a.java".toText⟩
    [⟨"x".toText, "u".toText, ["first".toText]⟩, .same "//#ifdef A".toText,
      ⟨"y".toText, "v".toText, ["second".toText]⟩, .same "//#enable-remap".toText,
      ⟨"z".toText, "w".toText, ["third".toText]⟩]).diagnostics =
    [⟨"a.java".toText, 1, "first".toText⟩] := by decide

end Source

end Multiversion
