import Multiversion.Proofs.Layout.Tree
import Multiversion.Proofs.Source.Scan

/-! What a tree of blocks means, without a stack.

A body is read in a region: active or not, at the indentation of the directive
that heads its branch. `Body.render` is the recursion over the tree; it carries
the number of lines read and whether remapping is on, and nothing of the blocks
around. A branch is selected if it is the first of its chain whose condition holds,
and an `else` if none before it is.

`scan_body` says that the stack does the same and leaves the blocks below as they
were. At the outside of all blocks that is `result_convert_lines`: the conversion
of the lines of a tree is what the tree means, errors included. -/
namespace Multiversion.Layout
open Block (Stack Frame Context Step Stop)
open Source (Line)

/-! ### Regions -/

/-- Where a line stands. -/
structure Region where
  /-- All branches around are selected. -/
  active : Bool
  /-- The indentation of the directive that heads the innermost branch. -/
  indent : Nat

/-- Outside of all blocks. -/
def Region.outside : Region := ⟨true, 0⟩

/-- What a line that is not structural becomes. -/
def Region.emit (k : Keywords) (r : Region) (remapping : Bool) (line : Line) : Text :=
  let text := line.remapped.text
  if r.active then
    if Source.kind k text = .eval then Source.uncover k text
    else if remapping then text
    else line.raw
  else if Text.isBlank text then Source.placeholder k r.indent
  else if Source.kind k text ≠ .eval ∧ r.indent ≤ Text.indentation text then
    Source.commented k r.indent (line.raw.drop r.indent)
  else text

/-! ### Trees -/

/-- How far reading has come. -/
structure Progress where
  /-- The lines that have been read. -/
  line : Nat
  /-- Remapped text is used where it can be. -/
  remapping : Bool

namespace Progress

/-- Nothing has been read. -/
def start : Progress := ⟨0, true⟩

/-- One line more. -/
def next (p : Progress) : Progress := { p with line := p.line + 1 }

/-- One line more, which switches remapping. -/
def switch {k : Keywords} (context : Context) (p : Progress)
    (l : LineOf k [.disableRemap, .enableRemap]) : Except Block.Error Progress :=
  if l.kind = .disableRemap then
    if p.remapping then .ok { p.next with remapping := false }
    else .error (context.fault p.next.line .remapAlreadyDisabled)
  else
    if p.remapping then .error (context.fault p.next.line .remapNotDisabled)
    else .ok { p.next with remapping := true }

end Progress

variable {k : Keywords}

/-- Whether the first branch of a chain is selected, when its head is the next line. -/
def opens (context : Context) (p : Progress) (head : LineOf k [.ifHolds, .ifDefined]) :
    Except Block.Error Bool :=
  if head.kind = .ifHolds then context.verdict p.next.line head.argument
  else .ok (context.defines head.argument)

/-- Whether an `elseif` is selected, when it is the next line. Behind a selected
branch it is not looked at. -/
def continues (context : Context) (found : Bool) (p : Progress) (head : LineOf k [.elseIf]) :
    Except Block.Error Bool :=
  if found then .ok false else context.verdict p.next.line head.argument

mutual

/-- What the lines of a body become in a region. -/
def Body.render (context : Context) (r : Region) (p : Progress) :
    Body k → Except Block.Error (Progress × List Text)
  | .nil => .ok (p, [])
  | .line l rest => do
    let (q, texts) ← rest.render context r p.next
    pure (q, r.emit k p.remapping l.line :: texts)
  | .toggle l rest => do
    let p ← p.switch context l
    let (q, texts) ← rest.render context r p
    pure (q, l.text :: texts)
  | .chain head body more rest => do
    let selected ← opens context p head
    let (p, inner) ← body.render context ⟨r.active && selected, head.indent⟩ p.next
    let (p, others) ← more.render context r.active selected p
    let (q, texts) ← rest.render context r p
    pure (q, head.text :: (inner ++ (others ++ texts)))

/-- What the lines of the branches that follow become, when the chain stands in an
active region or not and a branch has been selected or not. -/
def Branches.render (context : Context) (active found : Bool) (p : Progress) :
    Branches k → Except Block.Error (Progress × List Text)
  | .endIf close => .ok (p.next, [close.text])
  | .otherwise head body close => do
    let (q, inner) ← body.render context ⟨active && !found, head.indent⟩ p.next
    pure (q.next, head.text :: (inner ++ [close.text]))
  | .elseIf head body more => do
    let selected ← continues context found p head
    let (p, inner) ← body.render context ⟨active && selected, head.indent⟩ p.next
    let (q, others) ← more.render context active (found || selected) p
    pure (q, head.text :: (inner ++ others))

end

/-! ### The stack does the same -/

/-- The region inside of open blocks. -/
def regionOf (frames : List Frame) : Region :=
  ⟨frames.all Frame.current, Stack.indent ⟨frames, true, 0⟩⟩

/-- The stack with open blocks when reading has come so far. -/
def Progress.stack (p : Progress) (frames : List Frame) : Stack := ⟨frames, p.remapping, p.line⟩

theorem next_stack (p : Progress) (frames : List Frame) :
    Source.next (p.stack frames) = p.next.stack frames := rfl

theorem regionOf_cons (top : Frame) (outer : List Frame) :
    regionOf (top :: outer) = ⟨(regionOf outer).active && top.current, top.indent⟩ := by
  simp [regionOf, Stack.indent, Bool.and_comm]

/-- In a region a line becomes what the stack makes of it. -/
theorem rewrite_eq_emit (hs : Text.startsVisible k.eval = true) (p : Progress)
    (frames : List Frame) (line : Line) :
    Source.rewrite k (p.stack frames) line = (regionOf frames).emit k p.remapping line := by
  have hactive : (p.stack frames).active = (regionOf frames).active := rfl
  have hindent : (p.stack frames).indent = (regionOf frames).indent := rfl
  have hremapping : (p.stack frames).remapping = p.remapping := rfl
  simp only [Source.rewrite, Source.adapt, Region.emit, hactive, hindent, hremapping]
  generalize regionOf frames = r
  by_cases ha : r.active = true
  · by_cases he : Source.kind k line.remapped.text = .eval
    · simp only [ha, he, if_true, decide_true, Source.enable_eq_uncover hs he]
    · simp only [ha, he, if_true, decide_false, Bool.false_eq_true, if_false]
      split <;> rfl
  · simp only [ha, Bool.false_eq_true, if_false, Bool.and_eq_true, Bool.not_eq_true',
      decide_eq_false_iff_not, decide_eq_true_eq, Source.placeholder, Source.commented,
      List.append_assoc, ne_eq]
    split
    · rfl
    · split <;> rfl

/-- The frame of a chain in its next branch. Behind a selected branch the line of
the last directive that was looked at stays. -/
def nextBranch (top : Frame) (selected : Bool) (line indent : Nat) : Frame :=
  if top.matched then { top with current := selected, indent := indent }
  else ⟨selected, line, false, selected, indent⟩

theorem nextBranch_elseFound {top : Frame} (he : top.elseFound = false) (selected : Bool)
    (line indent : Nat) : (nextBranch top selected line indent).elseFound = false := by
  unfold nextBranch
  split
  · exact he
  · rfl

@[simp] theorem nextBranch_matched (top : Frame) (selected : Bool) (line indent : Nat) :
    (nextBranch top selected line indent).matched = (top.matched || selected) := by
  unfold nextBranch
  split <;> simp_all

@[simp] theorem nextBranch_current (top : Frame) (selected : Bool) (line indent : Nat) :
    (nextBranch top selected line indent).current = selected := by
  unfold nextBranch
  split <;> rfl

@[simp] theorem nextBranch_indent (top : Frame) (selected : Bool) (line indent : Nat) :
    (nextBranch top selected line indent).indent = indent := by
  unfold nextBranch
  split <;> rfl

variable (context : Context) (p : Progress) (frames : List Frame)

/-- What a structural line does to the stack, with what it is known to be. -/
theorem advance_structural {kinds : List LineKind} (l : LineOf k kinds)
    (h : ∀ kind ∈ kinds, kind.structural = true) :
    (∃ t, Source.advance k context (p.stack frames) l.line = .ok (t, l.text) ∧
        Step context l.indent (p.next.stack frames) ⟨l.kind, l.argument⟩ t) ∨
      ∃ e, Source.advance k context (p.stack frames) l.line = .error e ∧
        Stop context (p.next.stack frames) ⟨l.kind, l.argument⟩ e :=
  Source.advance_of_structural k context (p.stack frames) (h _ l.fits)

theorem advance_line (hs : Text.startsVisible k.eval = true) (l : LineOf k [.eval, .plain]) :
    Source.advance k context (p.stack frames) l.line =
      .ok (p.next.stack frames, (regionOf frames).emit k p.remapping l.line) := by
  have hnot : (Source.kind k l.line.remapped.text).structural = false := by
    rcases l.kind_of_pair with h | h <;> exact congrArg LineKind.structural h
  rw [Source.advance_of_not_structural k context _ hnot, rewrite_eq_emit hs, next_stack]

theorem advance_toggle (l : LineOf k [.disableRemap, .enableRemap]) :
    Source.advance k context (p.stack frames) l.line = (do
      let q ← p.switch context l
      pure (q.stack frames, l.text)) := by
  rcases advance_structural context p frames l (by decide) with ⟨t, ha, hstep⟩ | ⟨e, ha, hstop⟩
  · rw [ha]
    rcases l.kind_of_pair with hk | hk <;> rw [hk] at hstep
    · cases hstep with
      | disableRemap hr =>
        have hp : p.remapping = true := hr
        simp only [Progress.switch, hk, hp]
        rfl
    · cases hstep with
      | enableRemap hr =>
        have hp : p.remapping = false := hr
        simp only [Progress.switch, hk, hp]
        rfl
  · rw [ha]
    rcases l.kind_of_pair with hk | hk <;> rw [hk] at hstop
    · cases hstop with
      | alreadyDisabled hr =>
        have hp : p.remapping = false := hr
        simp only [Progress.switch, hk, hp]
        rfl
      | notStructural h => cases h
    · cases hstop with
      | notDisabled hr =>
        have hp : p.remapping = true := hr
        simp only [Progress.switch, hk, hp]
        rfl
      | notStructural h => cases h

theorem advance_head (head : LineOf k [.ifHolds, .ifDefined]) :
    Source.advance k context (p.stack frames) head.line = (do
      let selected ← opens context p head
      pure (p.next.stack (⟨selected, p.next.line, false, selected, head.indent⟩ :: frames),
        head.text)) := by
  rcases advance_structural context p frames head (by decide) with
    ⟨t, ha, hstep⟩ | ⟨e, ha, hstop⟩
  · rw [ha]
    rcases head.kind_of_pair with hk | hk <;> rw [hk] at hstep
    · cases hstep with
      | ifHolds hv =>
        have hp : context.verdict p.next.line head.argument = _ := hv
        simp only [opens, hk, hp]
        rfl
    · cases hstep with
      | ifDefined =>
        simp only [opens, hk]
        rfl
  · rw [ha]
    rcases head.kind_of_pair with hk | hk <;> rw [hk] at hstop
    · cases hstop with
      | ifHolds hv =>
        have hp : context.verdict p.next.line head.argument = _ := hv
        simp only [opens, hk, hp]
        rfl
      | notStructural h => cases h
    · cases hstop with
      | notStructural h => cases h

variable (outer : List Frame) {top : Frame}

theorem advance_elseIf (he : top.elseFound = false) (head : LineOf k [.elseIf]) :
    Source.advance k context (p.stack (top :: outer)) head.line = (do
      let selected ← continues context top.matched p head
      pure (p.next.stack (nextBranch top selected p.next.line head.indent :: outer),
        head.text)) := by
  rcases advance_structural context p (top :: outer) head (by decide) with
    ⟨t, ha, hstep⟩ | ⟨e, ha, hstop⟩
  · rw [ha, head.kind_of_singleton] at *
    cases hstep with
    | elseIfPassed hf _ hm =>
      cases hf
      simp only [continues, nextBranch, hm]
      rfl
    | elseIf hf _ hm hv =>
      cases hf
      have hp : context.verdict p.next.line head.argument = _ := hv
      simp only [continues, nextBranch, hm, hp]
      rfl
  · rw [ha, head.kind_of_singleton] at *
    cases hstop with
    | elseIfOutside hf => cases hf
    | elseIfAfterElse hf he' =>
      cases hf
      rw [he] at he'
      cases he'
    | elseIf hf _ hm hv =>
      cases hf
      have hp : context.verdict p.next.line head.argument = _ := hv
      simp only [continues, hm, hp]
      rfl
    | notStructural h => cases h

/-- The frame of a chain in its last branch. -/
def lastBranch (top : Frame) (line indent : Nat) : Frame :=
  { top with current := !top.matched, elseFound := true, line := line, indent := indent }

theorem advance_otherwise (he : top.elseFound = false) (head : LineOf k [.otherwise]) :
    Source.advance k context (p.stack (top :: outer)) head.line =
      .ok (p.next.stack (lastBranch top p.next.line head.indent :: outer), head.text) := by
  rcases advance_structural context p (top :: outer) head (by decide) with
    ⟨t, ha, hstep⟩ | ⟨e, ha, hstop⟩
  · rw [ha, head.kind_of_singleton] at *
    cases hstep with
    | otherwise hf _ =>
      cases hf
      rfl
  · rw [ha, head.kind_of_singleton] at *
    cases hstop with
    | elseOutside hf => cases hf
    | elseAfterElse hf he' =>
      cases hf
      rw [he] at he'
      cases he'
    | notStructural h => cases h

theorem advance_endIf (top : Frame) (close : LineOf k [.endIf]) :
    Source.advance k context (p.stack (top :: outer)) close.line =
      .ok (p.next.stack outer, close.text) := by
  rcases advance_structural context p (top :: outer) close (by decide) with
    ⟨t, ha, hstep⟩ | ⟨e, ha, hstop⟩
  · rw [ha, close.kind_of_singleton] at *
    cases hstep with
    | endIf hf =>
      cases hf
      rfl
  · rw [ha, close.kind_of_singleton] at *
    cases hstop with
    | endIfOutside hf => cases hf
    | notStructural h => cases h

mutual

/-- Reading the lines of a body does what the body means in the region inside of
the open blocks, and these stay open as they were. -/
theorem scan_body (hs : Text.startsVisible k.eval = true) :
    (b : Body k) → (p : Progress) → (frames : List Frame) →
      Source.scan k context (p.stack frames) b.lines = (do
        let (q, texts) ← b.render context (regionOf frames) p
        pure (q.stack frames, texts))
  | .nil, p, frames => rfl
  | .line l rest, p, frames => by
    simp only [Body.lines, Source.scan, Body.render, advance_line context p frames hs l, ok_bind,
      scan_body hs rest, bind_assoc, pure_bind]
  | .toggle l rest, p, frames => by
    simp only [Body.lines, Source.scan, Body.render, advance_toggle, scan_body hs rest,
      bind_assoc, pure_bind]
  | .chain head body more rest, p, frames => by
    have others (p : Progress) (selected : Bool) (line : Nat) :
        Source.scan k context
            (p.stack (⟨selected, line, false, selected, head.indent⟩ :: frames)) more.lines = _ :=
      scan_branches hs more p frames rfl
    simp only [Body.lines, Source.scan, Body.render, advance_head, Source.scan_append,
      scan_body hs body, others, scan_body hs rest, regionOf_cons, bind_assoc, pure_bind]

/-- The branches that follow, up to the `endif`, close the chain on top. -/
theorem scan_branches (hs : Text.startsVisible k.eval = true) :
    (more : Branches k) → (p : Progress) → (outer : List Frame) → {top : Frame} →
      top.elseFound = false →
      Source.scan k context (p.stack (top :: outer)) more.lines = (do
        let (q, texts) ← more.render context (regionOf outer).active top.matched p
        pure (q.stack outer, texts))
  | .endIf close, p, outer, top, _ => by
    simp only [Branches.lines, Source.scan, Branches.render, advance_endIf, ok_bind]
  | .otherwise head body close, p, outer, top, he => by
    simp only [Branches.lines, Source.scan, Branches.render, advance_otherwise _ _ _ he,
      Source.scan_append, scan_body hs body, advance_endIf, regionOf_cons, lastBranch, ok_bind,
      bind_assoc, pure_bind]
  | .elseIf head body more, p, outer, top, he => by
    simp only [Branches.lines, Source.scan, Branches.render, advance_elseIf _ _ _ he,
      Source.scan_append, scan_body hs body, regionOf_cons,
      scan_branches hs more _ _ (nextBranch_elseFound he _ _ _), nextBranch_current,
      nextBranch_indent, nextBranch_matched, bind_assoc, pure_bind]

end

/-- **The conversion of the lines of a tree is what the tree means**, whatever the
remap made of the lines, and it fails with the first error of the tree. -/
theorem result_convert_lines (hs : Text.startsVisible k.eval = true) (context : Context)
    (b : Body k) :
    (Source.convert k context b.lines).result = (do
      let (_, texts) ← b.render context .outside .start
      pure texts) := by
  have hscan : Source.scan k context .start b.lines = _ := scan_body context hs b .start []
  rw [Source.result_convert, hscan, bind_assoc]
  rfl

/-- A chain on a name that is not bound: its first line is commented out, and the
line of its `else` comes back. -/
theorem result_convert_unbound_name :
    Text.startsVisible Keywords.standard.eval = true ∧
      (Source.convert .standard ⟨.empty, "a.java".toText⟩ <| Body.lines (k := .standard) <|
        .chain ⟨.same "//#ifdef A".toText, by decide⟩ (.line ⟨.same "  x".toText, by decide⟩ .nil)
          (.otherwise ⟨.same "  //#else".toText, by decide⟩
            (.line ⟨.same "  //$$ y".toText, by decide⟩ .nil)
            ⟨.same "//#endif".toText, by decide⟩) .nil).result =
        .ok (["//#ifdef A", "//$$   x", "  //#else", "  y", "//#endif"].map String.toText) :=
  ⟨by decide, (result_convert_lines (by decide) _ _).trans rfl⟩

end Multiversion.Layout
