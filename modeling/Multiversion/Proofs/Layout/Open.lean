import Mathlib.Data.List.Induction
import Multiversion.Proofs.Layout.Meaning

/-! Chains that are still open.

What has been read of a text is a row of open chains, each inside the last branch
of the one before (`Standing`). The frame that an open chain has on the stack is a
function of its lines (`Opened.frame`): whether a branch of it holds, and the line
of the last directive that was looked at. `Standing.of_scan` says that the stack
holds nothing else, and `frames_of_scan_chain` that reading the lines of a chain
puts its frame on top. -/
namespace Multiversion.Layout
open Block (Stack Frame Context Step Stop)
open Source (Line)

variable {k : Keywords}

/-! ### Chains -/

/-- Whether the condition of a line holds, or the name behind its token is bound. -/
def LineOf.holds {kinds : List LineKind} (context : Context) (l : LineOf k kinds) : Bool :=
  if l.kind = .ifDefined then context.defines l.argument
  else context.value? l.argument = some true

/-- The branches of a chain so far, each with the body behind its head. -/
inductive Chain (k : Keywords) where
  | first (head : LineOf k [.ifHolds, .ifDefined]) (body : Body k)
  | elseIf (before : Chain k) (head : LineOf k [.elseIf]) (body : Body k)

/-- A chain that is not closed, with its `else` or without. -/
inductive Opened (k : Keywords) where
  | branch (chain : Chain k)
  | otherwise (before : Chain k) (head : LineOf k [.otherwise]) (body : Body k)

namespace Chain

/-- The lines of the branches. -/
def lines : Chain k → List Line
  | first head body => head.line :: body.lines
  | elseIf before head body => before.lines ++ (head.line :: body.lines)

/-- A branch has a condition that holds, or a name that is bound. -/
def matched (context : Context) : Chain k → Bool
  | first head _ => head.holds context
  | elseIf before head _ => before.matched context || head.holds context

/-- The line of the last head that was looked at, when so many lines stand before
the chain. Behind a branch that holds an `elseif` is not looked at. -/
def cited (context : Context) (read : Nat) : Chain k → Nat
  | first _ _ => read + 1
  | elseIf before _ _ =>
    if before.matched context then before.cited context read
    else read + before.lines.length + 1

/-- The frame that the stack has for the branches. -/
def frame (context : Context) (read : Nat) : Chain k → Frame
  | first head _ =>
    ⟨head.holds context, read + 1, false, head.holds context, head.indent⟩
  | elseIf before head _ =>
    nextBranch (before.frame context read) (!before.matched context && head.holds context)
      (read + before.lines.length + 1) head.indent

/-- The branches with more items in the body of the last one. -/
def extend : Chain k → Body k → Chain k
  | first head body, b => first head (body.append b)
  | elseIf before head body, b => elseIf before head (body.append b)

/-- The chain that the branches are with those that follow. -/
def close : Chain k → Branches k → Body k
  | first head body, more => .chain head body more .nil
  | elseIf before head body, more => before.close (.elseIf head body more)

@[simp] theorem frame_elseFound (context : Context) (read : Nat) (c : Chain k) :
    (c.frame context read).elseFound = false := by
  induction c with
  | first head body => rfl
  | elseIf before head body ih => exact nextBranch_elseFound ih _ _ _

@[simp] theorem frame_matched (context : Context) (read : Nat) (c : Chain k) :
    (c.frame context read).matched = c.matched context := by
  induction c with
  | first head body => rfl
  | elseIf before head body ih =>
    rw [frame, nextBranch_matched, ih, matched]
    cases before.matched context <;> rfl

@[simp] theorem frame_line (context : Context) (read : Nat) (c : Chain k) :
    (c.frame context read).line = c.cited context read := by
  induction c with
  | first head body => rfl
  | elseIf before head body ih =>
    rw [frame, nextBranch, frame_matched, cited]
    split
    · exact ih
    · rfl

@[simp] theorem lines_extend (c : Chain k) (b : Body k) :
    (c.extend b).lines = c.lines ++ b.lines := by
  cases c <;> simp [extend, lines]

@[simp] theorem frame_extend (context : Context) (read : Nat) (c : Chain k) (b : Body k) :
    (c.extend b).frame context read = c.frame context read := by
  cases c <;> rfl

@[simp] theorem lines_close (c : Chain k) (more : Branches k) :
    (c.close more).lines = c.lines ++ more.lines := by
  induction c generalizing more with
  | first head body => simp [close, lines, Body.lines]
  | elseIf before head body ih => simp [close, lines, ih, Branches.lines]

end Chain

namespace Opened

/-- The lines of the chain so far. -/
def lines : Opened k → List Line
  | branch chain => chain.lines
  | otherwise before head body => before.lines ++ (head.line :: body.lines)

/-- The line of the last directive of the chain that was looked at. -/
def cited (context : Context) (read : Nat) : Opened k → Nat
  | branch chain => chain.cited context read
  | otherwise before _ _ => read + before.lines.length + 1

/-- The frame that the stack has for the chain. -/
def frame (context : Context) (read : Nat) : Opened k → Frame
  | branch chain => chain.frame context read
  | otherwise before head _ =>
    lastBranch (before.frame context read) (read + before.lines.length + 1) head.indent

/-- The chain with more items in the body of its last branch. -/
def extend : Opened k → Body k → Opened k
  | branch chain, b => branch (chain.extend b)
  | otherwise before head body, b => otherwise before head (body.append b)

/-- The chain with its `endif`. -/
def close : Opened k → LineOf k [.endIf] → Body k
  | branch chain, l => chain.close (.endIf l)
  | otherwise before head body, l => before.close (.otherwise head body l)

@[simp] theorem frame_line (context : Context) (read : Nat) (o : Opened k) :
    (o.frame context read).line = o.cited context read := by
  cases o with
  | branch chain => exact chain.frame_line context read
  | otherwise before head body => rfl

@[simp] theorem lines_extend (o : Opened k) (b : Body k) :
    (o.extend b).lines = o.lines ++ b.lines := by
  cases o <;> simp [extend, lines]

@[simp] theorem frame_extend (context : Context) (read : Nat) (o : Opened k) (b : Body k) :
    (o.extend b).frame context read = o.frame context read := by
  cases o with
  | branch chain => exact chain.frame_extend context read b
  | otherwise before head body => rfl

@[simp] theorem lines_close (o : Opened k) (l : LineOf k [.endIf]) :
    (o.close l).lines = o.lines ++ [l.line] := by
  cases o <;> simp [close, lines, Branches.lines]

/-- Without its `else`, a chain is its branches. -/
theorem eq_branch {context : Context} {read : Nat} {o : Opened k}
    (h : (o.frame context read).elseFound = false) : ∃ c, o = branch c := by
  cases o with
  | branch chain => exact ⟨chain, rfl⟩
  | otherwise before head body => cases h

end Opened

/-! ### Rows of open chains -/

/-- The lines are items and then open chains, one inside the other, and these are
the frames of the chains, the innermost first. -/
inductive Standing (k : Keywords) (context : Context) : List Line → List Frame → Prop
  | outside (b : Body k) : Standing k context b.lines []
  | inside {lines outer} (o : Opened k) : Standing k context lines outer →
      Standing k context (lines ++ o.lines) (o.frame context lines.length :: outer)

variable {context : Context}

/-- More items leave the chains open as they are. -/
theorem Standing.append {lines : List Line} {frames : List Frame}
    (h : Standing k context lines frames) (b : Body k) :
    Standing k context (lines ++ b.lines) frames := by
  cases h with
  | outside c =>
    rw [← Body.lines_append]
    exact .outside _
  | inside o houter =>
    rw [List.append_assoc, ← Opened.lines_extend, ← o.frame_extend context _ b]
    exact .inside _ houter

theorem Standing.congr {lines lines' : List Line} {frames frames' : List Frame}
    (h : Standing k context lines frames) (hl : lines = lines') (hf : frames = frames') :
    Standing k context lines' frames' := hl ▸ hf ▸ h

theorem LineOf.holds_of_verdict {kinds : List LineKind} {l : LineOf k kinds} {kind : LineKind}
    {argument : Text} {line : Nat} {selected : Bool}
    (hd : Source.directive k l.line.remapped.text = ⟨kind, argument⟩) (hk : kind ≠ .ifDefined)
    (hv : context.verdict line argument = .ok selected) : l.holds context = selected := by
  have hkind : l.kind = kind := congrArg Directive.kind hd
  have hargument : l.argument = argument := congrArg Directive.argument hd
  rw [LineOf.holds, if_neg (by rw [hkind]; exact hk), hargument,
    Context.verdict_eq_ok_iff.1 hv]
  cases selected <;> rfl

/-- A line that moves the stack opens, continues or closes the innermost chain. -/
theorem Standing.step {lines : List Line} {s t : Stack} {line : Line} {d : Directive}
    (h : Standing k context lines s.frames) (hline : s.line = lines.length + 1)
    (hd : Source.directive k line.remapped.text = d)
    (hstep : Step context (Text.indentation line.remapped.text) s d t) :
    Standing k context (lines ++ [line]) t.frames := by
  cases hstep with
  | @ifHolds argument selected hv =>
    let head : LineOf k [.ifHolds, .ifDefined] := .ofDirective hd (by decide)
    have hholds : head.holds context = selected :=
      LineOf.holds_of_verdict hd (by decide) hv
    refine (Standing.inside (.branch (.first head .nil)) h).congr rfl ?_
    rw [Stack.push, hline, ← hholds]
    rfl
  | @ifDefined argument =>
    let head : LineOf k [.ifHolds, .ifDefined] := .ofDirective hd (by decide)
    have hholds : head.holds context = context.defines argument := by
      have hkind : head.kind = .ifDefined := congrArg Directive.kind hd
      have hargument : head.argument = argument := congrArg Directive.argument hd
      rw [LineOf.holds, if_pos hkind, hargument]
    refine (Standing.inside (.branch (.first head .nil)) h).congr rfl ?_
    rw [Stack.push, hline, ← hholds]
    rfl
  | @elseIfPassed argument top outer hf he hm =>
    rw [hf] at h
    cases h with
    | @inside before outer o houter =>
      obtain ⟨c, rfl⟩ := Opened.eq_branch he
      let head : LineOf k [.elseIf] := .ofDirective hd (by decide)
      refine (Standing.inside (.branch (.elseIf c head .nil)) houter).congr
        (List.append_assoc _ _ _).symm ?_
      have hmatched : c.matched context = true := (c.frame_matched context _).symm.trans hm
      simp only [Opened.frame, Chain.frame, nextBranch, Chain.frame_matched, hmatched]
      rfl
  | @elseIf argument top outer selected hf he hm hv =>
    rw [hf] at h
    cases h with
    | @inside before outer o houter =>
      obtain ⟨c, rfl⟩ := Opened.eq_branch he
      let head : LineOf k [.elseIf] := .ofDirective hd (by decide)
      have hholds : head.holds context = selected :=
        LineOf.holds_of_verdict hd (by decide) hv
      refine (Standing.inside (.branch (.elseIf c head .nil)) houter).congr
        (List.append_assoc _ _ _).symm ?_
      have hmatched : c.matched context = false := (c.frame_matched context _).symm.trans hm
      simp only [Opened.frame, Chain.frame, nextBranch, Chain.frame_matched, hmatched, hholds,
        hline, List.length_append, Opened.lines]
      rfl
  | @otherwise argument top outer hf he =>
    rw [hf] at h
    cases h with
    | @inside before outer o houter =>
      obtain ⟨c, rfl⟩ := Opened.eq_branch he
      let head : LineOf k [.otherwise] := .ofDirective hd (by decide)
      refine (Standing.inside (.otherwise c head .nil) houter).congr
        (List.append_assoc _ _ _).symm ?_
      simp only [hline, List.length_append, Opened.lines]
      rfl
  | @endIf argument top outer hf =>
    rw [hf] at h
    cases h with
    | @inside before outer o houter =>
      let close : LineOf k [.endIf] := .ofDirective hd (by decide)
      refine (houter.append (o.close close)).congr ?_ rfl
      rw [Opened.lines_close, List.append_assoc]
      rfl
  | disableRemap hr =>
    let toggle : LineOf k [.disableRemap, .enableRemap] := .ofDirective hd (by decide)
    exact h.append (.toggle toggle .nil)
  | enableRemap hr =>
    let toggle : LineOf k [.disableRemap, .enableRemap] := .ofDirective hd (by decide)
    exact h.append (.toggle toggle .nil)

theorem mem_of_not_structural {kind : LineKind} (h : kind.structural = false) :
    kind ∈ [LineKind.eval, .plain] := by
  cases kind <;> first | decide | cases h

/-- The blocks on the stack are the open chains of the lines that have been read. -/
theorem Standing.of_scan {lines : List Line} {t : Stack} {texts : List Text}
    (h : Source.scan k context .start lines = .ok (t, texts)) :
    Standing k context lines t.frames := by
  -- from the end: the last line is a step from the stack that the others lead to
  induction lines using List.reverseRecOn generalizing t texts with
  | nil =>
    cases h
    exact .outside .nil
  | append_singleton lines line ih =>
    obtain ⟨u, x, text, hlines, ha, rfl⟩ := Source.scan_concat_ok.1 h
    have hu : Standing k context lines u.frames := ih hlines
    have hnext : Standing k context lines (Source.next u).frames := hu
    cases hk : (Source.kind k line.remapped.text).structural with
    | true =>
      exact hnext.step (Source.next_line_of_scan hlines) rfl
        (Source.step_of_advance k context hk ha).2
    | false =>
      rw [Source.advance_of_not_structural k context u hk] at ha
      cases ha
      exact hu.append (.line ⟨line, mem_of_not_structural hk⟩ .nil)

/-! ### Reading the lines of a chain -/

theorem eq_stack (s : Stack) : s = (⟨s.line, s.remapping⟩ : Progress).stack s.frames := rfl

theorem holds_of_opens {p : Progress} {head : LineOf k [.ifHolds, .ifDefined]} {selected : Bool}
    (h : opens context p head = .ok selected) : head.holds context = selected := by
  rcases head.kind_of_pair with hk | hk
  · rw [opens, if_pos hk] at h
    exact LineOf.holds_of_verdict head.directive_eq (by rw [hk]; decide) h
  · rw [opens, if_neg (by rw [hk]; decide)] at h
    cases h
    rw [LineOf.holds, if_pos hk]

theorem holds_of_continues {found : Bool} {p : Progress} {head : LineOf k [.elseIf]}
    {selected : Bool} (h : continues context found p head = .ok selected) :
    (!found && head.holds context) = selected := by
  cases found with
  | true =>
    cases h
    rfl
  | false =>
    have hv : context.verdict p.next.line head.argument = .ok selected := h
    rw [Bool.not_false, Bool.true_and]
    exact LineOf.holds_of_verdict head.directive_eq (by rw [head.kind_of_singleton]; decide) hv

theorem frames_of_scan_body (hs : Text.startsVisible k.eval = true) {b : Body k} {s t : Stack}
    {texts : List Text} (h : Source.scan k context s b.lines = .ok (t, texts)) :
    t.frames = s.frames := by
  rw [eq_stack s, scan_body context hs] at h
  obtain ⟨q, _, hq⟩ := bind_eq_ok.1 h
  cases hq
  rfl

/-- Reading the branches of a chain puts its frame on the stack. -/
theorem frames_of_scan_chain (hs : Text.startsVisible k.eval = true) {c : Chain k}
    {s t : Stack} {texts : List Text} (h : Source.scan k context s c.lines = .ok (t, texts)) :
    t.frames = c.frame context s.line :: s.frames := by
  induction c generalizing t texts with
  | first head body =>
    obtain ⟨u, text, more, ha, hbody, rfl⟩ := Source.scan_cons_ok.1 h
    rw [eq_stack s, advance_head] at ha
    obtain ⟨selected, ho, hu⟩ := bind_eq_ok.1 ha
    cases hu
    rw [frames_of_scan_body hs hbody, Chain.frame, holds_of_opens ho]
    rfl
  | elseIf before head body ih =>
    obtain ⟨u, x, y, hbefore, hlast, rfl⟩ := Source.scan_append_ok.1 h
    obtain ⟨v, text, more, ha, hbody, rfl⟩ := Source.scan_cons_ok.1 hlast
    rw [eq_stack u, ih hbefore, advance_elseIf _ _ _ (before.frame_elseFound context _)] at ha
    obtain ⟨selected, hc, hv⟩ := bind_eq_ok.1 ha
    cases hv
    rw [Chain.frame_matched] at hc
    rw [frames_of_scan_body hs hbody, Chain.frame, holds_of_continues hc,
      ← Source.line_of_scan hbefore]
    rfl

end Multiversion.Layout
