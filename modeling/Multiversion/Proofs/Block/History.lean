import Mathlib.Data.List.Forall2
import Multiversion.Proofs.Block.Step

/-! Blocks under any operations.

A stack does not ask who feeds it. Operations come in any order and may fail; a failure
stops nothing, and the next operation finds the stack that the failed one left
(`history`). `Happens` lists what one operation can come to, so an operation that fails
leaves all but the line as it was (`Happens.unchanged`).

The flags of a block say little of its past. A ledger is kept beside the stack, from
what the operations show and not from the flags: the branches of every block that is
open or was closed, each with whether it was selected (`Ledger.record`). `Ledger.Keeps`
ties the flags to the ledger; it is what one operation preserves, and `operate_lawful`
follows from it for all of them. -/
namespace Multiversion.Block

/-! ### Operations -/

/-- What can be done to a stack. -/
inductive Operation where
  /-- The line being read gets a number. -/
  | setLine (line : Nat)
  /-- A directive with its indentation. -/
  | apply (directive : Directive) (indent : Nat)
  /-- The file ends. -/
  | finish
deriving DecidableEq

/-- An operation that was tried: the stack in front of it, the error if it failed, and
the stack behind it. -/
structure Event where
  operation : Operation
  before : Stack
  error? : Option Error
  after : Stack

namespace Operation

/-- An operation as an action. -/
def action (context : Context) : Operation → Action Unit
  | setLine line => modify fun s => { s with line }
  | apply directive indent => Action.apply context directive indent
  | finish => Action.finish context

/-- An operation tried on a stack. -/
def on (context : Context) (s : Stack) (op : Operation) : Event where
  operation := op
  before := s
  error? := match op.action context s with
    | .ok _ _ => none
    | .error e _ => some e
  after := match op.action context s with
    | .ok _ t => t
    | .error _ t => t

end Operation

/-- Operations tried one after the other, whether they fail or not. -/
def history (context : Context) : Stack → List Operation → List Event
  | _, [] => []
  | s, op :: rest => op.on context s :: history context (op.on context s).after rest

/-- The stack behind operations. -/
def operate (context : Context) : Stack → List Operation → Stack
  | s, [] => s
  | s, op :: rest => operate context (op.on context s).after rest

/-- A block was opened. -/
def Event.opens (e : Event) : Bool :=
  match e.error?, e.operation with
  | none, .apply ⟨.ifHolds, _⟩ _ | none, .apply ⟨.ifDefined, _⟩ _ => true
  | _, _ => false

/-- A block was closed. -/
def Event.closes (e : Event) : Bool :=
  match e.error?, e.operation with
  | none, .apply ⟨.endIf, _⟩ _ => true
  | _, _ => false

variable {context : Context} {s t : Stack} {op : Operation} {error? : Option Error}

variable (context s) in
/-- What an operation can come to. -/
inductive Happens : Operation → Option Error → Stack → Prop
  | setLine {line} : Happens (.setLine line) none { s with line }
  | step {d indent t} : Step context indent s d t → Happens (.apply d indent) none t
  | stop {d indent e} : Stop context s d e → Happens (.apply d indent) (some e) s
  | finish : s.frames = [] → Happens .finish none s
  | unfinished {top outer} : s.frames = top :: outer →
      Happens .finish (some (context.fault top.line .missingEndIf)) { s with line := top.line }

theorem happens_on (context : Context) (s : Stack) (op : Operation) :
    Happens context s op (op.on context s).error? (op.on context s).after := by
  cases op with
  | setLine line => exact .setLine
  | apply d indent =>
    obtain ⟨t, ha, hstep⟩ | ⟨e, ha, hstop⟩ := apply_cases context d indent s
    · simpa only [Operation.on, Operation.action, ha] using Happens.step hstep
    · simpa only [Operation.on, Operation.action, ha] using Happens.stop hstop
  | finish =>
    cases hs : s.frames with
    | nil =>
      have ha : Action.finish context s = .ok () s := by simp only [finish_eq, hs]
      simpa only [Operation.on, Operation.action, ha] using Happens.finish hs
    | cons top outer =>
      have ha : Action.finish context s =
          .error (context.fault top.line .missingEndIf) { s with line := top.line } := by
        simp only [finish_eq, hs]
      simpa only [Operation.on, Operation.action, ha] using Happens.unfinished hs

/-- An operation that fails leaves the blocks and the remapping alone, and only the end
of the file moves the line. -/
theorem Happens.unchanged {e : Error} (h : Happens context s op (some e) t) :
    t.frames = s.frames ∧ t.remapping = s.remapping ∧ (op ≠ .finish → t.line = s.line) := by
  cases h with
  | stop _ => exact ⟨rfl, rfl, fun _ => rfl⟩
  | unfinished _ => exact ⟨rfl, rfl, fun h => absurd rfl h⟩

/-- A block more is open for each that was opened, and one less for each that was closed. -/
theorem depth_on (context : Context) (s : Stack) (op : Operation) :
    (op.on context s).after.depth + (op.on context s).closes.toNat =
      s.depth + (op.on context s).opens.toNat := by
  have h := happens_on context s op
  simp only [Event.closes, Event.opens]
  generalize (op.on context s).error? = error?, (op.on context s).after = t at h
  have hop : (op.on context s).operation = op := rfl
  rw [hop]
  cases h with
  | setLine => rfl
  | stop _ => rfl
  | finish _ => rfl
  | unfinished _ => rfl
  | step h =>
    cases h with
    | ifHolds _ => rfl
    | ifDefined => rfl
    | elseIfPassed hs _ _ => simp [Stack.depth, hs]
    | elseIf hs _ _ _ => simp [Stack.depth, hs]
    | otherwise hs _ => simp [Stack.depth, hs]
    | endIf hs => simp [Stack.depth, hs]
    | disableRemap _ => rfl
    | enableRemap _ => rfl

/-! ### The ledger -/

/-- A branch of a block. -/
structure Branch where
  /-- An `else` started it. -/
  final : Bool
  /-- It was the selected one. -/
  selected : Bool
deriving DecidableEq, Repr

/-- The branches that blocks have had, in the order they came. -/
structure Ledger where
  /-- Those of the open blocks, innermost block first. -/
  opened : List (List Branch)
  /-- Those of the blocks that were closed. -/
  closed : List (List Branch)
deriving DecidableEq, Repr

/-- The ledger before any block. -/
def Ledger.fresh : Ledger := ⟨[], []⟩

/-- The ledger after a directive that was followed by a branch, selected or not. -/
def Ledger.turn (l : Ledger) (kind : LineKind) (selected : Bool) : Ledger :=
  match kind, l.opened with
  | .ifHolds, opened | .ifDefined, opened => { l with opened := [⟨false, selected⟩] :: opened }
  | .elseIf, chain :: outer => { l with opened := (chain ++ [⟨false, selected⟩]) :: outer }
  | .otherwise, chain :: outer => { l with opened := (chain ++ [⟨true, selected⟩]) :: outer }
  | .endIf, chain :: outer => ⟨outer, chain :: l.closed⟩
  | _, _ => l

/-- The ledger after an operation. A branch is selected if the innermost block says so
right behind the directive that starts it. -/
def Ledger.record (l : Ledger) (e : Event) : Ledger :=
  match e.error?, e.operation with
  | none, .apply d _ => l.turn d.kind (e.after.frames.head?.any Frame.current)
  | _, _ => l

/-- At most one branch was selected, and exactly one if there was an `else`. -/
def Exclusive (chain : List Branch) : Prop :=
  chain.countP Branch.selected ≤ 1 ∧
    ((∃ b ∈ chain, b.final = true) → chain.countP Branch.selected = 1)

/-- The flags of a block agree with each other. -/
def Frame.Coherent (f : Frame) : Prop :=
  if f.elseFound then f.current = !f.matched else f.current = true → f.matched = true

/-- The flags of a block are those its branches leave. -/
structure Frame.Follows (f : Frame) (chain : List Branch) : Prop where
  coherent : f.Coherent
  last : chain.getLast? = some ⟨f.elseFound, f.current⟩
  final : ∀ b ∈ chain, b.final = true → f.elseFound = true
  count : chain.countP Branch.selected = (f.matched || f.elseFound).toNat

/-- The ledger is that of the stack. -/
structure Ledger.Keeps (l : Ledger) (s : Stack) : Prop where
  opened : List.Forall₂ Frame.Follows s.frames l.opened
  closed : ∀ chain ∈ l.closed, Exclusive chain

namespace Frame.Follows
variable {f : Frame} {chain : List Branch}

theorem exclusive (h : f.Follows chain) : Exclusive chain := by
  refine ⟨h.count ▸ Bool.toNat_le _, fun ⟨b, hb, hfinal⟩ => ?_⟩
  rw [h.count, h.final b hb hfinal, Bool.or_true]
  rfl

/-- The first branch of a block. -/
theorem first (selected : Bool) (line indent : Nat) :
    Frame.Follows ⟨selected, line, false, selected, indent⟩ [⟨false, selected⟩] where
  coherent := by simp [Coherent]
  last := rfl
  final := by simp
  count := by cases selected <;> rfl

/-- A branch behind one that was selected. -/
theorem passed (h : f.Follows chain) (he : f.elseFound = false) (indent : Nat) :
    Frame.Follows { f with current := false, indent } (chain ++ [⟨false, false⟩]) where
  coherent := by simp [Coherent, he]
  last := by simp [he]
  final := by simpa [or_imp, forall_and] using h.final
  count := by simpa using h.count

/-- A branch with a condition, behind branches of which none was selected. -/
theorem next (h : f.Follows chain) (he : f.elseFound = false) (hm : f.matched = false)
    (selected : Bool) (line indent : Nat) :
    Frame.Follows ⟨selected, line, false, selected, indent⟩ (chain ++ [⟨false, selected⟩]) where
  coherent := by simp [Coherent]
  last := by simp
  final := by simpa [or_imp, forall_and, he] using h.final
  count := by
    have hcount := h.count
    rw [hm, he] at hcount
    cases selected <;> simp [hcount]

/-- The last branch takes what the others left. -/
theorem otherwise (h : f.Follows chain) (he : f.elseFound = false) (line indent : Nat) :
    Frame.Follows { f with current := !f.matched, elseFound := true, line, indent }
      (chain ++ [⟨true, !f.matched⟩]) where
  coherent := by simp [Coherent]
  last := by simp
  final := by simp
  count := by
    have hcount := h.count
    rw [he, Bool.or_false] at hcount
    cases hm : f.matched <;> simp [hcount, hm]

end Frame.Follows

theorem Ledger.Keeps.start : Ledger.fresh.Keeps .start := ⟨.nil, nofun⟩

theorem Ledger.Keeps.coherent {l : Ledger} (h : l.Keeps s) : ∀ f ∈ s.frames, f.Coherent :=
  ((List.forall₂_and_left _ _).1 (h.opened.imp fun _ _ hf => ⟨hf.coherent, hf⟩)).1

theorem Ledger.Keeps.exclusive {l : Ledger} (h : l.Keeps s) :
    ∀ chain ∈ l.opened, Exclusive chain :=
  ((List.forall₂_and_left _ _).1 (h.opened.flip.imp fun _ _ hf => ⟨hf.exclusive, hf⟩)).1

/-- The ledger of a stack with the same blocks. -/
theorem Ledger.Keeps.congr {l : Ledger} (h : l.Keeps s) (hframes : t.frames = s.frames) :
    l.Keeps t := ⟨by rw [hframes]; exact h.opened, h.closed⟩

/-- A ledger that keeps up with a stack keeps up with it through any operation. -/
theorem Ledger.Keeps.record {l : Ledger} (hl : l.Keeps s) (op : Operation) :
    (l.record (op.on context s)).Keeps (op.on context s).after := by
  have h := happens_on context s op
  have hop : (op.on context s).operation = op := rfl
  simp only [Ledger.record, hop]
  generalize (op.on context s).error? = error?, (op.on context s).after = t at h
  cases h with
  | setLine => exact hl.congr rfl
  | stop _ => exact hl
  | finish _ => exact hl
  | unfinished _ => exact hl.congr rfl
  | step h =>
    obtain ⟨opened, closed⟩ := l
    obtain ⟨hopened, hclosed⟩ := hl
    simp only at hopened hclosed ⊢
    cases h with
    | ifHolds _ => exact ⟨.cons (.first ..) hopened, hclosed⟩
    | ifDefined => exact ⟨.cons (.first ..) hopened, hclosed⟩
    | elseIfPassed hs he _ =>
      rw [hs] at hopened
      cases hopened with
      | cons hfirst hrest => exact ⟨.cons (hfirst.passed he _) hrest, hclosed⟩
    | elseIf hs he hm _ =>
      rw [hs] at hopened
      cases hopened with
      | cons hfirst hrest => exact ⟨.cons (hfirst.next he hm ..) hrest, hclosed⟩
    | otherwise hs he =>
      rw [hs] at hopened
      cases hopened with
      | cons hfirst hrest => exact ⟨.cons (hfirst.otherwise he ..) hrest, hclosed⟩
    | endIf hs =>
      rw [hs] at hopened
      cases hopened with
      | cons hfirst hrest =>
        exact ⟨hrest, List.forall_mem_cons.2 ⟨hfirst.exclusive, hclosed⟩⟩
    | disableRemap _ => exact ⟨hopened, hclosed⟩
    | enableRemap _ => exact ⟨hopened, hclosed⟩

/-! ### The lines of the blocks -/

/-- The numbers the line has when operations that do not set it are tried. -/
def numbers : Nat → List Operation → List Nat
  | _, [] => []
  | _, .setLine line :: rest => numbers line rest
  | line, _ :: rest => line :: numbers line rest

/-- An inner block was looked at behind the outer ones. -/
def Stack.Ordered (s : Stack) : Prop := s.frames.Pairwise fun inner outer => outer.line < inner.line

/-- A directive behind all that was looked at before leaves blocks in order. -/
theorem Happens.ordered {d : Directive} {indent : Nat}
    (h : Happens context s (.apply d indent) error? t) (ho : s.Ordered)
    (hbefore : ∀ f ∈ s.frames, f.line < s.line) :
    t.Ordered ∧ (∀ f ∈ t.frames, f.line ≤ s.line) ∧ t.line = s.line := by
  have hle : ∀ f ∈ s.frames, f.line ≤ s.line := fun f hf => Nat.le_of_lt (hbefore f hf)
  cases h with
  | stop _ => exact ⟨ho, hle, rfl⟩
  | step h =>
    cases h with
    | ifHolds _ => exact ⟨.cons hbefore ho, List.forall_mem_cons.2 ⟨Nat.le_refl _, hle⟩, rfl⟩
    | ifDefined => exact ⟨.cons hbefore ho, List.forall_mem_cons.2 ⟨Nat.le_refl _, hle⟩, rfl⟩
    | elseIfPassed hs _ _ =>
      simp only [Stack.Ordered, hs, List.pairwise_cons, List.forall_mem_cons] at ho hle ⊢
      exact ⟨ho, hle, trivial⟩
    | elseIf hs _ _ _ =>
      simp only [Stack.Ordered, hs, List.pairwise_cons, List.forall_mem_cons] at ho hle hbefore ⊢
      exact ⟨⟨hbefore.2, ho.2⟩, ⟨Nat.le_refl _, hle.2⟩, trivial⟩
    | otherwise hs _ =>
      simp only [Stack.Ordered, hs, List.pairwise_cons, List.forall_mem_cons] at ho hle hbefore ⊢
      exact ⟨⟨hbefore.2, ho.2⟩, ⟨Nat.le_refl _, hle.2⟩, trivial⟩
    | endIf hs =>
      simp only [Stack.Ordered, hs, List.pairwise_cons, List.forall_mem_cons] at ho hle ⊢
      exact ⟨ho.2, hle.2, trivial⟩
    | disableRemap _ => exact ⟨ho, hle, rfl⟩
    | enableRemap _ => exact ⟨ho, hle, rfl⟩

/-! ### Any operations -/

/-- Operations at ever larger lines leave blocks in order. -/
theorem ordered_operate {ops : List Operation} (hend : .finish ∉ ops)
    (hnumbers : (numbers s.line ops).Pairwise (· < ·)) (ho : s.Ordered)
    (hbefore : ∀ f ∈ s.frames, ∀ n ∈ numbers s.line ops, f.line < n) :
    (operate context s ops).Ordered := by
  induction ops generalizing s with
  | nil => exact ho
  | cons op rest ih =>
    rw [List.mem_cons, not_or] at hend
    cases op with
    | setLine line => exact ih hend.2 hnumbers ho hbefore
    | finish => exact absurd rfl hend.1
    | apply d indent =>
      simp only [numbers, List.pairwise_cons, List.forall_mem_cons] at hnumbers hbefore
      obtain ⟨ho', hle, hline⟩ :=
        (happens_on context s (.apply d indent)).ordered ho fun f hf => (hbefore f hf).1
      refine ih hend.2 (by rw [hline]; exact hnumbers.2) ho' fun f hf n hn => ?_
      rw [hline] at hn
      exact Nat.lt_of_le_of_lt (hle f hf) (hnumbers.1 n hn)

theorem keeps_history {l : Ledger} (h : l.Keeps s) (ops : List Operation) :
    ((history context s ops).foldl Ledger.record l).Keeps (operate context s ops) := by
  induction ops generalizing s l with
  | nil => exact h
  | cons op rest ih => exact ih (h.record op)

theorem depth_operate (context : Context) (s : Stack) (ops : List Operation) :
    (operate context s ops).depth + (history context s ops).countP Event.closes =
      s.depth + (history context s ops).countP Event.opens := by
  induction ops generalizing s with
  | nil => rfl
  | cons op rest ih =>
    have first := depth_on context s op
    have others := ih (op.on context s).after
    simp only [operate, history, List.countP_cons]
    cases hc : (op.on context s).closes <;> cases ho : (op.on context s).opens <;>
      simp only [hc, ho, Bool.toNat_true, Bool.toNat_false, if_true, Bool.false_eq_true,
        if_false] at first ⊢ <;> omega

theorem happens_of_mem_history {e : Event} {ops : List Operation}
    (h : e ∈ history context s ops) : Happens context e.before e.operation e.error? e.after := by
  induction ops generalizing s with
  | nil => cases h
  | cons op rest ih =>
    rcases List.mem_cons.1 h with rfl | h
    · exact happens_on context s op
    · exact ih h

/-- **Blocks keep their law under any operations**, failed ones among them. The flags of
every open block agree, and they are those of its last branch; of the branches of a block
that is open or was closed at most one was selected, and exactly one once it has had its
`else`; the open blocks are those that were opened and not closed; if the operations come
at ever larger lines and the file does not end, so do the blocks from the outermost on;
and what fails moves nothing, but for the line at the end of the file. -/
theorem operate_lawful (context : Context) (ops : List Operation) :
    let events := history context .start ops
    let s := operate context .start ops
    let l := events.foldl Ledger.record .fresh
    (∀ f ∈ s.frames, f.Coherent) ∧
      List.Forall₂ (fun f chain => chain.getLast? = some ⟨f.elseFound, f.current⟩)
        s.frames l.opened ∧
      (∀ chain ∈ l.opened ++ l.closed, Exclusive chain) ∧
      s.depth + events.countP Event.closes = events.countP Event.opens ∧
      (.finish ∉ ops → (numbers 0 ops).Pairwise (· < ·) →
        (s.frames.reverse.map Frame.line).Pairwise (· < ·)) ∧
      ∀ e ∈ events, ∀ error, e.error? = some error →
        e.after.frames = e.before.frames ∧ e.after.remapping = e.before.remapping ∧
          (e.operation ≠ .finish → e.after.line = e.before.line) := by
  intro events s l
  have hkeeps : l.Keeps s := keeps_history .start ops
  refine ⟨hkeeps.coherent, hkeeps.opened.imp fun _ _ h => h.last, fun chain hchain => ?_, ?_,
    fun hend hnumbers => ?_, fun e he error herror => ?_⟩
  · rcases List.mem_append.1 hchain with hopened | hclosed
    · exact hkeeps.exclusive chain hopened
    · exact hkeeps.closed chain hclosed
  · have hdepth := depth_operate context .start ops
    rwa [show Stack.start.depth = 0 from rfl, Nat.zero_add] at hdepth
  · have hordered : s.Ordered := ordered_operate hend hnumbers .nil nofun
    rw [List.pairwise_map, List.pairwise_reverse]
    exact hordered
  · have h := happens_of_mem_history he
    rw [herror] at h
    exact h.unchanged

/-- Operations at ever larger lines, the third of which fails: an `elseif` behind an
`else`. -/
def nested : List Operation :=
  [.setLine 1, .apply ⟨.ifDefined, " A".toText⟩ 0, .setLine 2, .apply ⟨.otherwise, []⟩ 0,
    .setLine 3, .apply ⟨.elseIf, " 1".toText⟩ 0, .setLine 5, .apply ⟨.ifDefined, " B".toText⟩ 2]

/-- The blocks of the operations are in order, and their branches exclude each other. -/
theorem operate_lawful_nested :
    .finish ∉ nested ∧ (numbers 0 nested).Pairwise (· < ·) ∧
      ((operate ⟨.empty, "a.java".toText⟩ .start nested).frames.reverse.map Frame.line).Pairwise
        (· < ·) ∧
      ∀ chain ∈ [[⟨false, false⟩], [⟨false, false⟩, ⟨true, true⟩]], Exclusive chain := by
  have hend : .finish ∉ nested := by decide
  have hnumbers : (numbers 0 nested).Pairwise (· < ·) := by decide
  obtain ⟨-, -, hexclusive, -, hlines, -⟩ := operate_lawful ⟨.empty, "a.java".toText⟩ nested
  exact ⟨hend, hnumbers, hlines hend hnumbers, hexclusive⟩

end Multiversion.Block
