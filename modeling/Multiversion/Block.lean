import Multiversion.Condition
import Multiversion.Directive

/-! Blocks.

A block is a chain of branches: an `if` or `ifdef`, any number of `elseif`, at most
one `else`, and an `endif`. The stack holds the open blocks, innermost first, and
whether remapping is on. Each directive is an action on the stack that either
succeeds or is rejected at the current line; an action looks before it writes, so
a rejected one leaves the blocks as they were. -/
namespace Multiversion

/-- What can be wrong with the layout of directives. -/
inductive Fault where
  | missingSpace
  | invalidCondition (refusal : Condition.Refusal)
  | unexpectedElseIf
  | elseIfAfterElse
  | unexpectedElse
  | elseAfterElse
  | unexpectedEndIf
  | remapAlreadyDisabled
  | remapNotDisabled
  | missingEndIf

/-- The wording of a fault. -/
def Fault.message : Fault → Text
  | missingSpace => "Expected space before condition".toText
  | invalidCondition refusal => "Invalid expression \"".toText ++ refusal.message ++ "\"".toText
  | unexpectedElseIf => "Unexpected elseif".toText
  | elseIfAfterElse => "Unexpected elseif after else".toText
  | unexpectedElse => "Unexpected else".toText
  | elseAfterElse => "Unexpected else after else".toText
  | unexpectedEndIf => "Unexpected endif".toText
  | remapAlreadyDisabled => "Remapping already disabled".toText
  | remapNotDisabled => "Remapping not disabled".toText
  | missingEndIf => "Missing endif".toText

/-- A fault and where it is. -/
structure LayoutError where
  fault : Fault
  file : Text
  line : Nat

/-- The wording of a layout error. -/
def LayoutError.message (e : LayoutError) : Text :=
  e.fault.message ++ " in line ".toText ++ Literal.ofNat e.line ++ " of ".toText ++ e.file

namespace Block

/-- What stops an action. -/
inductive Error where
  /-- The layout of the directives is wrong. -/
  | layout (error : LayoutError)
  /-- A condition holds a literal that is too long. -/
  | overlong (literal : Overlong)
  /-- A line of this kind is no action. -/
  | notStructural (kind : LineKind)

/-- The wording of an error. -/
def Error.message : Error → Text
  | layout error => error.message
  | overlong literal => literal.message
  | notStructural kind =>
    "DirectiveKind.".toText ++ kind.label.map CodePoint.toUpper ++
      " is not a structural directive".toText

/-- One open block. -/
structure Frame where
  /-- The branch being read is the selected one. -/
  current : Bool
  /-- The line of the last directive that was looked at. -/
  line : Nat
  /-- The `else` has been read. -/
  elseFound : Bool
  /-- A branch has been selected by its condition. -/
  matched : Bool
  /-- The indentation of the last directive. -/
  indent : Nat
deriving DecidableEq, Repr

/-- The open blocks of a file that is being read. -/
structure Stack where
  /-- The open blocks, innermost first. -/
  frames : List Frame
  /-- Remapped text is used where it can be. -/
  remapping : Bool
  /-- The number of the line being read. -/
  line : Nat
deriving DecidableEq, Repr

namespace Stack

/-- The stack before the first line. -/
def start : Stack := ⟨[], true, 0⟩

/-- Every open block is in its selected branch. -/
def active (s : Stack) : Bool := s.frames.all Frame.current

/-- How many blocks are open. -/
def depth (s : Stack) : Nat := s.frames.length

/-- The indentation of the innermost block, and none outside of all blocks. -/
def indent (s : Stack) : Nat :=
  match s.frames with
  | [] => 0
  | top :: _ => top.indent

end Stack

/-- What is the same for all lines of a file. -/
structure Context where
  environment : Environment
  file : Text

/-- An action on the stack. What it has written stands also when it fails. -/
abbrev Action := EStateM Error Stack

namespace Action

/-- Fails with a fault at the current line. -/
def reject {α : Type} (context : Context) (fault : Fault) : Action α := do
  let s ← get
  throw (.layout ⟨fault, context.file, s.line⟩)

/-- Whether the condition behind a token holds. It starts with a space. -/
def condition (context : Context) (argument : Text) : Action Bool :=
  if argument.head? = some ' ' then
    match Condition.evaluate context.environment (Text.strip argument) with
    | .ok holds => pure holds
    | .error (.refused refusal) => reject context (.invalidCondition refusal)
    | .error (.overlong literal) => throw (.overlong literal)
  else reject context .missingSpace

/-- Opens a block whose first branch is selected or not. -/
def push (selected : Bool) (indent : Nat) : Action Unit :=
  modify fun s => { s with frames := ⟨selected, s.line, false, selected, indent⟩ :: s.frames }

/-- Opens a block at an `if`. -/
def ifHolds (context : Context) (argument : Text) (indent : Nat) : Action Unit := do
  let holds ← condition context argument
  push holds indent

/-- Opens a block at an `ifdef`. -/
def ifDefined (context : Context) (argument : Text) (indent : Nat) : Action Unit :=
  push (context.environment.contains (Text.strip argument)) indent

/-- Starts the next branch at an `elseif`. Its condition is looked at only if no
branch has been selected yet. -/
def elseIf (context : Context) (argument : Text) (indent : Nat) : Action Unit := do
  let s ← get
  match s.frames with
  | [] => reject context .unexpectedElseIf
  | top :: outer =>
    if top.elseFound then reject context .elseIfAfterElse
    else if top.matched then
      set { s with frames := { top with current := false, indent := indent } :: outer }
    else
      let holds ← condition context argument
      set { s with
        frames := { top with current := holds, matched := holds, line := s.line,
                             indent := indent } :: outer }

/-- Starts the last branch at an `else`. It is selected if no other one was. -/
def otherwise (context : Context) (indent : Nat) : Action Unit := do
  let s ← get
  match s.frames with
  | [] => reject context .unexpectedElse
  | top :: outer =>
    if top.elseFound then reject context .elseAfterElse
    else
      set { s with
        frames := { top with current := !top.matched, elseFound := true, line := s.line,
                             indent := indent } :: outer }

/-- Closes the innermost block at an `endif`. -/
def endIf (context : Context) : Action Unit := do
  let s ← get
  match s.frames with
  | [] => reject context .unexpectedEndIf
  | _ :: outer => set { s with frames := outer }

/-- Switches remapping off. -/
def disableRemap (context : Context) : Action Unit := do
  let s ← get
  if s.remapping then set { s with remapping := false }
  else reject context .remapAlreadyDisabled

/-- Switches remapping on again. -/
def enableRemap (context : Context) : Action Unit := do
  let s ← get
  if s.remapping then reject context .remapNotDisabled
  else set { s with remapping := true }

/-- The action of a structural line with its indentation. -/
def apply (context : Context) (directive : Directive) (indent : Nat) : Action Unit :=
  match directive.kind with
  | .ifHolds => ifHolds context directive.argument indent
  | .ifDefined => ifDefined context directive.argument indent
  | .elseIf => elseIf context directive.argument indent
  | .otherwise => otherwise context indent
  | .endIf => endIf context
  | .disableRemap => disableRemap context
  | .enableRemap => enableRemap context
  | kind => throw (.notStructural kind)

/-- Ends the file. A block that is still open is a fault of the line that its last
directive stands in, which becomes the current line. -/
def finish (context : Context) : Action Unit := do
  let s ← get
  match s.frames with
  | [] => pure ()
  | top :: _ =>
    set { s with line := top.line }
    reject context .missingEndIf

end Action

end Block

end Multiversion
