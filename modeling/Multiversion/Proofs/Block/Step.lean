import Multiversion.Block
import Multiversion.Proofs.Action

/-! What one directive does to the open blocks.

`Step` lists the moves of the stack and `Stop` what keeps it from moving, each with
everything that is asked of the stack before. `apply_cases` says that a directive
does one or the other, and that one that stops leaves the stack as it was. Proofs
about runs go through these two relations; none opens an action. -/
namespace Multiversion.Block

/-! ### Conditions -/

/-- A fault in a line. -/
def Context.fault (context : Context) (line : Nat) (fault : Fault) : Error :=
  .layout ⟨fault, context.file, line⟩

/-- What the condition behind a token comes to, in a line. -/
def Context.verdict (context : Context) (line : Nat) (argument : Text) : Except Error Bool :=
  if argument.head? = some ' ' then
    match Condition.evaluate context.environment (Text.strip argument) with
    | .ok holds => .ok holds
    | .error (.refused refusal) => .error (context.fault line (.invalidCondition refusal))
    | .error (.overlong literal) => .error (.overlong literal)
  else .error (context.fault line .missingSpace)

/-- The value of the condition behind a token, if it has one: it starts with a space
and can be evaluated. -/
def Context.value? (context : Context) (argument : Text) : Option Bool :=
  if argument.head? = some ' ' then
    (Condition.evaluate context.environment (Text.strip argument)).toOption
  else none

theorem Context.verdict_eq_ok_iff {context : Context} {line : Nat} {argument : Text}
    {holds : Bool} :
    context.verdict line argument = .ok holds ↔ context.value? argument = some holds := by
  unfold Context.verdict Context.value?
  split
  · cases Condition.evaluate context.environment (Text.strip argument) with
    | ok b => simp [Except.toOption]
    | error e => cases e <;> simp [Except.toOption]
  · simp

theorem Context.value?_of_verdict_error {context : Context} {line : Nat} {argument : Text}
    {e : Error} (h : context.verdict line argument = .error e) : context.value? argument = none := by
  cases hv : context.value? argument with
  | none => rfl
  | some holds =>
    rw [Context.verdict_eq_ok_iff.2 hv] at h
    cases h

/-- A condition without a value is a fault of its line, or holds a literal that is
too long. -/
theorem Context.verdict_error {context : Context} {line : Nat} {argument : Text} {e : Error}
    (h : context.verdict line argument = .error e) :
    (∃ fault, e = context.fault line fault ∧
        (fault = .missingSpace ∨ ∃ refusal, fault = .invalidCondition refusal)) ∨
      ∃ literal, e = .overlong literal ∧
        Condition.evaluate context.environment (Text.strip argument) =
          .error (.overlong literal) := by
  unfold Context.verdict at h
  split at h
  · cases hv : Condition.evaluate context.environment (Text.strip argument) with
    | ok holds =>
      rw [hv] at h
      cases h
    | error cause =>
      rw [hv] at h
      cases cause with
      | refused refusal =>
        cases h
        exact .inl ⟨_, rfl, .inr ⟨refusal, rfl⟩⟩
      | overlong literal =>
        cases h
        exact .inr ⟨literal, rfl, rfl⟩
  · cases h
    exact .inl ⟨_, rfl, .inl rfl⟩

/-- Whether the name behind a token is bound. -/
def Context.defines (context : Context) (argument : Text) : Bool :=
  context.environment.contains (Text.strip argument)

theorem Action.condition_eq (context : Context) (argument : Text) (s : Stack) :
    Action.condition context argument s =
      match context.verdict s.line argument with
      | .ok holds => .ok holds s
      | .error e => .error e s := by
  unfold Action.condition Context.verdict
  split
  · cases Condition.evaluate context.environment (Text.strip argument) with
    | ok holds => rfl
    | error e => cases e <;> rfl
  · rfl

theorem Action.condition_bind_ok {context : Context} {argument : Text} {s : Stack} {holds : Bool}
    (h : context.verdict s.line argument = .ok holds) (next : Bool → Action Unit) :
    (Action.condition context argument >>= next) s = next holds s := by
  have := Action.condition_eq context argument s
  rw [h] at this
  simp only [bind, EStateM.bind, this]

theorem Action.condition_bind_error {context : Context} {argument : Text} {s : Stack} {e : Error}
    (h : context.verdict s.line argument = .error e) (next : Bool → Action Unit) :
    (Action.condition context argument >>= next) s = .error e s := by
  have := Action.condition_eq context argument s
  rw [h] at this
  simp only [bind, EStateM.bind, this]

/-! ### Moves -/

/-- The stack with one more block. -/
def Stack.push (s : Stack) (selected : Bool) (indent : Nat) : Stack :=
  { s with frames := ⟨selected, s.line, false, selected, indent⟩ :: s.frames }

variable (context : Context) (indent : Nat) (s : Stack)

/-- What a directive with an indentation can do to the stack. -/
inductive Step : Directive → Stack → Prop
  | ifHolds {argument selected} : context.verdict s.line argument = .ok selected →
      Step ⟨.ifHolds, argument⟩ (s.push selected indent)
  | ifDefined {argument} :
      Step ⟨.ifDefined, argument⟩ (s.push (context.defines argument) indent)
  | elseIfPassed {argument top outer} : s.frames = top :: outer → top.elseFound = false →
      top.matched = true →
      Step ⟨.elseIf, argument⟩
        { s with frames := { top with current := false, indent := indent } :: outer }
  | elseIf {argument top outer selected} : s.frames = top :: outer → top.elseFound = false →
      top.matched = false → context.verdict s.line argument = .ok selected →
      Step ⟨.elseIf, argument⟩
        { s with frames := ⟨selected, s.line, false, selected, indent⟩ :: outer }
  | otherwise {argument top outer} : s.frames = top :: outer → top.elseFound = false →
      Step ⟨.otherwise, argument⟩
        { s with frames := { top with current := !top.matched, elseFound := true, line := s.line,
                                      indent := indent } :: outer }
  | endIf {argument top outer} : s.frames = top :: outer →
      Step ⟨.endIf, argument⟩ { s with frames := outer }
  | disableRemap {argument} : s.remapping = true →
      Step ⟨.disableRemap, argument⟩ { s with remapping := false }
  | enableRemap {argument} : s.remapping = false →
      Step ⟨.enableRemap, argument⟩ { s with remapping := true }

/-- What keeps a directive from doing anything. -/
inductive Stop : Directive → Error → Prop
  | ifHolds {argument e} : context.verdict s.line argument = .error e → Stop ⟨.ifHolds, argument⟩ e
  | elseIfOutside {argument} : s.frames = [] →
      Stop ⟨.elseIf, argument⟩ (context.fault s.line .unexpectedElseIf)
  | elseIfAfterElse {argument top outer} : s.frames = top :: outer → top.elseFound = true →
      Stop ⟨.elseIf, argument⟩ (context.fault s.line .elseIfAfterElse)
  | elseIf {argument top outer e} : s.frames = top :: outer → top.elseFound = false →
      top.matched = false → context.verdict s.line argument = .error e →
      Stop ⟨.elseIf, argument⟩ e
  | elseOutside {argument} : s.frames = [] →
      Stop ⟨.otherwise, argument⟩ (context.fault s.line .unexpectedElse)
  | elseAfterElse {argument top outer} : s.frames = top :: outer → top.elseFound = true →
      Stop ⟨.otherwise, argument⟩ (context.fault s.line .elseAfterElse)
  | endIfOutside {argument} : s.frames = [] →
      Stop ⟨.endIf, argument⟩ (context.fault s.line .unexpectedEndIf)
  | alreadyDisabled {argument} : s.remapping = false →
      Stop ⟨.disableRemap, argument⟩ (context.fault s.line .remapAlreadyDisabled)
  | notDisabled {argument} : s.remapping = true →
      Stop ⟨.enableRemap, argument⟩ (context.fault s.line .remapNotDisabled)
  | notStructural {d} : d.kind.structural = false → Stop d (.notStructural d.kind)

variable {context indent s}

/-- A directive moves the stack, or it stops and the stack is as it was. -/
theorem apply_cases (context : Context) (d : Directive) (indent : Nat) (s : Stack) :
    (∃ t, Action.apply context d indent s = .ok () t ∧ Step context indent s d t) ∨
      ∃ e, Action.apply context d indent s = .error e s ∧ Stop context s d e := by
  obtain ⟨kind, argument⟩ := d
  cases kind with
  | ifHolds =>
    cases hv : context.verdict s.line argument with
    | ok selected => exact .inl ⟨_, Action.condition_bind_ok hv _, .ifHolds hv⟩
    | error e => exact .inr ⟨e, Action.condition_bind_error hv _, .ifHolds hv⟩
  | ifDefined => exact .inl ⟨_, rfl, .ifDefined⟩
  | elseIf =>
    have unfolded : Action.apply context ⟨.elseIf, argument⟩ indent s =
        Action.elseIf context argument indent s := rfl
    rw [unfolded]
    simp only [Action.elseIf, bind, EStateM.bind, get, getThe, MonadStateOf.get, get_eq]
    cases hs : s.frames with
    | nil => exact .inr ⟨_, rfl, .elseIfOutside hs⟩
    | cons top outer =>
      cases he : top.elseFound with
      | true => exact .inr ⟨_, by simp only [he, if_true]; rfl, .elseIfAfterElse hs he⟩
      | false =>
        cases hm : top.matched with
        | true => exact .inl ⟨_, by simp only [he, hm, if_true]; rfl, .elseIfPassed hs he hm⟩
        | false =>
          cases hv : context.verdict s.line argument with
          | ok selected =>
            exact .inl ⟨_, by
              simp only [he, hm, Bool.false_eq_true, if_false]
              exact Action.condition_bind_ok hv _, .elseIf hs he hm hv⟩
          | error e =>
            exact .inr ⟨e, by
              simp only [he, hm, Bool.false_eq_true, if_false]
              exact Action.condition_bind_error hv _, .elseIf hs he hm hv⟩
  | otherwise =>
    have unfolded : Action.apply context ⟨.otherwise, argument⟩ indent s =
        Action.otherwise context indent s := rfl
    rw [unfolded]
    simp only [Action.otherwise, bind, EStateM.bind, get, getThe, MonadStateOf.get, get_eq]
    cases hs : s.frames with
    | nil => exact .inr ⟨_, rfl, .elseOutside hs⟩
    | cons top outer =>
      cases he : top.elseFound with
      | true => exact .inr ⟨_, by simp only [he, if_true]; rfl, .elseAfterElse hs he⟩
      | false => exact .inl ⟨_, by simp only [he, Bool.false_eq_true, if_false]; rfl,
          .otherwise hs he⟩
  | endIf =>
    have unfolded : Action.apply context ⟨.endIf, argument⟩ indent s = Action.endIf context s := rfl
    rw [unfolded]
    simp only [Action.endIf, bind, EStateM.bind, get, getThe, MonadStateOf.get, get_eq]
    cases hs : s.frames with
    | nil => exact .inr ⟨_, rfl, .endIfOutside hs⟩
    | cons top outer => exact .inl ⟨_, rfl, .endIf hs⟩
  | disableRemap =>
    have unfolded : Action.apply context ⟨.disableRemap, argument⟩ indent s =
        Action.disableRemap context s := rfl
    rw [unfolded]
    simp only [Action.disableRemap, bind, EStateM.bind, get, getThe, MonadStateOf.get, get_eq]
    cases hr : s.remapping with
    | true => exact .inl ⟨_, rfl, .disableRemap hr⟩
    | false => exact .inr ⟨_, rfl, .alreadyDisabled hr⟩
  | enableRemap =>
    have unfolded : Action.apply context ⟨.enableRemap, argument⟩ indent s =
        Action.enableRemap context s := rfl
    rw [unfolded]
    simp only [Action.enableRemap, bind, EStateM.bind, get, getThe, MonadStateOf.get, get_eq]
    cases hr : s.remapping with
    | true => exact .inr ⟨_, rfl, .notDisabled hr⟩
    | false => exact .inl ⟨_, rfl, .enableRemap hr⟩
  | eval => exact .inr ⟨_, rfl, .notStructural rfl⟩
  | plain => exact .inr ⟨_, rfl, .notStructural rfl⟩

/-- Only its two directives switch remapping, and each finds it the other way. -/
theorem Step.remapping_cases {d : Directive} {t : Stack} (h : Step context indent s d t) :
    (d.kind = .disableRemap ∧ s.remapping = true ∧ t.remapping = false) ∨
      (d.kind = .enableRemap ∧ s.remapping = false ∧ t.remapping = true) ∨
      (d.kind ≠ .disableRemap ∧ d.kind ≠ .enableRemap ∧ t.remapping = s.remapping) := by
  cases h with
  | disableRemap hr => exact .inl ⟨rfl, hr, rfl⟩
  | enableRemap hr => exact .inr (.inl ⟨rfl, hr, rfl⟩)
  | _ => exact .inr (.inr ⟨nofun, nofun, rfl⟩)

/-- The end of a file finds no open block, or it is a fault of the innermost one. -/
theorem finish_eq (context : Context) (s : Stack) :
    Action.finish context s =
      match s.frames with
      | [] => .ok () s
      | top :: _ => .error (context.fault top.line .missingEndIf) { s with line := top.line } := by
  simp only [Action.finish, bind, EStateM.bind, get, getThe, MonadStateOf.get, get_eq]
  cases s.frames <;> rfl

end Multiversion.Block
