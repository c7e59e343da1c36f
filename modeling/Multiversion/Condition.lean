import Multiversion.Environment

/-! Conditions.

A condition is a disjunction of conjunctions of atoms; there is no grouping. An
atom is one token, which holds when its value is not zero, or a comparison of two
tokens. A token is a literal or the name of a variable, and a literal wins over a
variable of the same spelling. A comparison splits at the last operator that has
something on both sides. Alternatives and conjuncts are evaluated from the left,
and what is not reached cannot fail. -/
namespace Multiversion

/-- The operators that compare two tokens. -/
inductive Comparison where
  | equal
  | unequal
  | atMost
  | atLeast
  | below
  | above
deriving DecidableEq, Repr

namespace Comparison

/-- How an operator is written. -/
def symbol : Comparison → Text
  | equal => "==".toText
  | unequal => "!=".toText
  | atMost => "<=".toText
  | atLeast => ">=".toText
  | below => "<".toText
  | above => ">".toText

/-- Whether two integers stand in the relation. -/
def holds : Comparison → Int → Int → Bool
  | equal, m, n => m = n
  | unequal, m, n => m ≠ n
  | atMost, m, n => m ≤ n
  | atLeast, m, n => n ≤ m
  | below, m, n => m < n
  | above, m, n => n < m

/-- The operators, those of two characters before the ones they start with. -/
def all : List Comparison := [equal, unequal, atMost, atLeast, below, above]

/-- The operator at the front of a text that has more behind it, and what is
behind it. -/
def readAmong (s : Text) : List Comparison → Option (Comparison × Text)
  | [] => none
  | operator :: more =>
    match Text.after? operator.symbol s with
    | some (c :: rest) => some (operator, c :: rest)
    | _ => readAmong s more

/-- The last operator in a text that has something behind it, with both sides. -/
def splitLast? : Text → Option (Text × Comparison × Text)
  | [] => none
  | c :: rest =>
    match splitLast? rest with
    | some (left, operator, right) => some (c :: left, operator, right)
    | none => (readAmong (c :: rest) all).map fun (operator, right) => ([], operator, right)

/-- The last operator in a text with something on both sides. A text of more than
one line holds no comparison. -/
def split? : Text → Option (Text × Comparison × Text)
  | [] => none
  | c :: rest =>
    if (c :: rest).contains '\n' then none
    else (splitLast? rest).map fun (left, operator, right) => (c :: left, operator, right)

end Comparison

namespace Condition

/-- Why a condition has no value. -/
inductive Refusal where
  /-- An atom that is neither a token with a value nor a comparison. -/
  | malformed (atom : Text)
  /-- A side of a comparison that is no literal and names no variable. -/
  | unknown (token : Text) (env : Environment)

/-- What stops an evaluation. -/
inductive Error where
  | refused (refusal : Refusal)
  | overlong (literal : Overlong)

/-- The wording of a refusal. -/
def Refusal.message : Refusal → Text
  | malformed atom => atom
  | unknown token env => "'".toText ++ token ++ "' is not in ".toText ++ env.display

/-- The wording of an error. -/
def Error.message : Error → Text
  | refused refusal => refusal.message
  | overlong literal => literal.message

/-- The value of a token, if it has one. -/
def valueOf? (env : Environment) (token : Text) : Except Overlong (Option Int) :=
  match Literal.read token with
  | .error o => .error o
  | .ok (some n) => .ok (some n)
  | .ok none => .ok (env.get? token)

/-- The value of a token that must have one. The token is normalized before it is
looked up, so a spelling that normalizes to a version counts as that version. -/
def valueOf (env : Environment) (token : Text) : Except Error Int :=
  match valueOf? env (Literal.normalize token) with
  | .error o => .error (.overlong o)
  | .ok (some n) => .ok n
  | .ok none => .error (.refused (.unknown token env))

/-- Whether an atom holds: a token with a value holds unless it is zero, and
anything else must be a comparison. -/
def evaluateAtom (env : Environment) (atom : Text) : Except Error Bool :=
  match valueOf? env atom with
  | .error o => .error (.overlong o)
  | .ok (some n) => .ok (n != 0)
  | .ok none =>
    match Comparison.split? atom with
    | none => .error (.refused (.malformed atom))
    | some (left, operator, right) => do
      let m ← valueOf env (Text.strip left)
      let n ← valueOf env (Text.strip right)
      pure (operator.holds m n)

/-- Whether a condition holds. -/
def evaluate (env : Environment) (condition : Text) : Except Error Bool :=
  if _ : 1 < (Text.splitDoubled '|' condition).length then
    (Text.splitDoubled '|' condition).attach.anyM fun part => evaluate env (Text.strip part.1)
  else if _ : 1 < (Text.splitDoubled '&' condition).length then
    (Text.splitDoubled '&' condition).attach.allM fun part => evaluate env (Text.strip part.1)
  else evaluateAtom env condition
termination_by condition.length
decreasing_by
  · exact Nat.lt_of_le_of_lt (Text.length_strip_le _)
      (Text.length_lt_of_mem_splitDoubled part.2 (by assumption))
  · exact Nat.lt_of_le_of_lt (Text.length_strip_le _)
      (Text.length_lt_of_mem_splitDoubled part.2 (by assumption))

/-! ### Lemmas -/

theorem anyM_map {m : Type → Type} [Monad m] {α β : Type} (g : α → β) (f : β → m Bool)
    (xs : List α) : (xs.map g).anyM f = xs.anyM fun x => f (g x) := by
  induction xs with
  | nil => rfl
  | cons x rest ih => simp only [List.map_cons, List.anyM, ih]

theorem allM_map {m : Type → Type} [Monad m] {α β : Type} (g : α → β) (f : β → m Bool)
    (xs : List α) : (xs.map g).allM f = xs.allM fun x => f (g x) := by
  induction xs with
  | nil => rfl
  | cons x rest ih => simp only [List.map_cons, List.allM, ih]

/-- One level of a condition. -/
theorem evaluate_eq (env : Environment) (condition : Text) :
    evaluate env condition =
      if 1 < (Text.splitDoubled '|' condition).length then
        (Text.splitDoubled '|' condition).anyM fun part => evaluate env (Text.strip part)
      else if 1 < (Text.splitDoubled '&' condition).length then
        (Text.splitDoubled '&' condition).allM fun part => evaluate env (Text.strip part)
      else evaluateAtom env condition := by
  have any := anyM_map Subtype.val (fun part => evaluate env (Text.strip part))
    (Text.splitDoubled '|' condition).attach
  have all := allM_map Subtype.val (fun part => evaluate env (Text.strip part))
    (Text.splitDoubled '&' condition).attach
  rw [List.attach_map_subtype_val] at any all
  rw [evaluate, any, all]
  rfl

end Condition

end Multiversion
