import Multiversion.Proofs.Condition.Comparison

/-! A condition as alternatives of conjuncts.

Evaluation takes a condition apart at `||`, strips the parts, takes those apart at `&&`
and strips again. White space around a part makes no difference to its pieces
(`map_strip_splitDoubled`) and no piece holds what it was split at (`IsSplit.apart`),
so that comes to one flat list of lists of atoms, the `alternatives`. `InOrder` says how a list is decided from the left, and `evaluate_iff`
that a condition comes to what its alternatives come to in that order. -/
namespace Multiversion

namespace Condition

/-! ### Evaluation level by level -/

theorem anyM_congr {m : Type → Type} [Monad m] {α : Type} {f g : α → m Bool} {xs : List α}
    (h : ∀ x ∈ xs, f x = g x) : xs.anyM f = xs.anyM g := by
  induction xs with
  | nil => rfl
  | cons x xs ih =>
    rw [List.anyM, List.anyM, h x List.mem_cons_self,
      ih fun y hy => h y (List.mem_cons_of_mem _ hy)]

theorem allM_congr {m : Type → Type} [Monad m] {α : Type} {f g : α → m Bool} {xs : List α}
    (h : ∀ x ∈ xs, f x = g x) : xs.allM f = xs.allM g := by
  induction xs with
  | nil => rfl
  | cons x xs ih =>
    rw [List.allM, List.allM, h x List.mem_cons_self,
      ih fun y hy => h y (List.mem_cons_of_mem _ hy)]

/-- The conjuncts of a text, stripped. -/
def conjuncts (s : Text) : List Text := (Text.splitDoubled '&' s).map Text.strip

/-- The conjuncts of each alternative of a condition. -/
def alternatives (condition : Text) : List (List Text) :=
  (Text.splitDoubled '|' condition).map conjuncts

theorem anyM_singleton {α : Type} (f : α → Except Error Bool) (x : α) : [x].anyM f = f x := by
  rw [List.anyM]
  rcases f x with error | _ | _ <;> rfl

theorem allM_singleton {α : Type} (f : α → Except Error Bool) (x : α) : [x].allM f = f x := by
  rw [List.allM]
  rcases f x with error | _ | _ <;> rfl

/-- A text without alternatives is a conjunction of atoms. -/
theorem evaluate_conjuncts (env : Environment) {s : Text} (hbars : ¬ "||".toText <:+: s)
    (hstrip : Text.strip s = s) : evaluate env s = (conjuncts s).allM (evaluateAtom env) := by
  have pieces : ∀ piece ∈ Text.splitDoubled '&' s,
      evaluate env (Text.strip piece) = evaluateAtom env (Text.strip piece) := by
    intro piece hpiece
    have hin := Text.strip_isInfix piece
    refine evaluate_atom env (fun h => hbars ?_) fun h => ?_
    · exact h.trans (hin.trans ((Text.isSplit_splitDoubled '&' s).isInfix hpiece))
    · exact (Text.isSplit_splitDoubled '&' s).apart hpiece (h.trans hin)
  have hone : Text.splitDoubled '|' s = [s] := Text.splitDoubled_of_not_infix hbars
  rw [evaluate_eq, hone, if_neg (by simp), conjuncts, allM_map]
  split
  · exact allM_congr pieces
  · next hmany =>
    obtain ⟨piece, hpiece⟩ := List.length_eq_one_iff.1 (Nat.le_antisymm (Nat.not_lt.1 hmany)
      (List.length_pos_of_ne_nil (Text.splitDoubled_ne_nil '&' s)))
    obtain rfl := (Text.splitDoubled_eq_iff.1 hpiece).eq_of_singleton
    rw [hpiece, allM_singleton, hstrip]

/-- A condition is a disjunction of the conjunctions that its alternatives are. -/
theorem evaluate_eq_alternatives (env : Environment) {condition : Text}
    (hstrip : Text.strip condition = condition) : evaluate env condition =
      (alternatives condition).anyM fun atoms => atoms.allM (evaluateAtom env) := by
  have parts : ∀ part ∈ Text.splitDoubled '|' condition,
      evaluate env (Text.strip part) = (conjuncts part).allM (evaluateAtom env) := by
    intro part hpart
    have hbars : ¬ "||".toText <:+: Text.strip part := fun h =>
      (Text.isSplit_splitDoubled '|' condition).apart hpart
        (h.trans (Text.strip_isInfix part))
    rw [evaluate_conjuncts env hbars (Text.strip_strip part), conjuncts,
      Text.map_strip_splitDoubled (by decide), ← conjuncts]
  rw [alternatives, anyM_map]
  by_cases hmany : 1 < (Text.splitDoubled '|' condition).length
  · rw [evaluate_eq, if_pos hmany]
    exact anyM_congr parts
  · obtain ⟨part, hpart⟩ := List.length_eq_one_iff.1 (Nat.le_antisymm (Nat.not_lt.1 hmany)
      (List.length_pos_of_ne_nil (Text.splitDoubled_ne_nil '|' condition)))
    obtain rfl := (Text.splitDoubled_eq_iff.1 hpart).eq_of_singleton
    rw [hpart, anyM_singleton, ← parts part (by rw [hpart]; exact List.mem_cons_self), hstrip]

/-! ### From the left -/

/-- What a list comes to when it is gone through from the left up to the answer that
decides. An element that cannot be judged ends it with its error, and nothing is asked of
what comes behind. -/
inductive InOrder {α ε : Type} (decisive : Bool) (judge : α → Except ε Bool → Prop) :
    List α → Except ε Bool → Prop where
  | exhausted : InOrder decisive judge [] (.ok !decisive)
  | decided {x rest} : judge x (.ok decisive) →
      InOrder decisive judge (x :: rest) (.ok decisive)
  | failed {x rest error} : judge x (.error error) →
      InOrder decisive judge (x :: rest) (.error error)
  | undecided {x rest outcome} : judge x (.ok !decisive) → InOrder decisive judge rest outcome →
      InOrder decisive judge (x :: rest) outcome

/-- What a conjunction of atoms comes to: the first false one decides. -/
def Conjunction (env : Environment) : List Text → Except Error Bool → Prop :=
  InOrder false fun atom outcome => evaluateAtom env atom = outcome

/-- What a disjunction of conjunctions comes to: the first true one decides. -/
def Disjunction (env : Environment) : List (List Text) → Except Error Bool → Prop :=
  InOrder true (Conjunction env)

section InOrder
variable {α ε : Type} {decisive : Bool} {judge : α → Except ε Bool → Prop} {f : α → Except ε Bool}
  {x : α} {xs : List α} {outcome : Except ε Bool}

theorem inOrder_nil : InOrder decisive judge [] outcome ↔ .ok (!decisive) = outcome := by
  constructor
  · rintro ⟨⟩
    rfl
  · rintro rfl
    exact .exhausted

theorem inOrder_cons : InOrder decisive judge (x :: xs) outcome ↔
    judge x (.ok decisive) ∧ .ok decisive = outcome ∨
      (∃ error, judge x (.error error) ∧ .error error = outcome) ∨
      judge x (.ok !decisive) ∧ InOrder decisive judge xs outcome := by
  constructor
  · intro h
    cases h with
    | decided hx => exact .inl ⟨hx, rfl⟩
    | failed hx => exact .inr (.inl ⟨_, hx, rfl⟩)
    | undecided hx hrest => exact .inr (.inr ⟨hx, hrest⟩)
  · rintro (⟨hx, rfl⟩ | ⟨error, hx, rfl⟩ | ⟨hx, hrest⟩)
    · exact .decided hx
    · exact .failed hx
    · exact .undecided hx hrest

theorem allM_eq_iff : xs.allM f = outcome ↔ InOrder false (fun x o => f x = o) xs outcome := by
  induction xs with
  | nil =>
    rw [inOrder_nil]
    rfl
  | cons x xs ih =>
    rw [inOrder_cons, List.allM]
    rcases f x with error | _ | _ <;> simp [bind, Except.bind, pure, Except.pure, ih]

theorem anyM_eq_iff : xs.anyM f = outcome ↔ InOrder true (fun x o => f x = o) xs outcome := by
  induction xs with
  | nil =>
    rw [inOrder_nil]
    rfl
  | cons x xs ih =>
    rw [inOrder_cons, List.anyM]
    rcases f x with error | _ | _ <;> simp [bind, Except.bind, pure, Except.pure, ih]

/-- The error that a list comes to is that of one of its elements. -/
theorem InOrder.exists_of_error {error : ε} (h : InOrder decisive judge xs (.error error)) :
    ∃ x ∈ xs, judge x (.error error) := by
  generalize hr : Except.error error = outcome at h
  induction h with
  | exhausted => cases hr
  | decided hx => cases hr
  | failed hx =>
    cases hr
    exact ⟨_, List.mem_cons_self, hx⟩
  | undecided hx _ ih =>
    obtain ⟨x, hmem, hjudge⟩ := ih hr
    exact ⟨x, List.mem_cons_of_mem _ hmem, hjudge⟩

end InOrder

/-! ### Literals that are too long -/

theorem digitLimit_lt_of_valueOf? {env : Environment} {token : Text} {o : Overlong}
    (h : valueOf? env token = .error o) : Literal.digitLimit < o.digits := by
  rw [valueOf?] at h
  rcases hread : Literal.read token with o' | _ | n <;> rw [hread] at h <;> cases h
  exact Literal.digitLimit_lt_of_read hread

theorem digitLimit_lt_of_valueOf {env : Environment} {token : Text} {o : Overlong}
    (h : valueOf env token = .error (.overlong o)) : Literal.digitLimit < o.digits := by
  rcases valueOf_cases env token with ⟨n, hn⟩ | hunknown | ⟨o', hlimit, ho⟩
  · rw [hn] at h
    cases h
  · rw [hunknown] at h
    cases h
  · rw [ho] at h
    cases h
    exact hlimit

theorem digitLimit_lt_of_evaluateAtom {env : Environment} {atom : Text} {o : Overlong}
    (h : evaluateAtom env atom = .error (.overlong o)) : Literal.digitLimit < o.digits := by
  rw [evaluateAtom] at h
  rcases hvalue : valueOf? env atom with o' | _ | n
  · rw [hvalue] at h
    cases h
    exact digitLimit_lt_of_valueOf? hvalue
  · simp only [hvalue] at h
    rcases hsplit : Comparison.split? atom with _ | ⟨left, operator, right⟩
    · simp only [hsplit] at h
      cases h
    · simp only [hsplit] at h
      rcases hleft : valueOf env (Text.strip left) with e | m
      · simp only [hleft] at h
        cases h
        exact digitLimit_lt_of_valueOf hleft
      · rcases hright : valueOf env (Text.strip right) with e | n
        · simp only [hleft, hright] at h
          cases h
          exact digitLimit_lt_of_valueOf hright
        · simp only [hleft, hright] at h
          cases h
  · rw [hvalue] at h
    cases h

/-- A literal that stops a condition has more digits than may be read. -/
theorem digitLimit_lt_of_evaluate {env : Environment} {condition : Text} {o : Overlong}
    (hstrip : Text.strip condition = condition)
    (h : evaluate env condition = .error (.overlong o)) : Literal.digitLimit < o.digits := by
  rw [evaluate_eq_alternatives env hstrip] at h
  obtain ⟨atoms, -, hatoms⟩ := (anyM_eq_iff.1 h).exists_of_error
  obtain ⟨atom, -, hatom⟩ := (allM_eq_iff.1 hatoms).exists_of_error
  exact digitLimit_lt_of_evaluateAtom hatom

/-- A condition comes to what its alternatives come to from the left, each of them a
conjunction of atoms gone through from the left: the first true conjunction decides, the
first false atom decides its conjunction, the first atom without a value is the error, and
what is not reached has no part in it. -/
theorem evaluate_iff (env : Environment) {condition : Text}
    (hstrip : Text.strip condition = condition) (outcome : Except Error Bool) :
    evaluate env condition = outcome ↔ Disjunction env (alternatives condition) outcome := by
  have conjunction : Conjunction env = fun atoms o => atoms.allM (evaluateAtom env) = o := by
    funext atoms o
    exact propext allM_eq_iff.symm
  rw [evaluate_eq_alternatives env hstrip, Disjunction, conjunction]
  exact anyM_eq_iff

/-- The unknown names are not reached: one stands behind a false atom, the other behind a
true conjunction. -/
theorem evaluate_iff_unreached :
    Text.strip "0 && X || 1 && 7 || Y".toText = "0 && X || 1 && 7 || Y".toText ∧
      evaluate .empty "0 && X || 1 && 7 || Y".toText = .ok true := by
  have hstrip : Text.strip "0 && X || 1 && 7 || Y".toText = "0 && X || 1 && 7 || Y".toText := by
    decide
  have hpieces : alternatives "0 && X || 1 && 7 || Y".toText =
      [["0".toText, "X".toText], ["1".toText, "7".toText], ["Y".toText]] := by
    decide
  refine ⟨hstrip, (evaluate_iff .empty hstrip (.ok true)).2 ?_⟩
  rw [hpieces]
  exact .undecided (.decided rfl) (.decided (.undecided rfl (.undecided rfl .exhausted)))

end Condition
end Multiversion
