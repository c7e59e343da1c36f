import Multiversion.Proofs.Condition.Comparison
import Multiversion.Proofs.Literal.Version

/-! What literals and names come to in a condition.

A token that stands alone and the same token compared with zero are read in two ways: alone
it is normalized once and looked up as it is written, as a side it is normalized before
either. Nothing comes of that but for a token that is `Misgrouped`, which means one thing
alone and another as a side (`evaluate_agree_unequal_zero`). Versions are read as literals on
either side, and compare component by component (`evaluate_versions`). -/
namespace Multiversion

namespace Literal

/-! ### Underscores -/

/-- The text without its underscores. -/
def ungrouped (s : Text) : Text := s.filter (· != '_')

/-- Normalization takes the underscores out of the text, and what is left is no integer. -/
structure Misgrouped (s : Text) : Prop where
  chars : s.all isLiteralChar = true
  grouped : CodePoint.ofChar '_' ∈ s
  front : s.head? ≠ some (CodePoint.ofChar '_')
  leaves : isDigits (sign (ungrouped s)).2 = false

theorem normalize_of_grouped {s : Text} (hchars : s.all isLiteralChar = true)
    (h : CodePoint.ofChar '_' ∈ s) :
    normalize s = if s.head? = some (CodePoint.ofChar '_') then s else ungrouped s := by
  have hne : s ≠ [] := List.ne_nil_of_mem h
  rw [normalize, if_pos (by simp [hne, hchars]), Version.ofText?_of_underscore h]
  rfl

theorem normalize_of_misgrouped {s : Text} (h : Misgrouped s) : normalize s = ungrouped s := by
  rw [normalize_of_grouped h.chars h.grouped, if_neg h.front]

/-- What is left of a misgrouped text can be a side. -/
theorem Misgrouped.side_ungrouped {s : Text} (h : Misgrouped s) :
    Comparison.Side (ungrouped s) := by
  obtain ⟨c, rest, rfl⟩ := List.exists_cons_of_ne_nil (List.ne_nil_of_mem h.grouped)
  have hc : c ≠ '_' := fun hc => h.front (by rw [hc]; rfl)
  refine .of_literalChars ?_ (List.all_eq_true.2 fun d hd => ?_)
  · exact List.ne_nil_of_mem (List.mem_filter.2 ⟨List.mem_cons_self, by simpa using hc⟩)
  · exact List.all_eq_true.1 h.chars d (List.mem_filter.1 hd).1

/-- Whatever else changes when it is normalized becomes an integer. -/
theorem normalize_of_not_misgrouped {s : Text} (h : ¬ Misgrouped s)
    (hdigits : isDigits (sign (normalize s)).2 = false) : normalize s = s := by
  by_cases hchars : s.all isLiteralChar = true
  · by_cases hgrouped : CodePoint.ofChar '_' ∈ s
    · rw [normalize_of_grouped hchars hgrouped] at hdigits ⊢
      split at hdigits
      · next hfront => rw [if_pos hfront]
      · next hfront => exact absurd ⟨hchars, hgrouped, hfront, hdigits⟩ h
    · cases hversion : Version.ofText? s with
      | some v =>
        obtain ⟨hv, rfl⟩ := Version.ofText?_eq_some_iff.1 hversion
        rw [normalize_text hv, sign_of_isDigits (isDigits_digits hv), isDigits_digits hv] at hdigits
        contradiction
      | none => exact normalize_of_plain hversion hgrouped
  · exact normalize_of_foreign (Bool.of_not_eq_true hchars)

end Literal

namespace Comparison

/-! ### Operators and orders -/

/-- Whether two things in a given order stand in the relation. -/
def accepts : Comparison → Ordering → Bool
  | equal, order => order.isEq
  | unequal, order => order.isNe
  | atMost, order => order.isLE
  | atLeast, order => order.isGE
  | below, order => order.isLT
  | above, order => order.isGT

theorem holds_natCast (operator : Comparison) (m n : Nat) :
    operator.holds m n = operator.accepts (compare m n) := by
  rcases lt_trichotomy m n with h | rfl | h
  · rw [compare_lt_iff_lt.2 h]
    cases operator <;> simp [holds, accepts] <;> omega
  · rw [compare_eq_iff_eq.2 rfl]
    cases operator <;> simp [holds, accepts]
  · rw [compare_gt_iff_gt.2 h]
    cases operator <;> simp [holds, accepts] <;> omega

end Comparison

namespace Condition
open Comparison (Side isMark)

/-! ### A token alone -/

/-- Two evaluations give one answer, or both are refused, or the same literal is too long for
both. -/
inductive Agree : Except Error Bool → Except Error Bool → Prop where
  | answered (b : Bool) : Agree (.ok b) (.ok b)
  | refused (r r' : Refusal) : Agree (.error (.refused r)) (.error (.refused r'))
  | overlong (o : Overlong) : Agree (.error (.overlong o)) (.error (.overlong o))

/-- What a value says of a condition, and the refusal if there is none. -/
def answer (refusal : Refusal) : Except Overlong (Option Int) → Except Error Bool
  | .error o => .error (.overlong o)
  | .ok (some n) => .ok (n != 0)
  | .ok none => .error (.refused refusal)

theorem agree_answer (r r' : Refusal) (value : Except Overlong (Option Int)) :
    Agree (answer r value) (answer r' value) := by
  rcases value with o | _ | n
  · exact .overlong o
  · exact .refused r r'
  · exact .answered (n != 0)

theorem Agree.eq_of_answer {b : Bool} {r : Refusal} {value : Except Overlong (Option Int)}
    (h : Agree (.ok b) (answer r value)) : ∃ n, value = .ok (some n) ∧ b = (n != 0) := by
  rcases value with o | _ | n
  · cases h
  · cases h
  · cases h
    exact ⟨n, rfl, rfl⟩

/-- A token is looked up as it is written, and without a value it is no comparison either. -/
theorem evaluate_token (env : Environment) {token : Text} (h : Side token) :
    evaluate env token = answer (.malformed token) (valueOf? env token) := by
  rw [evaluate_atom env h.bars h.ampersands, evaluateAtom,
    Comparison.split?_of_unmarked h.unmarked]
  rcases valueOf? env token with o | _ | n <;> rfl

/-- A side is looked up as normalization left it. -/
theorem evaluate_unequal_zero {env : Environment} {token : Text} (h : Side token)
    (hstrip : Text.strip token = token) (henv : ∀ name ∈ env.keys, ∀ c ∈ name, isMark c = false) :
    evaluate env (token ++ " != 0".toText) =
      answer (.unknown token env) (valueOf? env (Literal.normalize token)) := by
  have hshape : token ++ " != 0".toText =
      token ++ " ".toText ++ Comparison.unequal.symbol ++ " ".toText ++ "0".toText := by
    simp only [List.append_assoc]
    rfl
  have hzero : valueOf env "0".toText = .ok 0 := valueOf_of_read rfl
  have hright : Side "0".toText := .of_literalChars (by decide) (by decide)
  obtain ⟨mark, hmem, hmark⟩ := Comparison.exists_mark_mem_symbol .unequal
  rw [hshape, evaluate_spaced h hright hstrip (by decide) .unequal
    (get?_of_mark (by simp [hmem]) hmark henv), hzero, valueOf]
  rcases valueOf? env (Literal.normalize token) with o | _ | n
  · rfl
  · rfl
  · simp [answer, bind, Except.bind, pure, Except.pure, Comparison.holds, bne, Bool.beq_eq_decide_eq]

/-- Only a misgrouped token has another value once it is normalized. -/
theorem valueOf?_normalize {token : Text} (h : ¬ Literal.Misgrouped token) (env : Environment) :
    valueOf? env (Literal.normalize token) = valueOf? env token := by
  cases hdigits : Literal.isDigits (Literal.sign (Literal.normalize token)).2 with
  | true =>
    have hnormal : Literal.normalize (Literal.normalize token) = Literal.normalize token :=
      Literal.normalize_of_number (Literal.number_of_isDigits_sign hdigits).2
    have hread : Literal.read (Literal.normalize token) = Literal.read token := by
      rw [Literal.read, Literal.read, hnormal]
    -- It is a literal, so the environment is not asked.
    have hliteral : Literal.read token ≠ .ok none := by
      simp only [Literal.read, Literal.integer?, hdigits, if_true]
      split <;> simp
    rw [valueOf?, valueOf?, hread]
    rcases hvalue : Literal.read token with o | _ | n
    · rfl
    · exact absurd hvalue hliteral
    · rfl
  | false => rw [Literal.normalize_of_not_misgrouped h hdigits]

/-- A misgrouped token has a value only as a name. -/
theorem valueOf?_of_misgrouped {token : Text} (h : Literal.Misgrouped token) (env : Environment) :
    valueOf? env token = .ok (env.get? token) := by
  have hread : Literal.read token = .ok none := by
    simp [Literal.read, Literal.normalize_of_misgrouped h, Literal.integer?, h.leaves]
  rw [valueOf?, hread]

/-- The value of a misgrouped token as a side does not depend on what the token is bound to. -/
theorem exists_not_agree {token : Text} (hside : Side token) (hstrip : Text.strip token = token)
    (h : Literal.Misgrouped token) :
    ∃ env : Environment, (∀ name ∈ env.keys, ∀ c ∈ name, isMark c = false) ∧
      ¬ Agree (evaluate env token) (evaluate env (token ++ " != 0".toText)) := by
  have hkeys (n : Int) : ∀ name ∈ (Dictionary.empty.insert token n : Environment).keys,
      ∀ c ∈ name, isMark c = false := by
    intro name hname
    obtain rfl := List.mem_singleton.1 hname
    exact hside.unmarked
  have hne : Literal.ungrouped token ≠ token := by
    intro heq
    have hmem := h.grouped
    rw [← heq, Literal.ungrouped, List.mem_filter] at hmem
    simp at hmem
  have hvalue (n : Int) : valueOf? (Dictionary.empty.insert token n) (Literal.normalize token) =
      Literal.read (Literal.ungrouped token) := by
    rw [Literal.normalize_of_misgrouped h, valueOf?, Dictionary.get?_insert, if_neg hne]
    rcases Literal.read (Literal.ungrouped token) with o | _ | m <;> rfl
  have halone (n : Int) : evaluate (Dictionary.empty.insert token n) token = .ok (n != 0) := by
    rw [evaluate_token _ hside, valueOf?_of_misgrouped h, Dictionary.get?_insert, if_pos rfl]
    rfl
  by_contra hall
  have hagree (n : Int) : Agree (.ok (n != 0)) (answer
      (.unknown token (Dictionary.empty.insert token n)) (Literal.read (Literal.ungrouped token))) := by
    by_contra hnot
    refine hall ⟨Dictionary.empty.insert token n, hkeys n, ?_⟩
    rwa [halone, evaluate_unequal_zero hside hstrip (hkeys n), hvalue]
  obtain ⟨m, hm, hzero⟩ := (hagree 0).eq_of_answer
  obtain ⟨m', hm', hone⟩ := (hagree 1).eq_of_answer
  obtain rfl := Option.some.inj (Except.ok.inj (hm.symm.trans hm'))
  exact absurd (hzero.trans hone.symm) (by decide)

/-- Alone and compared with zero, a token that is not misgrouped comes to the same. A
misgrouped one comes, compared with zero, to what it is without its underscores, and no such
token comes to the same in every environment. -/
theorem evaluate_agree_unequal_zero {token : Text} (hside : Side token)
    (hstrip : Text.strip token = token) :
    (¬ Literal.Misgrouped token → ∀ env : Environment,
      (∀ name ∈ env.keys, ∀ c ∈ name, isMark c = false) →
        Agree (evaluate env token) (evaluate env (token ++ " != 0".toText))) ∧
    (Literal.Misgrouped token →
      (∀ env : Environment, (∀ name ∈ env.keys, ∀ c ∈ name, isMark c = false) →
        Agree (evaluate env (Literal.ungrouped token)) (evaluate env (token ++ " != 0".toText))) ∧
      ∃ env : Environment, (∀ name ∈ env.keys, ∀ c ∈ name, isMark c = false) ∧
        ¬ Agree (evaluate env token) (evaluate env (token ++ " != 0".toText))) := by
  refine ⟨fun h env henv => ?_, fun h => ⟨fun env henv => ?_, exists_not_agree hside hstrip h⟩⟩
  · rw [evaluate_token env hside, evaluate_unequal_zero hside hstrip henv, valueOf?_normalize h]
    exact agree_answer _ _ _
  · rw [evaluate_token env h.side_ungrouped, evaluate_unequal_zero hside hstrip henv,
      Literal.normalize_of_misgrouped h]
    exact agree_answer _ _ _

/-- The underscores of `1_000` group digits, those of `1_2.3` do not. -/
theorem evaluate_agree_unequal_zero_underscores :
    Agree (evaluate .empty "1_000".toText) (evaluate .empty "1_000 != 0".toText) ∧
      Agree (evaluate .empty "12.3".toText) (evaluate .empty "1_2.3 != 0".toText) := by
  have hgrouped : ¬ Literal.Misgrouped "1_000".toText := fun h => absurd h.leaves (by decide)
  have hmisgrouped : Literal.Misgrouped "1_2.3".toText :=
    ⟨by decide, by decide, by decide, by decide⟩
  have hkeys : ∀ name ∈ (Dictionary.empty : Environment).keys, ∀ c ∈ name, isMark c = false := by
    decide
  obtain ⟨hsame, -⟩ := evaluate_agree_unequal_zero
    (.of_literalChars (by decide) (by decide) : Side "1_000".toText) (by decide)
  obtain ⟨-, hother⟩ := evaluate_agree_unequal_zero
    (.of_literalChars (by decide) (by decide) : Side "1_2.3".toText) (by decide)
  exact ⟨hsame hgrouped .empty hkeys, (hother hmisgrouped).1 .empty hkeys⟩

/-- More digits than may be read stop the evaluation. -/
theorem evaluate_overlong (env : Environment) {digits : Text}
    (h : Literal.isDigits digits = true) (hlong : Literal.digitLimit < digits.length) :
    evaluate env digits = .error (.overlong ⟨digits.length⟩) := by
  have hnumber := Literal.number_of_isDigits h
  have hchars : digits.all Literal.isLiteralChar = true := List.all_eq_true.2 fun c hc =>
    Literal.isLiteralChar_of_isNumberChar (List.all_eq_true.1 hnumber c hc)
  have hread : Literal.read digits = .error ⟨digits.length⟩ := by
    rw [Literal.read, Literal.normalize_of_number hnumber, Literal.integer?]
    simp only [Literal.sign_of_isDigits h, h, if_true]
    rw [if_neg (Nat.not_le_of_lt hlong)]
  rw [evaluate_token env (.of_literalChars (Literal.isDigits_iff.1 h).1 hchars), valueOf?, hread]
  rfl

/-- Alone, `1_2.3` is neither a literal nor a name; compared with zero it is the version
`12.3`. And 4301 digits give no answer at all, nor a refusal. -/
theorem evaluate_disagree_unequal_zero :
    (Side "1_2.3".toText ∧ Text.strip "1_2.3".toText = "1_2.3".toText ∧
      evaluate .empty "1_2.3".toText = .error (.refused (.malformed "1_2.3".toText)) ∧
      evaluate .empty "1_2.3 != 0".toText = .ok true) ∧
    evaluate .empty (List.replicate 4301 (CodePoint.ofChar '1')) =
      .error (.overlong ⟨4301⟩) := by
  have hside : Side "1_2.3".toText := .of_literalChars (by decide) (by decide)
  have hstrip : Text.strip "1_2.3".toText = "1_2.3".toText := by decide
  refine ⟨⟨hside, hstrip, evaluate_token .empty hside, ?_⟩, ?_⟩
  · exact evaluate_unequal_zero hside hstrip (by decide)
  · have hlength : (List.replicate 4301 (CodePoint.ofChar '1')).length = 4301 := List.length_replicate
    have hdigits : Literal.isDigits (List.replicate 4301 (CodePoint.ofChar '1')) = true := by
      refine Literal.isDigits_iff.2 ⟨List.ne_nil_of_length_pos (by rw [hlength]; decide),
        List.all_eq_true.2 fun c hc => ?_⟩
      rw [List.eq_of_mem_replicate hc]
      decide
    have hlong := evaluate_overlong .empty hdigits (by rw [hlength]; decide)
    rwa [hlength] at hlong

/-! ### Versions -/

/-- Two versions compare as their components do, major first, whatever the variables are
called. The limit is one on the digits that a version reads as, and four of these are the
places of minor and patch. -/
theorem evaluate_versions {u v : Version} (hu : u.WellFormed) (hv : v.WellFormed)
    (huFits : u.Fits) (hvFits : v.Fits) (huLimit : u.major.length + 4 ≤ Literal.digitLimit)
    (hvLimit : v.major.length + 4 ≤ Literal.digitLimit) (operator : Comparison)
    {env : Environment}
    (hname : env.get? (u.text ++ " ".toText ++ operator.symbol ++ " ".toText ++ v.text) = none) :
    evaluate env (u.text ++ " ".toText ++ operator.symbol ++ " ".toText ++ v.text) =
      .ok (operator.accepts (u.order v)) := by
  have huRead := Literal.read_text hu (by rw [Version.length_digits huFits]; exact huLimit)
  have hvRead := Literal.read_text hv (by rw [Version.length_digits hvFits]; exact hvLimit)
  obtain ⟨huNe, huChars⟩ := Literal.literalChars_of_read huRead
  obtain ⟨hvNe, hvChars⟩ := Literal.literalChars_of_read hvRead
  rw [evaluate_spaced (.of_literalChars huNe huChars) (.of_literalChars hvNe hvChars)
    (Literal.strip_of_read huRead) (Literal.strip_of_read hvRead) operator hname,
    valueOf_of_read huRead, valueOf_of_read hvRead]
  calc (Except.ok (operator.holds (Literal.value u.digits) (Literal.value v.digits)) : Except Error Bool)
    _ = .ok (operator.accepts (compare (Literal.value u.digits) (Literal.value v.digits))) := by
      rw [Comparison.holds_natCast]
    _ = .ok (operator.accepts (u.order v)) := by
      rw [Version.compare_value_digits hu hv huFits hvFits]

/-- `1.9` is below `1.10.1`, also where a variable is called `1.9`. -/
theorem evaluate_versions_minor :
    (Version.mk "1".toText "9".toText []).text = "1.9".toText ∧
      (Version.mk "1".toText "10".toText "1".toText).text = "1.10.1".toText ∧
      evaluate (Dictionary.empty.insert "1.9".toText 999999) "1.9 < 1.10.1".toText = .ok true := by
  refine ⟨rfl, rfl, ?_⟩
  exact evaluate_versions (u := ⟨"1".toText, "9".toText, []⟩)
    (v := ⟨"1".toText, "10".toText, "1".toText⟩)
    ⟨by decide, by decide, by decide⟩ ⟨by decide, by decide, by decide⟩
    ⟨by decide, by decide⟩ ⟨by decide, by decide⟩ (by decide) (by decide) .below (by decide)

end Condition
end Multiversion
