import Mathlib.Tactic.Ring
import Multiversion.Proofs.Literal.Normal

/-! Versions and the integers they read as.

A version is read off its text alone (`ofText?_eq_some_iff`). Minor and patch take two
places each, so a version reads as `major * 10000 + minor * 100 + patch` as long as they
fit there (`value_digits`), and these integers are ordered as the versions are, major
first, then minor, then patch (`compare_value_digits`). -/
namespace Multiversion

namespace Literal

/-! ### Positions -/

theorem foldl_value (n : Nat) (digits : Text) :
    digits.foldl (fun n c => 10 * n + digitValue c) n = n * 10 ^ digits.length + value digits := by
  induction digits generalizing n with
  | nil => simp [value]
  | cons c digits ih =>
    simp only [List.foldl_cons, value, List.length_cons]
    rw [ih, ih (10 * 0 + digitValue c)]
    ring

/-- Digits in front count for as many places as there are digits behind them. -/
theorem value_append (front behind : Text) :
    value (front ++ behind) = value front * 10 ^ behind.length + value behind := by
  rw [value, List.foldl_append, foldl_value]
  rfl

theorem value_lt {digits : Text} (h : digits.all CodePoint.isDigit = true) :
    value digits < 10 ^ digits.length := by
  induction digits with
  | nil => simp [value]
  | cons c digits ih =>
    simp only [List.all_cons, Bool.and_eq_true] at h
    have hc : digitValue c ≤ 9 := by
      have hdigit := h.1
      simp only [CodePoint.isDigit, Bool.and_eq_true, decide_eq_true_eq] at hdigit
      simp only [digitValue, show '0'.toNat = 48 from rfl]
      omega
    have hfirst : value [c] = digitValue c := by simp [value]
    calc value (c :: digits)
      _ = digitValue c * 10 ^ digits.length + value digits := by
        rw [← hfirst, ← value_append, List.singleton_append]
      _ < digitValue c * 10 ^ digits.length + 10 ^ digits.length := by
        have hrest := ih h.2
        omega
      _ = (digitValue c + 1) * 10 ^ digits.length := by ring
      _ ≤ 10 * 10 ^ digits.length := Nat.mul_le_mul_right _ (by omega)
      _ = 10 ^ (c :: digits).length := by rw [List.length_cons]; ring

theorem value_zeros (n : Nat) : value (List.replicate n (CodePoint.ofChar '0')) = 0 := by
  induction n with
  | zero => rfl
  | succ n ih =>
    rw [List.replicate_succ', value_append, ih]
    rfl

/-- Zeros in front do not count. -/
@[simp] theorem value_twoPlaces (digits : Text) : value (twoPlaces digits) = value digits := by
  rw [twoPlaces, value_append, value_zeros]
  omega

theorem length_twoPlaces {digits : Text} (h : digits.length ≤ 2) :
    (twoPlaces digits).length = 2 := by
  simp only [twoPlaces, List.length_append, List.length_replicate]
  omega

theorem twoPlaces_all {digits : Text} (h : digits.all CodePoint.isDigit = true) :
    (twoPlaces digits).all CodePoint.isDigit = true := by
  rw [twoPlaces, List.all_append, h, Bool.and_true, List.all_eq_true]
  intro c hc
  obtain rfl := List.eq_of_mem_replicate hc
  decide

end Literal

namespace Version

/-! ### The text of a version -/

/-- The components that are written: a patch only if there is one. -/
def components (v : Version) : List Text :=
  if v.patch = [] then [v.major, v.minor] else [v.major, v.minor, v.patch]

/-- A version as it is written, with points between the components. -/
def text (v : Version) : Text := Text.join [CodePoint.ofChar '.'] v.components

/-- The components are digits, and only the patch may be missing. -/
structure WellFormed (v : Version) : Prop where
  major : Literal.isDigits v.major = true
  minor : Literal.isDigits v.minor = true
  patch : v.patch.all CodePoint.isDigit = true

theorem WellFormed.of_mem_components {v : Version} (h : v.WellFormed) {piece : Text}
    (hpiece : piece ∈ v.components) : piece.all CodePoint.isDigit = true := by
  have hin : piece ∈ [v.major, v.minor, v.patch] := by
    rw [components] at hpiece
    split at hpiece
    · exact List.mem_append_left [v.patch] hpiece
    · exact hpiece
  rcases List.mem_cons.1 hin with rfl | hin
  · exact (Literal.isDigits_iff.1 h.major).2
  · rcases List.mem_cons.1 hin with rfl | hin
    · exact (Literal.isDigits_iff.1 h.minor).2
    · obtain rfl := List.mem_singleton.1 hin
      exact h.patch

theorem splitOn_text {v : Version} (h : v.WellFormed) :
    Text.splitOn '.' v.text = v.components := by
  refine Text.splitOn_join ?_ fun piece hpiece hmem => ?_
  · rw [components]
    split <;> simp
  · have hpoint := List.all_eq_true.1 (h.of_mem_components hpiece) _ hmem
    contradiction

/-- A text stands for the version whose text it is, and for no other. -/
theorem ofText?_eq_some_iff {s : Text} {v : Version} :
    ofText? s = some v ↔ v.WellFormed ∧ s = v.text := by
  constructor
  · intro h
    have hjoin := Text.join_splitOn '.' s
    rw [ofText?] at h
    split at h
    · next major minor hsplit =>
      obtain ⟨hdigits, hv⟩ := Option.ite_none_right_eq_some.1 h
      obtain rfl := Option.some.inj hv
      simp only [Bool.and_eq_true] at hdigits
      rw [hsplit] at hjoin
      refine ⟨⟨hdigits.1, hdigits.2, rfl⟩, ?_⟩
      rw [text, components, if_pos rfl, hjoin]
    · next major minor patch hsplit =>
      obtain ⟨hdigits, hv⟩ := Option.ite_none_right_eq_some.1 h
      obtain rfl := Option.some.inj hv
      simp only [Bool.and_eq_true] at hdigits
      rw [hsplit] at hjoin
      obtain ⟨hpatch, hall⟩ := Literal.isDigits_iff.1 hdigits.2
      refine ⟨⟨hdigits.1.1, hdigits.1.2, hall⟩, ?_⟩
      rw [text, components, if_neg hpatch, hjoin]
    · cases h
  · rintro ⟨h, rfl⟩
    by_cases hpatch : v.patch = []
    · rw [ofText?, splitOn_text h, components, if_pos hpatch]
      simp only [h.major, h.minor, Bool.and_self, if_true]
      rw [← hpatch]
    · rw [ofText?, splitOn_text h, components, if_neg hpatch]
      simp only [h.major, h.minor, Literal.isDigits_iff.2 ⟨hpatch, h.patch⟩, Bool.and_self, if_true]

/-- A version is written with digits and points. -/
theorem mem_text {v : Version} (h : v.WellFormed) {c : CodePoint} (hc : c ∈ v.text) :
    c.isDigit = true ∨ c = '.' := by
  rcases Text.mem_join hc with hc | ⟨piece, hpiece, hc⟩
  · exact .inr (List.mem_singleton.1 hc)
  · exact .inl (List.all_eq_true.1 (h.of_mem_components hpiece) c hc)

/-- A version has no underscores. -/
theorem ofText?_of_underscore {s : Text} (h : CodePoint.ofChar '_' ∈ s) : ofText? s = none := by
  by_contra hversion
  obtain ⟨v, hversion⟩ := Option.ne_none_iff_exists'.1 hversion
  obtain ⟨hv, rfl⟩ := ofText?_eq_some_iff.1 hversion
  rcases mem_text hv h with hdigit | hpoint
  · contradiction
  · exact absurd hpoint (by decide)

/-! ### The integer of a version -/

theorem digits_all {v : Version} (h : v.WellFormed) : v.digits.all CodePoint.isDigit = true := by
  rw [digits, List.all_append, List.all_append, (Literal.isDigits_iff.1 h.major).2,
    Literal.twoPlaces_all (Literal.isDigits_iff.1 h.minor).2, Literal.twoPlaces_all h.patch]
  rfl

/-- Minor and patch fit into the places that they have. -/
structure Fits (v : Version) : Prop where
  minor : v.minor.length ≤ 2
  patch : v.patch.length ≤ 2

theorem length_digits {v : Version} (h : v.Fits) : v.digits.length = v.major.length + 4 := by
  rw [digits, List.length_append, List.length_append, Literal.length_twoPlaces h.minor,
    Literal.length_twoPlaces h.patch]

/-- Each component has its own places. -/
theorem value_digits {v : Version} (h : v.Fits) : Literal.value v.digits =
    Literal.value v.major * 10000 + (Literal.value v.minor * 100 + Literal.value v.patch) := by
  rw [digits, Literal.value_append, Literal.value_append, Literal.value_twoPlaces,
    Literal.value_twoPlaces, Literal.length_twoPlaces h.minor, Literal.length_twoPlaces h.patch]
  ring

/-- Which of two versions is the lower one: the first component that differs decides, and a
missing patch counts as zero. -/
def order (u v : Version) : Ordering :=
  (compare (Literal.value u.major) (Literal.value v.major)).then
    ((compare (Literal.value u.minor) (Literal.value v.minor)).then
      (compare (Literal.value u.patch) (Literal.value v.patch)))

/-- Numbers with a lower part that fits compare by the upper part first. -/
theorem compare_mul_add {base m n r s : Nat} (hr : r < base) (hs : s < base) :
    compare (m * base + r) (n * base + s) = (compare m n).then (compare r s) := by
  have below {m n r s : Nat} (hr : r < base) (h : m < n) : m * base + r < n * base + s := by
    have hstep : (m + 1) * base ≤ n * base := Nat.mul_le_mul_right base h
    rw [Nat.succ_mul] at hstep
    omega
  rcases lt_trichotomy m n with h | rfl | h
  · rw [compare_lt_iff_lt.2 h, compare_lt_iff_lt.2 (below hr h)]
    rfl
  · rw [compare_eq_iff_eq.2 rfl, Ordering.then]
    rcases lt_trichotomy r s with h | rfl | h
    · rw [compare_lt_iff_lt.2 h, compare_lt_iff_lt.2 (Nat.add_lt_add_left h _)]
    · rw [compare_eq_iff_eq.2 rfl, compare_eq_iff_eq.2 rfl]
    · rw [compare_gt_iff_gt.2 h, compare_gt_iff_gt.2 (Nat.add_lt_add_left h _)]
  · rw [compare_gt_iff_gt.2 h, compare_gt_iff_gt.2 (below hs h)]
    rfl

theorem compare_value_digits {u v : Version} (hu : u.WellFormed) (hv : v.WellFormed)
    (huFits : u.Fits) (hvFits : v.Fits) :
    compare (Literal.value u.digits) (Literal.value v.digits) = u.order v := by
  have minor_lt {v : Version} (h : v.WellFormed) (hfits : v.Fits) : Literal.value v.minor < 100 :=
    (Literal.value_lt (Literal.isDigits_iff.1 h.minor).2).trans_le
      (Nat.pow_le_pow_right (by decide) hfits.minor)
  have patch_lt {v : Version} (h : v.WellFormed) (hfits : v.Fits) : Literal.value v.patch < 100 :=
    (Literal.value_lt h.patch).trans_le (Nat.pow_le_pow_right (by decide) hfits.patch)
  have huMinor := minor_lt hu huFits
  have hvMinor := minor_lt hv hvFits
  have huPatch := patch_lt hu huFits
  have hvPatch := patch_lt hv hvFits
  rw [value_digits huFits, value_digits hvFits, compare_mul_add (by omega) (by omega),
    compare_mul_add huPatch hvPatch, order]

end Version

namespace Literal

theorem sign_of_isDigits {digits : Text} (h : isDigits digits = true) :
    sign digits = (false, digits) := by
  obtain ⟨hne, hall⟩ := isDigits_iff.1 h
  obtain ⟨c, rest, rfl⟩ := List.exists_cons_of_ne_nil hne
  have hc : c.isDigit = true := List.all_eq_true.1 hall c List.mem_cons_self
  have hminus : c ≠ '-' := by
    rintro rfl
    contradiction
  have hplus : c ≠ '+' := by
    rintro rfl
    contradiction
  rw [sign, if_neg hminus, if_neg hplus]

theorem normalize_text {v : Version} (h : v.WellFormed) : normalize v.text = v.digits := by
  have hversion : Version.ofText? v.text = some v := Version.ofText?_eq_some_iff.2 ⟨h, rfl⟩
  have hchars : v.text.all isLiteralChar = true := by
    refine List.all_eq_true.2 fun c hc => ?_
    rcases Version.mem_text h hc with hdigit | rfl
    · simp [isLiteralChar, hdigit]
    · decide
  have hne : v.text ≠ [] := by
    intro hnil
    rw [hnil] at hversion
    cases hversion
  rw [normalize, if_pos (by simp [hne, hchars]), hversion]

theorem isDigits_digits {v : Version} (h : v.WellFormed) : isDigits v.digits = true := by
  refine isDigits_iff.2 ⟨?_, Version.digits_all h⟩
  simp [Version.digits, (isDigits_iff.1 h.major).1]

/-- A version reads as the number that its digits make. -/
theorem read_text {v : Version} (h : v.WellFormed) (hlimit : v.digits.length ≤ digitLimit) :
    read v.text = .ok (some (value v.digits)) := by
  have hdigits := isDigits_digits h
  rw [read, normalize_text h, integer?]
  simp only [sign_of_isDigits hdigits, hdigits, hlimit, if_true, Bool.false_eq_true, if_false]

end Literal
end Multiversion
