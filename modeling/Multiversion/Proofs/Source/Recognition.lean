import Multiversion.Proofs.Text.Strip
import Multiversion.Source

/-! How lines are told apart.

`readAmong_eq` says what the first marker that fits a line gives. A keyword set
whose eval token can be taken for nothing else (`EvalApart`) has a stronger law:
a line is an eval line exactly when its eval token follows a blank margin
(`kind_eq_eval_iff`), so commenting a line out makes an eval line of it
(`kind_commented`), and enabling it takes the token away at that place
(`enable_eq`, `enable_commented`). Both named keyword sets are of this sort. -/
namespace Multiversion

/-! ### The first marker that fits -/

namespace Directive

/-- No marker stands at the front of the line. -/
def Unmarked (line : Text) (markers : List (LineKind × Text)) : Prop :=
  ∀ m ∈ markers, ¬ m.2 <+: line

theorem after?_eq_none_iff {token s : Text} : Text.after? token s = none ↔ ¬ token <+: s := by
  rw [← Option.not_isSome_iff_eq_none, Option.isSome_iff_exists]
  refine not_congr ⟨?_, ?_⟩
  · rintro ⟨behind, h⟩
    exact ⟨behind, (Text.after?_eq_some_iff.1 h).symm⟩
  · rintro ⟨behind, h⟩
    exact ⟨behind, Text.after?_eq_some_iff.2 h.symm⟩

/-- A line is plain, or it is a marker's token and the argument behind it. -/
theorem readAmong_eq (line : Text) (markers : List (LineKind × Text)) :
    (Unmarked line markers ∧ readAmong line markers = ⟨.plain, line⟩) ∨
      ∃ m ∈ markers, ∃ argument, line = m.2 ++ argument ∧
        readAmong line markers = ⟨m.1, argument⟩ := by
  induction markers with
  | nil => exact .inl ⟨fun m hm => (by cases hm), rfl⟩
  | cons m more ih =>
    obtain ⟨kind, token⟩ := m
    cases ha : Text.after? token line with
    | some argument =>
      exact .inr ⟨(kind, token), List.mem_cons_self .., argument, Text.after?_eq_some_iff.1 ha,
        by simp [readAmong, ha]⟩
    | none =>
      have hr : readAmong line ((kind, token) :: more) = readAmong line more := by
        simp [readAmong, ha]
      rw [hr]
      rcases ih with ⟨hu, hp⟩ | ⟨m, hm, argument, hl, he⟩
      · refine .inl ⟨fun m hm => ?_, hp⟩
        rcases List.mem_cons.1 hm with rfl | hm
        · exact after?_eq_none_iff.1 ha
        · exact hu m hm
      · exact .inr ⟨m, List.mem_cons_of_mem _ hm, argument, hl, he⟩

theorem readAmong_append_of_unmarked {line : Text} {markers : List (LineKind × Text)}
    (h : Unmarked line markers) (more : List (LineKind × Text)) :
    readAmong line (markers ++ more) = readAmong line more := by
  induction markers with
  | nil => rfl
  | cons m rest ih =>
    obtain ⟨kind, token⟩ := m
    have hnone := after?_eq_none_iff.2 (h (kind, token) (List.mem_cons_self ..))
    simp only [List.cons_append, readAmong, hnone]
    exact ih fun m hm => h m (List.mem_cons_of_mem _ hm)

end Directive

/-! ### Keyword sets whose eval token stands apart -/

namespace Keywords

/-- The markers of structural lines. -/
def structuralMarkers (k : Keywords) : List (LineKind × Text) := k.markers.dropLast

theorem markers_eq (k : Keywords) : k.markers = k.structuralMarkers ++ [(.eval, k.eval)] := rfl

theorem structural_of_mem {k : Keywords} {m : LineKind × Text} (hm : m ∈ k.structuralMarkers) :
    m.1.structural = true := by
  simp only [structuralMarkers, markers, List.dropLast, List.mem_cons, List.not_mem_nil,
    or_false] at hm
  rcases hm with rfl | rfl | rfl | rfl | rfl | rfl | rfl <;> rfl

/-- The eval token has no white space at its ends, and neither it nor another
token starts with the other. -/
structure EvalApart (k : Keywords) : Prop where
  starts : Text.startsVisible k.eval = true
  ends : Text.endsVisible k.eval = true
  apart : ∀ m ∈ k.structuralMarkers, ¬ m.2 <+: k.eval ∧ ¬ k.eval <+: m.2

theorem standard_evalApart : standard.EvalApart := by
  constructor <;> decide

theorem cfg_evalApart : cfg.EvalApart := by
  constructor <;> decide

/-- A line that starts with the eval token starts with no other one. -/
theorem EvalApart.unmarked {k : Keywords} (hk : k.EvalApart) (behind : Text) :
    Directive.Unmarked (k.eval ++ behind) k.structuralMarkers := by
  intro m hm hp
  obtain ⟨h, h'⟩ := hk.apart m hm
  rcases List.prefix_or_prefix_of_prefix hp (List.prefix_append k.eval behind) with hc | hc
  · exact h hc
  · exact h' hc

theorem EvalApart.read_eval {k : Keywords} (hk : k.EvalApart) (behind : Text) :
    Directive.read k (k.eval ++ behind) = ⟨.eval, behind⟩ := by
  rw [Directive.read, markers_eq, Directive.readAmong_append_of_unmarked (hk.unmarked behind)]
  simp [Directive.readAmong, Text.after?_append]

end Keywords

namespace Source

/-- What a line says, white space around it aside. -/
def directive (k : Keywords) (text : Text) : Directive := Directive.read k (Text.strip text)

/-- What a line is. -/
def kind (k : Keywords) (text : Text) : LineKind := (directive k text).kind

variable {k : Keywords}

/-- An eval line has its token behind its margin, whatever the keyword set. -/
theorem eq_of_kind_eval {text : Text} (h : kind k text = .eval) :
    ∃ rest, text = Text.margin text ++ (k.eval ++ rest) := by
  have hr : Directive.readAmong (Text.strip text) k.markers = directive k text := rfl
  rcases Directive.readAmong_eq (Text.strip text) k.markers with ⟨_, he⟩ | ⟨m, hm, argument, hl, he⟩
  · rw [hr] at he
    simp [kind, he] at h
  · rw [hr] at he
    have hm1 : m.1 = .eval := by rw [← h, kind, he]
    rw [Keywords.markers_eq, List.mem_append] at hm
    rcases hm with hm | hm
    · have := Keywords.structural_of_mem hm
      rw [hm1] at this
      cases this
    · rw [List.mem_singleton.1 hm] at hl
      exact Text.eq_margin_append_of_strip hl

theorem kind_margin_eval (hk : k.EvalApart) {lead : Text} (hl : Text.isBlank lead = true)
    (rest : Text) : kind k (lead ++ (k.eval ++ rest)) = .eval := by
  obtain ⟨behind, hs⟩ := Text.strip_margin_append hl hk.starts hk.ends rest
  rw [kind, directive, hs, hk.read_eval]

theorem kind_eq_eval_iff (hk : k.EvalApart) {text : Text} :
    kind k text = .eval ↔ ∃ rest, text = Text.margin text ++ (k.eval ++ rest) := by
  refine ⟨eq_of_kind_eval, fun ⟨rest, h⟩ => ?_⟩
  rw [h]
  exact kind_margin_eval hk (Text.isBlank_margin text) rest

theorem isBlank_of_kind_eval (hs : Text.startsVisible k.eval = true) {text : Text}
    (h : kind k text = .eval) : Text.isBlank text = false := by
  obtain ⟨rest, hr⟩ := eq_of_kind_eval h
  rw [hr]
  simp [Text.isBlank_of_startsVisible hs]

/-- The empty line starts with no token. -/
theorem kind_nil (hk : k.EvalApart) : kind k [] = .plain := by
  have hu : Directive.Unmarked [] k.markers := by
    rw [Keywords.markers_eq]
    intro m hm hp
    rcases List.mem_append.1 hm with hm | hm
    · exact (hk.apart m hm).1 (by rw [List.prefix_nil.1 hp]; exact List.nil_prefix)
    · rw [List.mem_singleton.1 hm] at hp
      have hs := hk.starts
      have he : k.eval = [] := List.prefix_nil.1 hp
      rw [he] at hs
      cases hs
  have := Directive.readAmong_append_of_unmarked hu []
  rw [List.append_nil] at this
  show (Directive.readAmong [] k.markers).kind = .plain
  rw [this]
  rfl

/-! ### Enabling a line -/

theorem isBlank_dropSpace (s : Text) : Text.isBlank (Text.dropSpace s) = Text.isBlank s := by
  cases s with
  | nil => rfl
  | cons c rest =>
    by_cases hc : c = ' '
    · subst hc
      simp [Text.dropSpace, Text.isBlank]
    · simp [Text.dropSpace, hc]

/-- Enabling a line takes away the token behind the margin, and one space behind
the token. -/
theorem enable_eq (hs : Text.startsVisible k.eval = true) {lead : Text}
    (hl : Text.isBlank lead = true) (rest : Text) :
    enable k (lead ++ (k.eval ++ rest)) =
      if Text.isBlank rest then [] else lead ++ Text.dropSpace rest := by
  simp only [enable, Text.eraseFirst_margin_append hl hs, Text.isBlank_append, hl, Bool.true_and,
    isBlank_dropSpace]

/-- A line without the token behind its margin. A line of which nothing is left is
empty. -/
def uncover (k : Keywords) (text : Text) : Text :=
  let behind := (Text.stripFront text).drop k.eval.length
  if Text.isBlank behind then [] else Text.margin text ++ Text.dropSpace behind

/-- The first place where an eval line has its token is behind the margin. -/
theorem enable_eq_uncover (hs : Text.startsVisible k.eval = true) {text : Text}
    (h : kind k text = .eval) : enable k text = uncover k text := by
  obtain ⟨rest, hr⟩ := eq_of_kind_eval h
  have hfront : Text.stripFront text = k.eval ++ rest := by
    rw [hr, Text.stripFront_append (Text.isBlank_margin text),
      Text.stripFront_of_startsVisible (Text.startsVisible_append hs)]
  have hbehind : (Text.stripFront text).drop k.eval.length = rest := by
    rw [hfront, List.drop_left]
  have henable : enable k (Text.margin text ++ (k.eval ++ rest)) = _ :=
    enable_eq hs (Text.isBlank_margin text) rest
  rw [← hr] at henable
  simp only [henable, uncover, hbehind]

theorem length_dropSpace_le (s : Text) : (Text.dropSpace s).length ≤ s.length := by
  cases s with
  | nil => exact Nat.le_refl _
  | cons c rest =>
    rw [Text.dropSpace]
    split
    · exact Nat.le_succ _
    · exact Nat.le_refl _

/-- An eval line gets shorter when it is enabled. -/
theorem length_enable_lt (hs : Text.startsVisible k.eval = true) {text : Text}
    (h : kind k text = .eval) : (enable k text).length < text.length := by
  obtain ⟨rest, hr⟩ := eq_of_kind_eval h
  have henable : enable k (Text.margin text ++ (k.eval ++ rest)) = _ :=
    enable_eq hs (Text.isBlank_margin text) rest
  rw [← hr] at henable
  have hlength : text.length = (Text.margin text).length + (k.eval.length + rest.length) := by
    rw [← List.length_append, ← List.length_append, ← hr]
  have htoken : 0 < k.eval.length := by
    obtain ⟨c, token, ht, _⟩ := Text.startsVisible_iff.1 hs
    rw [ht]
    exact Nat.succ_pos _
  have hrest := length_dropSpace_le rest
  rw [henable, hlength]
  split
  · rw [List.length_nil]
    omega
  · rw [List.length_append]
    omega

/-- A line that is commented out behind so many spaces. -/
def commented (k : Keywords) (indent : Nat) (behind : Text) : Text :=
  Text.spaces indent ++ (k.eval ++ (" ".toText ++ behind))

/-- What stands for an empty line behind so many spaces. -/
def placeholder (k : Keywords) (indent : Nat) : Text := Text.spaces indent ++ k.eval

theorem kind_commented (hk : k.EvalApart) (indent : Nat) (behind : Text) :
    kind k (commented k indent behind) = .eval :=
  kind_margin_eval hk (Text.isBlank_spaces indent) _

theorem kind_placeholder (hk : k.EvalApart) (indent : Nat) :
    kind k (placeholder k indent) = .eval := by
  have := kind_margin_eval hk (Text.isBlank_spaces indent) []
  rwa [List.append_nil] at this

theorem enable_commented (hs : Text.startsVisible k.eval = true) (indent : Nat) {behind : Text}
    (hb : Text.isBlank behind = false) :
    enable k (commented k indent behind) = Text.spaces indent ++ behind := by
  have hspace : Text.dropSpace (" ".toText ++ behind) = behind := rfl
  have hblank : Text.isBlank (" ".toText ++ behind) = false := by rw [Text.isBlank_append, hb,
    Bool.and_false]
  rw [commented, enable_eq hs (Text.isBlank_spaces indent), hspace, hblank]
  rfl

theorem enable_placeholder (hs : Text.startsVisible k.eval = true) (indent : Nat) :
    enable k (placeholder k indent) = [] := by
  have := enable_eq (k := k) hs (Text.isBlank_spaces indent) []
  rwa [List.append_nil] at this

end Source

end Multiversion
