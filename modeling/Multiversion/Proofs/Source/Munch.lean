import Mathlib.Data.List.Nodup
import Multiversion.Proofs.Source.Recognition

/-! Maximal munch.

The markers are tried in a fixed order and the first one that fits is taken. If no token is
tried before a longer one that starts with it, the first marker that fits is the longest one
that fits: that is so of a marker in front of others (`Longest.head`), passing over a marker
that does not fit keeps it so (`Longest.cons`), and so it is for every list of markers
(`readAmong_longest`). A keyword set whose tokens are in such an order and distinct
(`Keywords.Graded`) therefore leaves no choice: there is one longest marker at most
(`Longest.unique`), and every line is read by it (`read_longest`). -/
namespace Multiversion

namespace Keywords

/-- The tokens are distinct, and none is tried before a longer one that starts with it. -/
structure Graded (k : Keywords) : Prop where
  distinct : (k.markers.map Prod.snd).Nodup
  ordered : k.markers.Pairwise fun m later => m.2 <+: later.2 → m.2 = later.2

theorem standard_graded : standard.Graded := by
  constructor <;> decide

theorem cfg_graded : cfg.Graded := by
  constructor <;> decide

theorem kind_ne_plain_of_mem {k : Keywords} {m : LineKind × Text} (hm : m ∈ k.markers) :
    m.1 ≠ .plain := by
  rw [markers_eq, List.mem_append, List.mem_singleton] at hm
  rcases hm with hm | rfl
  · intro hplain
    have hstructural := structural_of_mem hm
    rw [hplain] at hstructural
    cases hstructural
  · exact nofun

end Keywords

namespace Directive

variable {line argument : Text} {markers : List (LineKind × Text)} {m m' : LineKind × Text}

/-- A marker of the longest token that a line starts with. -/
structure Longest (line : Text) (markers : List (LineKind × Text)) (m : LineKind × Text) :
    Prop where
  mem : m ∈ markers
  fits : m.2 <+: line
  longest : ∀ m' ∈ markers, m'.2 <+: line → m'.2.length ≤ m.2.length

/-- Two tokens of one length that a line starts with are the same. -/
theorem Longest.unique (hd : (markers.map Prod.snd).Nodup) (h : Longest line markers m)
    (h' : Longest line markers m') : m = m' := by
  have length : m.2.length = m'.2.length :=
    Nat.le_antisymm (h'.longest m h.mem h.fits) (h.longest m' h'.mem h'.fits)
  have same : m.2 = m'.2 :=
    (List.prefix_of_prefix_length_le h.fits h'.fits (Nat.le_of_eq length)).eq_of_length length
  exact List.inj_on_of_nodup_map hd h.mem h'.mem same

theorem Longest.head (hm : ∀ later ∈ markers, m.2 <+: later.2 → m.2 = later.2)
    (hf : m.2 <+: line) : Longest line (m :: markers) m := by
  refine ⟨List.mem_cons_self, hf, fun later hmem hfits => ?_⟩
  rcases List.mem_cons.1 hmem with rfl | hmem
  · exact Nat.le_refl _
  · rcases List.prefix_or_prefix_of_prefix hf hfits with hlonger | hshorter
    · exact Nat.le_of_eq (congrArg List.length (hm later hmem hlonger).symm)
    · exact hshorter.length_le

theorem Longest.cons (hf : ¬ m'.2 <+: line) (h : Longest line markers m) :
    Longest line (m' :: markers) m := by
  refine ⟨List.mem_cons_of_mem _ h.mem, h.fits, fun other hmem hfits => ?_⟩
  rcases List.mem_cons.1 hmem with rfl | hmem
  · exact absurd hfits hf
  · exact h.longest other hmem hfits

/-- A line is plain, or it is the token of its longest marker and the argument behind it. -/
theorem readAmong_longest (ho : markers.Pairwise fun m later => m.2 <+: later.2 → m.2 = later.2)
    (line : Text) :
    (Unmarked line markers ∧ readAmong line markers = ⟨.plain, line⟩) ∨
      ∃ m argument, Longest line markers m ∧ line = m.2 ++ argument ∧
        readAmong line markers = ⟨m.1, argument⟩ := by
  induction markers with
  | nil => exact .inl ⟨nofun, rfl⟩
  | cons first more ih =>
    obtain ⟨kind, token⟩ := first
    obtain ⟨hfirst, hmore⟩ := List.pairwise_cons.1 ho
    cases hafter : Text.after? token line with
    | some argument =>
      have hline : line = token ++ argument := Text.after?_eq_some_iff.1 hafter
      have hlongest : Longest line ((kind, token) :: more) (kind, token) :=
        .head hfirst ⟨argument, hline.symm⟩
      exact .inr ⟨(kind, token), argument, hlongest, hline, by simp only [readAmong, hafter]⟩
    | none =>
      have hfits : ¬ token <+: line := after?_eq_none_iff.1 hafter
      have hread : readAmong line ((kind, token) :: more) = readAmong line more := by
        simp only [readAmong, hafter]
      rw [hread]
      refine (ih hmore).imp ?_ ?_
      · rintro ⟨hunmarked, hplain⟩
        exact ⟨List.forall_mem_cons.2 ⟨hfits, hunmarked⟩, hplain⟩
      · rintro ⟨m, argument, hlongest, hline⟩
        exact ⟨m, argument, hlongest.cons hfits, hline⟩

/-! ### Graded keyword sets -/

variable {k : Keywords}

theorem read_cases (hk : k.Graded) (line : Text) :
    (Unmarked line k.markers ∧ read k line = ⟨.plain, line⟩) ∨
      ∃ m argument, Longest line k.markers m ∧ line = m.2 ++ argument ∧
        read k line = ⟨m.1, argument⟩ :=
  readAmong_longest hk.ordered line

theorem read_of_longest (hk : k.Graded) (h : Longest line k.markers m)
    (hline : line = m.2 ++ argument) : read k line = ⟨m.1, argument⟩ := by
  rcases read_cases hk line with ⟨hunmarked, -⟩ | ⟨m', behind, hlongest, hbehind, hread⟩
  · exact absurd h.fits (hunmarked m h.mem)
  · obtain rfl : m' = m := hlongest.unique hk.distinct h
    have same : behind = argument := List.append_cancel_left (hbehind.symm.trans hline)
    rw [hread, same]

theorem read_eq_marked_iff (hk : k.Graded) {kind : LineKind} (hkind : kind ≠ .plain) :
    read k line = ⟨kind, argument⟩ ↔
      ∃ token, Longest line k.markers (kind, token) ∧ line = token ++ argument := by
  constructor
  · intro h
    rcases read_cases hk line with ⟨-, hread⟩ | ⟨⟨_, token⟩, _, hlongest, hline, hread⟩
    · cases h.symm.trans hread
      exact absurd rfl hkind
    · cases h.symm.trans hread
      exact ⟨token, hlongest, hline⟩
  · rintro ⟨token, hlongest, hline⟩
    exact read_of_longest hk hlongest hline

theorem read_eq_plain_iff (hk : k.Graded) :
    read k line = ⟨.plain, argument⟩ ↔ argument = line ∧ Unmarked line k.markers := by
  rcases read_cases hk line with ⟨hunmarked, hread⟩ | ⟨m, _, hlongest, -, hread⟩
  · rw [hread, Directive.mk.injEq]
    exact ⟨fun h => ⟨h.2.symm, hunmarked⟩, fun h => ⟨rfl, h.1.symm⟩⟩
  · rw [hread, Directive.mk.injEq]
    exact ⟨fun h => absurd h.1 (Keywords.kind_ne_plain_of_mem hlongest.mem),
      fun h => absurd hlongest.fits (h.2 m hlongest.mem)⟩

/-- **The longest token decides.** If the tokens of a keyword set are distinct and none is
tried before a longer one that starts with it, a line is of a kind exactly if a token of that
kind is the longest one that the line starts with, and then its argument is what follows the
token; and it is plain, with itself as the argument, exactly if it starts with no token. The
keyword sets that have a name are of this sort. -/
theorem read_longest :
    (∀ p ∈ Keywords.profiles, p.2.Graded) ∧
      ∀ k : Keywords, k.Graded → ∀ line : Text,
        (∀ kind argument, kind ≠ .plain → (read k line = ⟨kind, argument⟩ ↔
          ∃ token, Longest line k.markers (kind, token) ∧ line = token ++ argument)) ∧
        ∀ argument, read k line = ⟨.plain, argument⟩ ↔
          argument = line ∧ Unmarked line k.markers := by
  refine ⟨?_, fun k hk line => ⟨fun _ _ => read_eq_marked_iff hk, fun _ => read_eq_plain_iff hk⟩⟩
  simp [Keywords.profiles, Keywords.standard_graded, Keywords.cfg_graded]

/-- Tokens that all start with the one of eval lines. -/
def nestedTokens : Keywords where
  disableRemap := "#off".toText
  enableRemap := "#on".toText
  ifHolds := "#if".toText
  ifDefined := "#ifdef".toText
  elseIf := "#else if".toText
  otherwise := "#else".toText
  endIf := "#end".toText
  eval := "#".toText

/-- Three of the tokens fit the line, and the longest of them is that of `elseIf`. -/
theorem read_longest_nestedTokens :
    nestedTokens.Graded ∧
      Longest "#else if A".toText nestedTokens.markers (.elseIf, "#else if".toText) ∧
      read nestedTokens "#else if A".toText = ⟨.elseIf, " A".toText⟩ := by
  have hgraded : nestedTokens.Graded := by constructor <;> decide
  have hlongest :
      Longest "#else if A".toText nestedTokens.markers (.elseIf, "#else if".toText) := by
    constructor <;> decide
  obtain ⟨hmarked, -⟩ := read_longest.2 nestedTokens hgraded "#else if A".toText
  exact ⟨hgraded, hlongest, (hmarked .elseIf _ (by decide)).2 ⟨_, hlongest, rfl⟩⟩

end Directive

end Multiversion
