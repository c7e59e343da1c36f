import Mathlib.Data.List.Nodup
import Multiversion.Keywords

/-! Which keyword set a file uses.

A map has no two suffixes that are the same, and of two suffixes of one name the longer one
ends with the other. So the longest suffix that a name ends with is unique (`Longest.unique`).
A look-up passes over the bindings and keeps the best one of those it has seen (`Best.step`,
`Best.foldl`); the map thus gives the keyword set that is bound to the longest suffix, whatever
the order of its bindings (`keywordsFor_eq_some_iff`, `keywordsFor_perm`).

Of the bindings themselves it matters only what a suffix is bound to and which suffix prevails
for a name (`keywordsFor_eq_some_iff_prevails`). A suffix that is bound anew takes the names
for which it prevails, and every other name keeps its keyword set (`keywordsFor_insert`). -/
namespace Multiversion.SuffixMap

variable {name suffix : Text} {entries entries' seen : List (Text × Keywords)}
  {best best' next : Text × Keywords}

/-- A binding of the longest suffix that a name ends with. -/
structure Longest (name : Text) (entries : List (Text × Keywords)) (best : Text × Keywords) :
    Prop where
  mem : best ∈ entries
  fits : best.1 <:+ name
  longest : ∀ e ∈ entries, e.1 <:+ name → e.1.length ≤ best.1.length

theorem Longest.unique (hd : (entries.map Prod.fst).Nodup) (h : Longest name entries best)
    (h' : Longest name entries best') : best = best' := by
  have length : best.1.length = best'.1.length :=
    Nat.le_antisymm (h'.longest best h.mem h.fits) (h.longest best' h'.mem h'.fits)
  have same : best.1 = best'.1 :=
    (List.suffix_of_suffix_length_le h.fits h'.fits (Nat.le_of_eq length)).eq_of_length length
  exact List.inj_on_of_nodup_map hd h.mem h'.mem same

theorem Longest.kept (h : Longest name seen best)
    (hn : next.1 <:+ name → next.1.length ≤ best.1.length) : Longest name (seen ++ [next]) best :=
  ⟨List.mem_append_left _ h.mem, h.fits,
    List.forall_mem_append.2 ⟨h.longest, List.forall_mem_singleton.2 hn⟩⟩

theorem Longest.last (hn : next.1 <:+ name)
    (hs : ∀ e ∈ seen, e.1 <:+ name → e.1.length ≤ next.1.length) :
    Longest name (seen ++ [next]) next :=
  ⟨List.mem_append_right _ List.mem_cons_self, hn,
    List.forall_mem_append.2 ⟨hs, List.forall_mem_singleton.2 fun _ => Nat.le_refl _⟩⟩

/-! ### The best binding so far -/

/-- The best one of the bindings that were looked at: none if the name ends with none of their
suffixes, and else one of the longest. -/
inductive Best (name : Text) (seen : List (Text × Keywords)) : Option (Text × Keywords) → Prop where
  | unfit (h : ∀ e ∈ seen, ¬ e.1 <:+ name) : Best name seen none
  | longest {best : Text × Keywords} (h : Longest name seen best) : Best name seen (some best)

theorem Best.step {so : Option (Text × Keywords)} (h : Best name seen so)
    (next : Text × Keywords) : Best name (seen ++ [next]) (better name so next) := by
  by_cases hn : next.1 <:+ name
  · have fits : next.1.isSuffixOf name = true := List.isSuffixOf_iff_suffix.2 hn
    cases h with
    | unfit h =>
      simp only [better, fits, if_true]
      exact .longest (.last hn fun e he hf => absurd hf (h e he))
    | @longest best h =>
      simp only [better, fits, if_true]
      by_cases hl : best.1.length < next.1.length
      · rw [if_pos hl]
        exact .longest (.last hn fun e he hf => Nat.le_trans (h.longest e he hf) (Nat.le_of_lt hl))
      · rw [if_neg hl]
        exact .longest (h.kept fun _ => Nat.le_of_not_lt hl)
  · have kept : better name so next = so :=
      if_neg fun fits => hn (List.isSuffixOf_iff_suffix.1 fits)
    rw [kept]
    cases h with
    | unfit h => exact .unfit (List.forall_mem_append.2 ⟨h, List.forall_mem_singleton.2 hn⟩)
    | longest h => exact .longest (h.kept fun hf => absurd hf hn)

theorem Best.foldl {so : Option (Text × Keywords)} (h : Best name seen so)
    (entries : List (Text × Keywords)) :
    Best name (seen ++ entries) (entries.foldl (better name) so) := by
  induction entries generalizing seen so with
  | nil => rwa [List.append_nil]
  | cons next rest ih =>
    have hrest := ih (h.step next)
    rwa [List.append_assoc] at hrest

theorem best_entries (map : SuffixMap) (name : Text) :
    Best name map.entries (map.entries.foldl (better name) none) := by
  have hstart : Best name [] none := .unfit nofun
  exact hstart.foldl map.entries

theorem keywordsFor_eq_none_iff {map : SuffixMap} :
    map.keywordsFor name = none ↔ ∀ e ∈ map.entries, ¬ e.1 <:+ name := by
  have hbest := best_entries map name
  rw [keywordsFor]
  generalize map.entries.foldl (better name) none = so at hbest ⊢
  cases hbest with
  | unfit h => simpa using h
  | longest h => simpa using ⟨_, ⟨_, h.mem⟩, h.fits⟩

/-- A map gives the keyword set of the longest suffix that a name ends with. -/
theorem keywordsFor_eq_some_iff {map : SuffixMap} {k : Keywords} :
    map.keywordsFor name = some k ↔ ∃ suffix, Longest name map.entries (suffix, k) := by
  have hbest := best_entries map name
  rw [keywordsFor]
  generalize map.entries.foldl (better name) none = so at hbest ⊢
  cases hbest with
  | unfit h =>
    simp only [Option.map_none, reduceCtorEq, false_iff, not_exists]
    exact fun suffix hl => h _ hl.mem hl.fits
  | @longest best h =>
    simp only [Option.map_some, Option.some.injEq]
    constructor
    · rintro rfl
      exact ⟨best.1, h⟩
    · rintro ⟨suffix, hl⟩
      rw [h.unique map.distinct hl]

/-! ### The order of the bindings -/

theorem Longest.of_perm (hp : entries.Perm entries') (h : Longest name entries best) :
    Longest name entries' best :=
  ⟨hp.mem_iff.1 h.mem, h.fits, fun e he => h.longest e (hp.mem_iff.2 he)⟩

theorem keywordsFor_perm {map map' : SuffixMap} (hp : map.entries.Perm map'.entries) :
    map.keywordsFor name = map'.keywordsFor name := by
  apply Option.ext
  intro k
  rw [keywordsFor_eq_some_iff, keywordsFor_eq_some_iff]
  exact exists_congr fun suffix => ⟨Longest.of_perm hp, Longest.of_perm hp.symm⟩

/-! ### Binding a suffix -/

/-- The name ends with the suffix, and with no longer suffix of the map. -/
def Prevails (map : SuffixMap) (suffix name : Text) : Prop :=
  suffix <:+ name ∧ ∀ other ∈ map.keys, other <:+ name → other.length ≤ suffix.length

instance (map : SuffixMap) : Decidable (map.Prevails suffix name) :=
  inferInstanceAs (Decidable (_ ∧ _))

variable {map : SuffixMap} {k : Keywords}

theorem longest_iff_prevails :
    Longest name map.entries (suffix, k) ↔ map.get? suffix = some k ∧ map.Prevails suffix name := by
  constructor
  · intro h
    refine ⟨Dictionary.mem_entries_iff.1 h.mem, h.fits, fun other hother hfits => ?_⟩
    obtain ⟨e, he, rfl⟩ := List.mem_map.1 hother
    exact h.longest e he hfits
  · rintro ⟨hget, hfits, hlongest⟩
    refine ⟨Dictionary.mem_entries_iff.2 hget, hfits, fun e he => ?_⟩
    exact hlongest e.1 (List.mem_map_of_mem he)

theorem keywordsFor_eq_some_iff_prevails :
    map.keywordsFor name = some k ↔
      ∃ suffix, map.get? suffix = some k ∧ map.Prevails suffix name := by
  simp only [keywordsFor_eq_some_iff, longest_iff_prevails]

theorem prevails_insert {added : Text} :
    Prevails (map.insert added k) suffix name ↔
      map.Prevails suffix name ∧ (added <:+ name → added.length ≤ suffix.length) := by
  simp only [Prevails, Dictionary.mem_keys_insert, forall_eq_or_imp]
  rw [and_right_comm, and_assoc]

/-- A suffix that is bound anew takes the names for which it prevails, and no other name. -/
theorem keywordsFor_insert (map : SuffixMap) (name suffix : Text) (k : Keywords) :
    keywordsFor (map.insert suffix k) name =
      if map.Prevails suffix name then some k else map.keywordsFor name := by
  split
  · next h =>
    rw [keywordsFor_eq_some_iff_prevails]
    exact ⟨suffix, by simp, prevails_insert.2 ⟨h, fun _ => Nat.le_refl _⟩⟩
  · next h =>
    apply Option.ext
    intro k'
    rw [keywordsFor_eq_some_iff_prevails, keywordsFor_eq_some_iff_prevails]
    refine exists_congr fun other => ?_
    rw [prevails_insert, Dictionary.get?_insert]
    constructor
    · rintro ⟨hget, hother, -⟩
      have hne : other ≠ suffix := fun e => h (e ▸ hother)
      exact ⟨by rwa [if_neg hne] at hget, hother⟩
    · rintro ⟨hget, hother⟩
      have hne : other ≠ suffix := fun e => h (e ▸ hother)
      refine ⟨by rwa [if_neg hne], hother, fun hfits => Nat.le_of_not_lt fun hlt => h ?_⟩
      -- What prevails is shorter than the new suffix, and so is every other one that fits.
      exact ⟨hfits, fun e he hf => Nat.le_trans (hother.2 e he hf) (Nat.le_of_lt hlt)⟩

/-- **The longest suffix decides.** A name has the keyword set of the longest suffix of the
map that it ends with, and none exactly if it ends with no suffix of the map; the order of the
bindings does not matter; and binding a suffix, new or not, changes the answer at most for the
names that end with it and with no longer suffix of the map. -/
theorem keywordsFor_longest (map : SuffixMap) (name : Text) :
    (∀ k, map.keywordsFor name = some k ↔
      ∃ suffix, map.get? suffix = some k ∧ map.Prevails suffix name) ∧
    (map.keywordsFor name = none ↔ ∀ suffix ∈ map.keys, ¬ suffix <:+ name) ∧
    (∀ reordered : SuffixMap, reordered.entries.Perm map.entries →
      reordered.keywordsFor name = map.keywordsFor name) ∧
    ∀ suffix k, keywordsFor (map.insert suffix k) name =
      if map.Prevails suffix name then some k else map.keywordsFor name := by
  refine ⟨fun k => keywordsFor_eq_some_iff_prevails, ?_, fun _ hp => keywordsFor_perm hp,
    keywordsFor_insert map name⟩
  rw [keywordsFor_eq_none_iff, Dictionary.keys, List.forall_mem_map]

/-- Two suffixes one of which ends with the other. -/
def overlapping : SuffixMap :=
  .ofList [(".kts".toText, .standard), (".gradle.kts".toText, .cfg)]

/-- The longer suffix prevails in either order, and a third one that the name does not end
with changes nothing. -/
theorem keywordsFor_longest_overlapping :
    let reordered : SuffixMap :=
      .ofList [(".gradle.kts".toText, .cfg), (".kts".toText, .standard)]
    reordered.entries.Perm overlapping.entries ∧
      reordered.keywordsFor "build.gradle.kts".toText = some .cfg ∧
      keywordsFor (overlapping.insert ".main.kts".toText .standard) "build.gradle.kts".toText =
        some .cfg := by
  intro reordered
  have hp : reordered.entries.Perm overlapping.entries := by decide
  obtain ⟨hsome, -, hperm, hinsert⟩ := keywordsFor_longest overlapping "build.gradle.kts".toText
  have hcfg : overlapping.keywordsFor "build.gradle.kts".toText = some .cfg :=
    (hsome .cfg).2 ⟨".gradle.kts".toText, by decide⟩
  refine ⟨hp, (hperm reordered hp).trans hcfg, ?_⟩
  rw [hinsert, if_neg (by decide), hcfg]

end Multiversion.SuffixMap
