import Multiversion.Proofs.Disk.Resolve

/-! What removing a directory leaves behind.

A directory is removed with all that is below it, and what is neither above nor below
it stays as it was, the trees and not only their nodes (`removed_of_removeTree`). -/
namespace Multiversion

/-- One of two locations is above the other one, or they are the same. -/
def Location.Meets (l m : Location) : Prop := l <+: m ∨ m <+: l

instance (l m : Location) : Decidable (l.Meets m) := inferInstanceAs (Decidable (_ ∨ _))

theorem Location.Meets.symm {l m : Location} (h : l.Meets m) : m.Meets l := Or.symm h

/-- Locations below ones that do not meet do not meet. -/
theorem Location.not_meets_append {l m : Location} (h : ¬ l.Meets m) (rest rest' : List Text) :
    ¬ Location.Meets (l ++ rest) (m ++ rest') := by
  rintro (hp | hp)
  · exact h (List.prefix_or_prefix_of_prefix ((List.prefix_append _ _).trans hp)
      (List.prefix_append _ _))
  · exact h (List.prefix_or_prefix_of_prefix (List.prefix_append _ _)
      ((List.prefix_append _ _).trans hp))

namespace Tree

theorem at?_put_of_not_meets {l m : Location} (h : ¬ l.Meets m) (t new : Tree) :
    (t.put l new).at? m = t.at? m := by
  induction l generalizing t m with
  | nil => exact absurd (.inl (List.nil_prefix)) h
  | cons name rest ih =>
    cases m with
    | nil => exact absurd (.inr (List.nil_prefix)) h
    | cons name' rest' =>
      cases t with
      | file _ => simp [put]
      | directory children =>
        by_cases e : name' = name
        · subst e
          have h' : ¬ Location.Meets rest rest' := fun hm => h (by simpa [Location.Meets] using hm)
          cases hc : Dictionary.find? name' children with
          | none =>
            have hr : rest ≠ [] := fun e => h' (.inl (e ▸ List.nil_prefix))
            simp [put, hc, hr, at?, child?]
          | some c => simp [put, hc, at?, child?, Dictionary.find?_put, ih h' c]
        · cases hc : Dictionary.find? name children with
          | none =>
            by_cases hr : rest = [] <;> simp [put, hc, hr, at?, child?, Dictionary.find?_put, e]
          | some c => simp [put, hc, at?, child?, Dictionary.find?_put, e]

theorem at?_erase_of_not_meets {l m : Location} (h : ¬ l.Meets m) (t : Tree) :
    (t.erase l).at? m = t.at? m := by
  induction l generalizing t m with
  | nil => rfl
  | cons name rest ih =>
    cases m with
    | nil => exact absurd (.inr (List.nil_prefix)) h
    | cons name' rest' =>
      cases t with
      | file _ => cases rest <;> simp [erase]
      | directory children =>
        cases rest with
        | nil =>
          have e : name' ≠ name := by
            rintro rfl
            exact h (.inl (by simp))
          have found := Dictionary.find?_filter (fun n => decide (n ≠ name)) name' children
          simp only [erase, at?, child?]
          simp_all
        | cons next more =>
          cases hc : Dictionary.find? name children with
          | none => simp [erase, hc]
          | some c =>
            by_cases e : name' = name
            · subst e
              have h' : ¬ Location.Meets (next :: more) rest' :=
                fun hm => h (by simpa [Location.Meets] using hm)
              simp [erase, hc, at?, child?, Dictionary.find?_put, ih h' c]
            · simp [erase, hc, at?, child?, Dictionary.find?_put, e]

end Tree

namespace Disk
open Multiversion.Path (steps Descends)

variable {d d' : Disk} {l : Location} {path : Text}

/-- A disk without what was at or below a location. -/
structure Removed (d d' : Disk) (l : Location) : Prop where
  working : d'.working = d.working
  node : ∀ k, d'.node? k = if l <+: k then none else d.node? k
  at? : ∀ k, ¬ l.Meets k → d'.tree.at? k = d.tree.at? k

theorem tree_withTree {t : Tree} (h : t.node = .directory) (d : Disk) : (d.withTree t).tree = t := by
  cases t with
  | file _ => contradiction
  | directory _ => rfl

theorem tree_put (hl : l ≠ []) (d : Disk) (n : Node) :
    (d.put l n).tree = d.tree.put l (.ofNode n) := by
  obtain ⟨name, rest, rfl⟩ := List.exists_cons_of_ne_nil hl
  refine tree_withTree ?_ d
  simp only [tree, Tree.put]
  split
  · rfl
  · split <;> rfl

theorem tree_erase (hl : l ≠ []) (d : Disk) : (d.erase l).tree = d.tree.erase l := by
  obtain ⟨name, rest, rfl⟩ := List.exists_cons_of_ne_nil hl
  refine tree_withTree ?_ d
  cases rest with
  | nil => rfl
  | cons next more =>
    simp only [tree, Tree.erase]
    split <;> rfl

theorem working_withTree (d : Disk) (t : Tree) : (d.withTree t).working = d.working := by
  cases t <;> rfl

theorem working_clear (d : Disk) (l : Location) : (d.clear l).working = d.working :=
  working_withTree d _

theorem removeTree_eq (path : Text) (d : Disk) :
    removeTree path d = match d.resolve path path with
      | .error e => .error e d
      | .ok l =>
        let emptied := d.clear l
        match emptied.resolve path (Path.dropSlashes path) with
        | .error e => .error e emptied
        | .ok l' =>
          let last := Path.base (Path.dropSlashes path)
          if last = Path.here then .error (.obstacle .invalid path) emptied
          else if last = Path.up ∨ l' = [] then .error (.obstacle .notEmpty path) emptied
          else .ok () (emptied.erase l') := by
  unfold resolve
  simp only [removeTree, bind, EStateM.bind, get, getThe, MonadStateOf.get, get_eq, locate]
  cases place path (d.locatePart path path) with
  | error e => rfl
  | ok p =>
    simp only [EStateM.bind, set, MonadStateOf.set, set_eq, locateNew, Except.map]
    cases place path ((d.clear p.location).locatePart path (Path.dropSlashes path)) with
    | error e => rfl
    | ok p' =>
      simp only [Place.location, List.reverse_eq_nil_iff]
      split
      · rfl
      · split <;> rfl

/-- Removing a directory comes to nothing, or empties it, or it is gone as well. -/
theorem removeTree_cases (hd : Descends path) (d : Disk) :
    (∃ e, removeTree path d = .error e d) ∨
      (∃ e, removeTree path d = .error e (d.clear (d.location path))) ∨
      d.location path ≠ [] ∧
        removeTree path d = .ok () ((d.clear (d.location path)).erase (d.location path)) := by
  rw [removeTree_eq]
  cases hl : d.resolve path path with
  | error e => exact .inl ⟨e, rfl⟩
  | ok l =>
    obtain rfl := location_of_resolve hd hl
    refine .inr ?_
    cases hl' : (d.clear (d.location path)).resolve path (Path.dropSlashes path) with
    | error e => exact .inl ⟨e, by simp [hl']⟩
    | ok l' =>
      have same : l' = d.location path := by
        rw [(of_resolve_dropSlashes hd hl').1, location, start, working_clear]
        rfl
      subst same
      simp only [hl']
      split
      · exact .inl ⟨_, rfl⟩
      split
      · exact .inl ⟨_, rfl⟩
      next hroot => exact .inr ⟨fun e => hroot (.inr e), rfl⟩

/-- A directory that is removed is gone with what it held, and nothing else changes. -/
theorem removed_of_removeTree (hd : Descends path) (hdir : d.isDirectory path = true)
    (h : removeTree path d = .ok () d') : Removed d d' (d.location path) := by
  obtain ⟨-, hn, -⟩ := (status?_eq_some_iff hd).1 (isDirectory_iff.1 hdir)
  obtain ⟨e, he⟩ | ⟨e, he⟩ | ⟨hne, he⟩ := removeTree_cases hd d
  · rw [h] at he
    cases he
  · rw [h] at he
    cases he
  · rw [h] at he
    cases he
    refine ⟨(working_withTree _ _).trans (working_clear d _), fun k => ?_, fun k hk => ?_⟩
    · rw [node?_erase hne, node?_clear hn]
      split
      · rfl
      · next hk => simp [hk]
    · rw [tree_erase hne, Tree.at?_erase_of_not_meets hk, clear, tree_put hne,
        Tree.at?_put_of_not_meets hk]

end Disk

end Multiversion
