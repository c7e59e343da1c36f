import Multiversion.Proofs.Disk.Listing
import Multiversion.Proofs.Disk.Removal
import Multiversion.Proofs.Disk.Writing

/-! What operations leave alone.

Whatever an operation does to the disk, it does at or below the location it is given; the
only thing that can be new elsewhere is a directory on the way there. `Confined` says so for
some locations, the roots, and one lemma for each operation says that it is confined to any
root that is at or above its path, whether it succeeds or fails, and whatever is there
before. Removing also leaves a tree that a disk can hold (`sound_removeTree`). -/
namespace Multiversion

/-! ### Trees that a disk can hold -/

namespace Tree

theorem soundAll_put {name : Text} {t : Tree} (hv : FileName.Valid name) (ht : t.Sound) :
    ∀ {children : List (Text × Tree)}, SoundAll children →
      SoundAll (Dictionary.put name t children)
  | [], _ => ⟨hv, ht, trivial⟩
  | (name', t') :: rest, ⟨hv', ht', hrest⟩ => by
    rw [Dictionary.put]
    split
    · exact ⟨hv', ht, hrest⟩
    · exact ⟨hv', ht', soundAll_put hv ht hrest⟩

theorem soundAll_filter (keep : Text × Tree → Bool) :
    ∀ {children : List (Text × Tree)}, SoundAll children → SoundAll (children.filter keep)
  | [], _ => trivial
  | (name, t) :: rest, ⟨hv, ht, hrest⟩ => by
    rw [List.filter_cons]
    split
    · exact ⟨hv, ht, soundAll_filter keep hrest⟩
    · exact soundAll_filter keep hrest

theorem sound_put {l : Location} {t new : Tree} (ht : t.Sound) (hnew : new.Sound)
    (hl : ∀ name ∈ l, FileName.Valid name) : (t.put l new).Sound := by
  induction l generalizing t with
  | nil => exact hnew
  | cons name rest ih =>
    obtain ⟨hv, hrest⟩ := List.forall_mem_cons.1 hl
    cases t with
    | file _ => trivial
    | directory children =>
      obtain ⟨hd, hs⟩ := ht
      simp only [put]
      cases hc : Dictionary.find? name children with
      | some c =>
        have hput := ih (find?_of_soundAll hs hc).2 hrest
        exact ⟨Dictionary.nodup_put _ _ hd, soundAll_put hv hput hs⟩
      | none =>
        simp only
        split
        · exact ⟨Dictionary.nodup_put _ _ hd, soundAll_put hv hnew hs⟩
        · exact ⟨hd, hs⟩

theorem sound_erase {t : Tree} (ht : t.Sound) (l : Location) : (t.erase l).Sound := by
  induction l generalizing t with
  | nil => exact ht
  | cons name rest ih =>
    cases t with
    | file _ => cases rest <;> trivial
    | directory children =>
      obtain ⟨hd, hs⟩ := ht
      cases rest with
      | nil => exact ⟨hd.sublist (List.filter_sublist.map _), soundAll_filter _ hs⟩
      | cons next more =>
        simp only [erase]
        cases hc : Dictionary.find? name children with
        | none => exact ⟨hd, hs⟩
        | some c =>
          obtain ⟨hv, hc'⟩ := find?_of_soundAll hs hc
          exact ⟨Dictionary.nodup_put _ _ hd, soundAll_put hv (ih hc') hs⟩

end Tree

namespace Disk
open Multiversion.Path (leads steps Descends)

variable {d d' d'' : Disk} {path : Text} {roots : List Location} {root : Location}

theorem sound_withTree {t : Tree} (hs : d.Sound) (ht : t.Sound) : (d.withTree t).Sound := by
  cases t with
  | file _ => exact hs
  | directory _ => exact ht

/-- A directory that is removed, or only emptied, leaves a tree that a disk can hold. -/
theorem sound_removeTree (hs : d.Sound) (hd : Descends path) (hdir : d.isDirectory path = true) :
    (leftBy (removeTree path d)).Sound := by
  have hclear : (d.clear (d.location path)).Sound := by
    obtain ⟨-, hn, -⟩ := (status?_eq_some_iff hd).1 (isDirectory_iff.1 hdir)
    rw [node?_eq, Option.map_eq_some_iff] at hn
    obtain ⟨t, ht, -⟩ := hn
    exact sound_withTree hs (Tree.sound_put hs ⟨List.nodup_nil, trivial⟩ (Tree.sound_of_at? hs ht).2)
  obtain ⟨e, h⟩ | ⟨e, h⟩ | ⟨-, h⟩ := removeTree_cases hd d
  · rwa [h]
  · rwa [h]
  · rw [h]
    exact sound_withTree hclear (Tree.sound_erase hclear _)

/-! ### Confinement -/

/-- A disk on which nothing has changed that is not at or below a root, but for directories
on the way to a root where nothing was. -/
structure Confined (roots : List Location) (d d' : Disk) : Prop where
  working : d'.working = d.working
  node : ∀ k, (∀ root ∈ roots, ¬ root <+: k) →
    d'.node? k = d.node? k ∨
      d.node? k = none ∧ d'.node? k = some .directory ∧ ∃ root ∈ roots, k <+: root

theorem Confined.refl (roots : List Location) (d : Disk) : Confined roots d d :=
  ⟨rfl, fun _ _ => .inl rfl⟩

theorem Confined.trans (h : Confined roots d d') (h' : Confined roots d' d'') :
    Confined roots d d'' where
  working := h'.working.trans h.working
  node k hk := by
    rcases h.node k hk with e | ⟨e, e', hroot⟩
    · simpa [e] using h'.node k hk
    · rcases h'.node k hk with e'' | ⟨e'', -⟩
      · exact .inr ⟨e, e''.trans e', hroot⟩
      · rw [e'] at e''
        contradiction

/-- An action behind another one is confined if both are, also when the first one fails. -/
theorem Confined.bind {first : Action Unit} {next : Unit → Action Unit}
    (h : Confined roots d (leftBy (first d)))
    (hnext : ∀ d', Confined roots d d' → Confined roots d' (leftBy (next () d'))) :
    Confined roots d (leftBy ((first >>= next) d)) := by
  simp only [Bind.bind, EStateM.bind]
  cases hf : first d with
  | error e d' =>
    rw [hf] at h
    exact h
  | ok u d' =>
    rw [hf] at h
    exact Confined.trans h (hnext d' h)

/-- Directories on the way to a location are at or below a root, or on the way to it. -/
theorem Branched.confined {l : Location} (h : Branched d d' l) (hr : root ∈ roots)
    (hm : root.Meets l) : Confined roots d d' where
  working := h.working
  node k hk := by
    refine (h.node k).imp_right fun ⟨e, e', hkl⟩ => ⟨e, e', root, hr, ?_⟩
    rcases hm with hm | hm
    · exact (List.prefix_or_prefix_of_prefix hkl hm).resolve_right (hk root hr)
    · exact hkl.trans hm

theorem Written.confined {l : Location} {content : ByteArray} (h : Written d d' l content)
    (hr : root ∈ roots) (hl : root <+: l) : Confined roots d d' where
  working := h.working
  node k hk := by
    have hne : k ≠ l := by
      rintro rfl
      exact hk root hr hl
    exact .inl (by rw [h.node, if_neg hne])

theorem confined_makeDirectories (hd : Descends path) (hr : root ∈ roots)
    (hm : root.Meets (d.location path)) : Confined roots d (leftBy (makeDirectories path d)) :=
  (branched_makeDirectories hd d).confined hr hm

theorem confined_write (hd : Descends path) (hr : root ∈ roots) (hl : root <+: d.location path)
    (content : ByteArray) : Confined roots d (leftBy (write path content d)) := by
  obtain ⟨e, h⟩ | ⟨d', h, -, -, hw⟩ := write_cases hd content d
  · rw [h]
    exact .refl roots d
  · rw [h]
    exact hw.confined hr hl

/-- What is written behind the directories that it needs is confined if writing it is. -/
theorem confined_behind_parent (hd : Descends path) (hp : Path.parent path ≠ [])
    (hb : leads (FileName.settle (Path.base path)) = true) (hr : root ∈ roots)
    (hl : root <+: d.location path) {next : Unit → Action Unit}
    (hnext : ∀ d' : Disk, root <+: d'.location path → Confined roots d' (leftBy (next () d'))) :
    Confined roots d (leftBy ((makeDirectories (Path.parent path) >>= next) d)) := by
  refine Confined.bind ?_ fun d' h => hnext d' (by rwa [location_congr h.working])
  refine confined_makeDirectories (Descends.parent hd) hr ?_
  rw [location_parent hp hb] at hl
  exact List.prefix_or_prefix_of_prefix hl (List.prefix_append _ _)

theorem confined_install (hd : Descends path) (hp : Path.parent path ≠ [])
    (hb : leads (FileName.settle (Path.base path)) = true) (hr : root ∈ roots)
    (hl : root <+: d.location path) (content : ByteArray) :
    Confined roots d (leftBy (install path content d)) := by
  simp only [install, hp, ne_eq, not_false_eq_true, if_true]
  exact confined_behind_parent hd hp hb hr hl fun d' hl' => confined_write hd hr hl' content

/-- A file is copied to its target, or into the directory that is there. -/
theorem confined_copy {source target : Text} (hp : Plain target)
    (hv : FileName.Valid (Path.base source)) (hr : root ∈ roots)
    (hl : root <+: d.location target) : Confined roots d (leftBy (copy source target d)) := by
  have hv' : ∀ name ∈ [Path.base source], FileName.Valid name := by simpa using hv
  have hbelow : Path.join target (Path.base source) = pathBelow target [Path.base source] := by
    simp [pathBelow, Text.join]
  rw [copy_eq]
  generalize hpath : (if d.isDirectory target then Path.join target (Path.base source) else target)
    = path
  have hpath' : Descends path ∧ root <+: d.location path := by
    subst hpath
    split
    · rw [hbelow, location_pathBelow hp.1 hv']
      exact ⟨(plain_pathBelow hp hv').2, hl.trans (List.prefix_append _ _)⟩
    · exact ⟨hp.2, hl⟩
  simp only
  split
  · exact .refl roots d
  · cases d.read source with
    | error e => exact .refl roots d
    | ok content => exact confined_write hpath'.1 hr hpath'.2 content

/-- Removing a directory changes nothing that is not at or below it. -/
theorem confined_removeTree (hd : Descends path) (hdir : d.isDirectory path = true)
    (hr : d.location path ∈ roots) : Confined roots d (leftBy (removeTree path d)) := by
  obtain ⟨-, hn, -⟩ := (status?_eq_some_iff hd).1 (isDirectory_iff.1 hdir)
  have hclear : Confined roots d (d.clear (d.location path)) :=
    ⟨working_clear d _, fun k hk => .inl (by simp [node?_clear hn, hk _ hr])⟩
  obtain ⟨e, h⟩ | ⟨e, h⟩ | ⟨hne, h⟩ := removeTree_cases hd d
  · rw [h]
    exact .refl roots d
  · rw [h]
    exact hclear
  · rw [h]
    exact hclear.trans
      ⟨working_withTree _ _, fun k hk => .inl (by rw [leftBy_ok, node?_erase hne, if_neg (hk _ hr)])⟩

end Disk

end Multiversion
