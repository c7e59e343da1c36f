import Multiversion.Proofs.Disk.Climbing

/-! The same action on two disks.

Two disks may differ in what an action does not look at, and in directories on its way
that it makes if they are missing. Then it ends in the same way on both, and makes the
same changes (`Alike`): what is changed on one disk is changed on the other one, or is
so already. This is said of making directories (`alike_makeDirectories`), of writing
(`alike_write`), and of both together (`alike_install`). -/
namespace Multiversion.Disk
open Multiversion.Path (leads parts steps Descends splitLast dropSlashes)

variable {d d' e e' : Disk} {l m : Location} {path : Text}

/-! ### Patches -/

/-- Nodes that are new or changed. -/
abbrev Patch := Location → Option Node

/-- A disk with nodes that are new or changed. -/
structure Patched (d d' : Disk) (δ : Patch) : Prop where
  working : d'.working = d.working
  node : ∀ k, d'.node? k = (δ k).or (d.node? k)

variable {δ δ' : Patch}

theorem Patched.refl (d : Disk) : Patched d d fun _ => none := ⟨rfl, fun _ => rfl⟩

theorem Patched.trans (h : Patched d d' δ) (h' : Patched d' e δ') :
    Patched d e fun k => (δ' k).or (δ k) where
  working := h'.working.trans h.working
  node k := by rw [h'.node, h.node, Option.or_assoc]

theorem Patched.none_of_none (h : Patched d d' δ) {k : Location} (hk : d'.node? k = none) :
    d.node? k = none := by
  rw [h.node, Option.or_eq_none_iff] at hk
  exact hk.2

/-- A disk with the nodes of another one on the way to a location, and with directories there
where nothing was. -/
structure Grown (d d' : Disk) (l : Location) : Prop where
  working : d'.working = d.working
  node : ∀ k, k <+: l → d'.node? k = d.node? k ∨ d.node? k = none ∧ d'.node? k = some .directory

theorem Grown.of_isPrefix (h : Grown d d' l) (hm : m <+: l) : Grown d d' m :=
  ⟨h.working, fun k hk => h.node k (hk.trans hm)⟩

theorem Grown.patched (h : Grown d d' l) (hp : Patched d e δ) (hp' : Patched d' e' δ) :
    Grown e e' l where
  working := by rw [hp'.working, hp.working, h.working]
  node k hk := by
    rw [hp.node, hp'.node]
    cases δ k with
    | some n => exact .inl rfl
    | none => simpa using h.node k hk

/-- The way to what is there is the same. -/
theorem Grown.same (h : Grown d d' l) (hn : d.node? l ≠ none) {k : Location} (hk : k <+: l) :
    d.node? k = d'.node? k := by
  rcases h.node k hk with e | ⟨e, -⟩
  · exact e.symm
  · exact absurd (node?_below_none e hk) hn

/-- Two disks with the same files and directories. -/
structure Same (d d' : Disk) : Prop where
  working : d'.working = d.working
  node : ∀ k, d'.node? k = d.node? k

theorem Same.refl (d : Disk) : d.Same d := ⟨rfl, fun _ => rfl⟩

theorem Same.trans (h : d.Same d') (h' : d'.Same e) : d.Same e :=
  ⟨h'.working.trans h.working, fun k => (h'.node k).trans (h.node k)⟩

/-! ### Ends -/

/-- The error that an action ends with, if it fails. -/
def errorOf : EStateM.Result Error Disk Unit → Option Error
  | .ok _ _ => none
  | .error e _ => some e

/-- An action ends on two disks in the same way and makes the same changes there, of a kind
that is allowed. -/
structure Alike (d d' : Disk) (allowed : Location → Node → Prop)
    (r r' : EStateM.Result Error Disk Unit) : Prop where
  error : errorOf r' = errorOf r
  patch : ∃ δ, Patched d (leftBy r) δ ∧ Patched d' (leftBy r') δ ∧ ∀ k n, δ k = some n → allowed k n

variable {allowed allowed' : Location → Node → Prop} {r r' : EStateM.Result Error Disk Unit}

theorem Alike.mono (h : Alike d d' allowed r r') (hm : ∀ k n, allowed k n → allowed' k n) :
    Alike d d' allowed' r r' := by
  obtain ⟨he, δ, hp, hp', ha⟩ := h
  exact ⟨he, δ, hp, hp', fun k n hk => hm k n (ha k n hk)⟩

/-- What follows the same changes. -/
theorem Alike.after (hp : Patched d e δ) (hp' : Patched d' e' δ)
    (ha : ∀ k n, δ k = some n → allowed k n) (h : Alike e e' allowed r r') :
    Alike d d' allowed r r' := by
  obtain ⟨he, δ', hq, hq', ha'⟩ := h
  refine ⟨he, _, hp.trans hq, hp'.trans hq', fun k n hk => ?_⟩
  rcases Option.or_eq_some_iff.1 hk with hk | ⟨-, hk⟩
  · exact ha' k n hk
  · exact ha k n hk

/-- The action changes nothing on either disk. -/
theorem Alike.unchanged (he : errorOf r' = errorOf r) (hd : leftBy r = d) (hd' : leftBy r' = d') :
    Alike d d' allowed r r' :=
  ⟨he, fun _ => none, hd ▸ Patched.refl d, hd' ▸ Patched.refl d', nofun⟩

/-- Either the action ends well on both disks, or it fails on both with the same error. -/
theorem Alike.cases (h : Alike d d' allowed r r') :
    ∃ δ, (∀ k n, δ k = some n → allowed k n) ∧ ∃ e e', Patched d e δ ∧ Patched d' e' δ ∧
      (r = .ok () e ∧ r' = .ok () e' ∨ ∃ x, r = .error x e ∧ r' = .error x e') := by
  obtain ⟨he, δ, hp, hp', ha⟩ := h
  refine ⟨δ, ha, leftBy r, leftBy r', hp, hp', ?_⟩
  cases r <;> cases r' <;> cases he
  · exact .inl ⟨rfl, rfl⟩
  · exact .inr ⟨_, rfl, rfl⟩

/-! ### Directories -/

/-- Directories where nothing was, on the way to a location. -/
def Branch (d : Disk) (l k : Location) (n : Node) : Prop :=
  n = .directory ∧ d.node? k = none ∧ k <+: l

theorem Branch.mono {k : Location} {n : Node} (h : Branch d l k n) (hl : l <+: m) :
    Branch d m k n := ⟨h.1, h.2.1, h.2.2.trans hl⟩

/-- A single node. -/
def Patch.single (l : Location) (n : Node) : Patch := fun k => if k = l then some n else none

theorem patched_put (hin : d.node? l.dropLast = some .directory)
    (hfree : d.node? l ≠ some .directory) (n : Node) :
    Patched d (d.put l n) (Patch.single l n) where
  working := working_put d l n
  node k := by
    rw [node?_put_of_free hin hfree, Patch.single]
    split <;> rfl

/-- Making sure of a directory ends alike on two disks that agree on the way to where it is
looked for. -/
theorem alike_ensureDirectory (hd : Descends path) (hg : Grown d d' (d.location path))
    (hs : ∀ k, d.start path <+: k → k <+: d.start path ++ steps (splitLast path).1 →
      d.node? k = d'.node? k) :
    Alike d d' (Branch d (d.location path)) (ensureDirectory path d) (ensureDirectory path d') := by
  have hd' : Descends (dropSlashes path) := by simpa [Descends] using hd
  have hr : d.resolve path (dropSlashes path) = d'.resolve path (dropSlashes path) := by
    refine resolve_congr (Path.dropSlashes_subset path) hd' hg.working.symm fun whole k hk hk' => ?_
    rw [Path.filter_dropLast_names_settle whole] at hk'
    exact hs k hk hk'
  rw [ensureDirectory_eq hd, ensureDirectory_eq hd, ← hr]
  cases hm : d.resolve path (dropSlashes path) with
  | error x => exact .unchanged rfl rfl rfl
  | ok m =>
    obtain ⟨rfl, -, hroot, hin⟩ := of_resolve_dropSlashes hd hm
    obtain ⟨-, -, hroot', hin'⟩ := of_resolve_dropSlashes hd (hr.symm.trans hm)
    have hne (h : d.node? (d.location path) = none) : steps path ≠ [] := fun e => by
      simp [hroot e] at h
    have made (h : d.node? (d.location path) = none) :
        ∀ k n, Patch.single (d.location path) .directory k = some n → Branch d (d.location path) k n := by
      intro k n hk
      simp only [Patch.single, Option.ite_none_right_eq_some, Option.some.injEq] at hk
      obtain ⟨rfl, rfl⟩ := hk
      exact ⟨rfl, h, List.prefix_refl _⟩
    simp only
    rcases hg.node (d.location path) (List.prefix_refl _) with e | ⟨e, e'⟩
    · rw [e]
      cases hn : d.node? (d.location path) with
      | none =>
        exact ⟨rfl, _, patched_put (hin (hne hn)) (by simp [hn]) .directory,
          patched_put (hin' (hne hn)) (by simp [e, hn]) .directory, made hn⟩
      | some n => cases n <;> exact .unchanged rfl rfl rfl
    · -- One disk gets the directory that the other one has.
      rw [e, e']
      refine ⟨rfl, _, patched_put (hin (hne e)) (by simp [e]) .directory, ⟨rfl, fun k => ?_⟩, made e⟩
      simp only [Patch.single, leftBy_ok]
      split
      · next hk => rw [hk, e']; rfl
      · rfl

/-- Where the directory is looked for that is made behind another one. -/
theorem start_append_splitLast (hq : (splitLast path).1 ≠ []) (d : Disk) :
    d.start path ++ steps (splitLast path).1 = d.location (splitLast path).1 := by
  rw [location, start, start, Path.isAbsolute_of_isPrefix (Path.splitLast_isPrefix path) hq]

theorem alike_ensureAfter (hd : Descends path) (hq : (splitLast path).1 ≠ [])
    (hf : Dotted path) (hg : Grown d d' (d.location path)) {n : Nat}
    (h : Alike d d' (Branch d (d.location (splitLast path).1))
      (makeDirectoriesWithin n (splitLast path).1 d) (makeDirectoriesWithin n (splitLast path).1 d')) :
    Alike d d' (Branch d (d.location path))
      (ensureAfter path (makeDirectoriesWithin n (splitLast path).1 d))
      (ensureAfter path (makeDirectoriesWithin n (splitLast path).1 d')) := by
  have hd' := Descends.splitLast hd
  have hl := location_splitLast hq d
  have step {e e' : Disk} (hw : e.node? (e.location (splitLast path).1) ≠ none) {δ : Patch}
      (hp : Patched d e δ) (hp' : Patched d' e' δ)
      (ha : ∀ k n, δ k = some n → Branch d (d.location (splitLast path).1) k n) :
      Alike d d' (Branch d (d.location path)) (ensureDirectory path e) (ensureDirectory path e') := by
    have same := location_congr hp.working
    have hge := hg.patched hp hp'
    rw [← same path] at hge
    have on : (e.location (splitLast path).1) <+: e.location path := location_splitLast hq e
    refine .after hp hp' (fun k n hk => (ha k n hk).mono hl) ?_
    refine (alike_ensureDirectory hd hge fun k _ hk => ?_).mono fun k n hk => ?_
    · rw [start_append_splitLast hq] at hk
      exact (hge.of_isPrefix on).same hw hk
    · exact ⟨hk.1, hp.none_of_none hk.2.1, same path ▸ hk.2.2⟩
  obtain ⟨δ, ha, e, e', hp, hp', ⟨hr, hr'⟩ | ⟨x, hr, hr'⟩⟩ := h.cases <;> rw [hr, hr']
  all_goals
    rcases makeDirectoriesWithin_cases n hd' hf.splitLast d with
      ⟨e₁, h, hdir⟩ | ⟨q, c, e₁, h, -, hn, -⟩ | ⟨x₁, e₁, h, hx⟩ <;> cases hr.symm.trans h
  · refine step ?_ hp hp' ha
    rw [((status?_eq_some_iff hd').1 (isDirectory_iff.1 hdir)).2.1]
    nofun
  · exact step (by rw [hn]; nofun) hp hp' ha
  · rw [ensureAfter_of_error hx, ensureAfter_of_error hx]
    exact ⟨rfl, δ, hp, hp', fun k n hk => (ha k n hk).mono hl⟩

/-- A directory that is in no other one is made alike, if there is where to put it. -/
theorem alike_of_no_parent {n : Nat} (hd : Descends path) (hf : Dotted path)
    (hn : (parts path).length ≤ n) (hg : Grown d d' (d.location path))
    (hs : d.node? (d.start path) = some .directory)
    (hc : ¬ ((splitLast path).1 ≠ [] ∧ (splitLast path).2 ≠ [])) :
    Alike d d' (Branch d (d.location path)) (makeDirectoriesWithin (n + 1) path d)
      (makeDirectoriesWithin (n + 1) path d') := by
  rw [makeDirectoriesWithin_succ hd hf hn, makeDirectoriesWithin_succ hd hf hn, if_neg hc, if_neg hc]
  refine alike_ensureDirectory hd hg fun k _ hk => ?_
  rw [Path.steps_splitLast_eq_nil hc, List.append_nil] at hk
  exact (hg.of_isPrefix (List.prefix_append _ _)).same (by simp [hs]) hk

/-- Making directories ends alike on a disk and on one that has more of them already. -/
theorem alike_makeDirectoriesWithin (n : Nat) (hd : Descends path) (hf : Dotted path)
    (hn : (parts path).length ≤ n) (hg : Grown d d' (d.location path))
    (hs : d.node? (d.start path) = some .directory) :
    Alike d d' (Branch d (d.location path)) (makeDirectoriesWithin (n + 1) path d)
      (makeDirectoriesWithin (n + 1) path d') := by
  induction n generalizing path with
  | zero =>
    refine alike_of_no_parent hd hf hn hg hs fun hc => ?_
    rw [Path.parts_splitLast, List.filter_cons_of_pos (by simpa using hc.2)] at hn
    simp at hn
  | succ n ih =>
    by_cases hc : (splitLast path).1 ≠ [] ∧ (splitLast path).2 ≠ []
    · rw [makeDirectoriesWithin_succ hd hf hn, makeDirectoriesWithin_succ hd hf hn, if_pos hc,
        if_pos hc]
      have hd' := Descends.splitLast hd
      have hn' : (parts (splitLast path).1).length ≤ n := by
        rw [Path.parts_splitLast, List.filter_cons_of_pos (by simpa using hc.2)] at hn
        simpa using hn
      have hg' := hg.of_isPrefix (location_splitLast hc.1 d)
      have hs' : d.node? (d.start (splitLast path).1) = some .directory := by
        rw [start, Path.isAbsolute_of_isPrefix (Path.splitLast_isPrefix path) hc.1]
        exact hs
      exact alike_ensureAfter hd hc.1 hf hg (ih hd' hf.splitLast hn' hg' hs')
    · exact alike_of_no_parent hd hf hn hg hs hc

theorem alike_makeDirectories (hd : Descends path) (hf : Dotted path)
    (hn : (parts path).length < levelLimit) (hg : Grown d d' (d.location path))
    (hs : d.node? (d.start path) = some .directory) :
    Alike d d' (Branch d (d.location path)) (makeDirectories path d) (makeDirectories path d') :=
  alike_makeDirectoriesWithin (levelLimit - 1) hd hf (Nat.le_sub_one_of_lt hn) hg hs

/-! ### Looking -/

/-- What is the same all the way to a location leads there alike. -/
theorem resolve_congr_of_way {part : Text} (hsub : part ⊆ path) (hsteps : steps part = steps path)
    (hd : Descends part) (hw : d.working = d'.working)
    (h : ∀ k, k <+: d.location path → d.node? k = d'.node? k) :
    d.resolve path part = d'.resolve path part := by
  refine resolve_congr hsub hd hw fun whole k _ hk => h k (hk.trans ?_)
  rw [location, ← hsteps, ← Path.filter_names_settle (whole.of_subset hsub)]
  exact (List.prefix_append_right_inj _).2 ((List.dropLast_prefix _).filter leads)

/-- What is there is found alike where it is the same. -/
theorem resolve_congr_of_node (hd : Descends path) (hw : d.working = d'.working)
    (hn : d.node? (d.location path) ≠ none)
    (h : d.node? (d.location path) = d'.node? (d.location path)) :
    d.resolve path path = d'.resolve path path := by
  refine resolve_congr_of_way (List.Subset.refl path) rfl hd hw fun k hk => ?_
  obtain ⟨n, hn⟩ := Option.ne_none_iff_exists'.1 hn
  by_cases e : k = d.location path
  · rw [e, h]
  · rw [node?_of_isPrefix hn hk e, node?_of_isPrefix (h ▸ hn) hk e]

theorem read_congr_of_resolve (hd : Descends path) (hr : d.resolve path path = d'.resolve path path)
    (h : d.node? (d.location path) = d'.node? (d.location path)) : d.read path = d'.read path := by
  rw [read_eq, read_eq, ← hr]
  cases hm : d.resolve path path with
  | error e => rfl
  | ok m =>
    obtain rfl := location_of_resolve hd hm
    simp only [h]

theorem isSamePlace_congr {path' : Text} (hd : Descends path)
    (hr : d.resolve path path = d'.resolve path path)
    (hr' : d.resolve path' path' = d'.resolve path' path')
    (h : d.node? (d.location path) = d'.node? (d.location path)) :
    d.isSamePlace path path' = d'.isSamePlace path path' := by
  rw [isSamePlace_eq, isSamePlace_eq, ← hr, ← hr']
  cases hm : d.resolve path path with
  | error e => rfl
  | ok m =>
    obtain rfl := location_of_resolve hd hm
    cases d.resolve path' path' with
    | error e => rfl
    | ok m' => simp only [h]

/-! ### Files -/

/-- A node where no directory was, at a location or below it. -/
def Leaf (d : Disk) (l k : Location) : Prop := l <+: k ∧ d.node? k ≠ some .directory

theorem alike_write (hd : Descends path)
    (hr : d.resolve path (dropSlashes path) = d'.resolve path (dropSlashes path))
    (h : d.node? (d.location path) = d'.node? (d.location path)) (content : ByteArray) :
    Alike d d' (fun k _ => Leaf d (d.location path) k) (write path content d)
      (write path content d') := by
  rw [write_eq, write_eq, ← hr]
  cases hm : d.resolve path (dropSlashes path) with
  | error x => exact .unchanged rfl rfl rfl
  | ok m =>
    obtain ⟨rfl, -, hroot, hin⟩ := of_resolve_dropSlashes hd hm
    obtain ⟨-, -, -, hin'⟩ := of_resolve_dropSlashes hd (hr.symm.trans hm)
    simp only [← h]
    split
    · exact .unchanged rfl rfl rfl
    · next hc =>
      have hfree := (not_or.1 hc).1
      have hne : steps path ≠ [] := fun e => hfree (hroot e)
      refine ⟨rfl, _, patched_put (hin hne) hfree (.file content),
        patched_put (hin' hne) (h ▸ hfree) (.file content), fun k n hk => ?_⟩
      simp only [Patch.single, Option.ite_none_right_eq_some] at hk
      exact ⟨hk.1 ▸ List.prefix_refl _, hk.1 ▸ hfree⟩

/-- Two disks that are the same from the location of a path on and on the way to it, with the
directory there that it is in. -/
structure Poised (d d' : Disk) (path : Text) : Prop where
  working : d.working = d'.working
  way : ∀ k, k <+: d.location (Path.parent path) → d.node? k = d'.node? k
  below : ∀ k, d.location path <+: k → d.node? k = d'.node? k

theorem Poised.resolve (h : Poised d d' path) (hd : Descends path) (hp : Path.parent path ≠ [])
    (hb : leads (FileName.settle (Path.base path)) = true) :
    d.resolve path path = d'.resolve path path := by
  have hbase := Path.base_ne_nil hb
  refine resolve_congr (List.Subset.refl path) hd h.working fun whole k _ hk => h.way k ?_
  have names := Path.filter_dropLast_names_settle whole
  rw [Path.dropSlashes_of_base_ne_nil hbase] at names
  rw [names] at hk
  have hfst : (splitLast path).1 = Path.parent path := by simp [splitLast, hbase]
  rwa [← hfst, ← start_append_splitLast (hfst ▸ hp)]

theorem descends_join_base {source target : Text} (hd : Descends target) (ht : target ≠ [])
    (hs : Descends source) : Descends (Path.join target (Path.base source)) := by
  intro hm
  rw [Path.parts_join ht (Path.isAbsolute_base source), Path.parts_of_notMem (Path.slash_notMem_base source)] at hm
  rcases List.mem_append.1 hm with hm | hm
  · exact hd hm
  · exact hs (by rw [Path.parts_parent]; exact List.mem_append_right _ hm)

/-- A path that leads to a location or below it, and is looked up alike. -/
structure Reached (d d' : Disk) (target file : Text) : Prop where
  descends : Descends file
  below : d.location target <+: d.location file
  resolve : d.resolve file file = d'.resolve file file
  place : d.resolve file (dropSlashes file) = d'.resolve file (dropSlashes file)

/-- A copy that goes where it is told to. -/
theorem Poised.reached {target : Text} (h : Poised d d' target) (ht : Descends target)
    (hp : Path.parent target ≠ []) (hb : leads (FileName.settle (Path.base target)) = true) :
    Reached d d' target target := by
  have hr := h.resolve ht hp hb
  exact ⟨ht, List.prefix_refl _, hr,
    by rw [Path.dropSlashes_of_base_ne_nil (Path.base_ne_nil hb), hr]⟩

/-- A copy that goes into the directory that is there. -/
theorem Poised.reached_join {source target : Text} (h : Poised d d' target) (hs : Descends source)
    (ht : Descends target) (hne : target ≠ []) (hd : d.isDirectory target = true) :
    Reached d d' target (Path.join target (Path.base source)) := by
  obtain ⟨-, hdn, -⟩ := (status?_eq_some_iff ht).1 (isDirectory_iff.1 hd)
  have hdesc := descends_join_base ht hne hs
  have hrel := Path.isAbsolute_base source
  have hloc : d.location target <+: d.location (Path.join target (Path.base source)) := by
    rw [location, location, Path.steps_join hne hrel, start, start,
      ← Path.isAbsolute_of_isPrefix (Path.isPrefix_join hrel) hne, ← List.append_assoc]
    exact List.prefix_append _ _
  have here := h.below _ (List.prefix_refl _)
  have way : ∀ k, k <+: d.location (Path.join target (Path.base source)) →
      d.node? k = d'.node? k := by
    intro k hk
    rcases List.prefix_or_prefix_of_prefix hk hloc with hk' | hk'
    · by_cases e : k = d.location target
      · rw [e, here]
      · rw [node?_of_isPrefix hdn hk' e, node?_of_isPrefix (here ▸ hdn) hk' e]
    · exact h.below k hk'
  exact ⟨hdesc, hloc, resolve_congr_of_way (List.Subset.refl _) rfl hdesc h.working way,
    resolve_congr_of_way (Path.dropSlashes_subset _) (by simp [steps])
      (by simpa [Descends] using hdesc) h.working way⟩

/-- Copying ends alike on two disks that are the same at the source and where the copy goes. -/
theorem alike_copy {source target : Text} (h : Poised d d' target) (hs : Descends source)
    (ht : Descends target) (hp : Path.parent target ≠ [])
    (hb : leads (FileName.settle (Path.base target)) = true)
    (hn : d.node? (d.location source) ≠ none)
    (hsame : d.node? (d.location source) = d'.node? (d.location source)) :
    Alike d d' (fun k _ => Leaf d (d.location target) k) (copy source target d)
      (copy source target d') := by
  have hne : target ≠ [] := fun e => hp (by rw [e]; rfl)
  have hdir : d.isDirectory target = d'.isDirectory target := by
    rw [isDirectory, isDirectory, status?_congr ht h.working (h.below _ (List.prefix_refl _))]
  have hsource := resolve_congr_of_node hs h.working hn hsame
  have goes : Reached d d' target
      (if d.isDirectory target then Path.join target (Path.base source) else target) := by
    split
    · next hd => exact h.reached_join hs ht hne hd
    · exact h.reached ht hp hb
  rw [copy_eq, copy_eq, ← hdir]
  generalize (if d.isDirectory target then Path.join target (Path.base source) else target) = file
    at goes ⊢
  simp only
  rw [← isSamePlace_congr hs hsource goes.resolve hsame, ← read_congr_of_resolve hs hsource hsame]
  split
  · exact .unchanged rfl rfl rfl
  · cases d.read source with
    | error x => exact .unchanged rfl rfl rfl
    | ok content =>
      exact (alike_write goes.descends goes.place (h.below _ goes.below) content).mono
        fun k n hk => ⟨goes.below.trans hk.1, hk.2⟩

/-! ### Files with their directories -/

/-- The changes that are made for a file at a location: directories on the way, and a node from
there on. -/
def Change (d : Disk) (l k : Location) (n : Node) : Prop := Branch d l.dropLast k n ∨ Leaf d l k

/-- Two disks that making the directories of a path cannot tell apart. -/
structure Approached (d d' : Disk) (path : Text) : Prop where
  grown : Grown d d' (d.location (Path.parent path))
  below : ∀ k, d.location path <+: k → d.node? k = d'.node? k
  start : d.node? (d.start path) = some .directory

/-- What ends alike where the directories are there ends alike where they are made first. -/
theorem alike_behind (h : Approached d d' path) (hd : Descends path) (hp : Path.parent path ≠ [])
    (hb : leads (FileName.settle (Path.base path)) = true) (hf : Dotted (Path.parent path))
    (hn : (parts (Path.parent path)).length < levelLimit) {f : Action Unit}
    (hnext : ∀ e e' δ, Poised e e' path → Patched d e δ → Patched d' e' δ →
      (∀ k n, δ k = some n → Branch d (d.location (Path.parent path)) k n) →
      Alike e e' (fun k _ => Leaf e (e.location path) k) (f e) (f e')) :
    Alike d d' (Change d (d.location path))
      (match makeDirectories (Path.parent path) d with
        | .ok _ e => f e
        | .error x e => .error x e)
      (match makeDirectories (Path.parent path) d' with
        | .ok _ e => f e
        | .error x e => .error x e) := by
  have hd' := Descends.parent hd
  have hdrop : (d.location path).dropLast = d.location (Path.parent path) := by
    rw [location_parent hp hb, List.dropLast_concat]
  have hstart : d.node? (d.start (Path.parent path)) = some .directory := by
    rw [start, Path.isAbsolute_of_isPrefix (Path.parent_isPrefix path) hp]
    exact h.start
  have hbranch {k : Location} {n : Node} (hk : Branch d (d.location (Path.parent path)) k n) :
      Change d (d.location path) k n := .inl (hdrop.symm ▸ hk)
  obtain ⟨δ, ha, e, e', hp₁, hp₁', ⟨hr, hr'⟩ | ⟨x, hr, hr'⟩⟩ :=
    (alike_makeDirectories hd' hf hn h.grown hstart).cases <;> rw [hr, hr']
  · have hdir := isDirectory_of_makeDirectories hd' hf hr
    have there : e.node? (e.location (Path.parent path)) = some .directory :=
      ((status?_eq_some_iff hd').1 (isDirectory_iff.1 hdir)).2.1
    have same := location_congr hp₁.working
    have grown := h.grown.patched hp₁ hp₁'
    rw [← same] at grown
    have poised : Poised e e' path := by
      refine ⟨grown.working.symm, fun k hk => grown.same (by simp [there]) hk, fun k hk => ?_⟩
      rw [hp₁.node, hp₁'.node, h.below k (same path ▸ hk)]
    refine .after hp₁ hp₁' (fun k n hk => hbranch (ha k n hk)) ?_
    refine (hnext e e' δ poised hp₁ hp₁' ha).mono ?_
    rintro k n ⟨hk, hfree⟩
    refine .inr ⟨same path ▸ hk, ?_⟩
    -- What is a directory stays one.
    intro hdk
    rw [hp₁.node, hdk] at hfree
    cases hδ : δ k with
    | none => exact hfree (by rw [hδ]; rfl)
    | some n' =>
      have := (ha k n' hδ).2.1
      rw [hdk] at this
      cases this
  · exact ⟨rfl, δ, hp₁, hp₁', fun k n hk => hbranch (ha k n hk)⟩

/-- Installing a file ends alike on two disks that are the same where it goes. -/
theorem alike_install (h : Approached d d' path) (hd : Descends path) (hp : Path.parent path ≠ [])
    (hb : leads (FileName.settle (Path.base path)) = true) (hf : Dotted (Path.parent path))
    (hn : (parts (Path.parent path)).length < levelLimit) (content : ByteArray) :
    Alike d d' (Change d (d.location path)) (install path content d) (install path content d') := by
  rw [install_eq hp, install_eq hp]
  refine alike_behind h hd hp hb hf hn fun e e' δ poised _ _ _ => ?_
  refine alike_write hd ?_ (poised.below _ (List.prefix_refl _)) content
  rw [Path.dropSlashes_of_base_ne_nil (Path.base_ne_nil hb)]
  exact poised.resolve hd hp hb

end Multiversion.Disk
