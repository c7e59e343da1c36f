import Multiversion.Proofs.Disk.Resolve

/-! What writing leaves behind.

Making directories adds directories where nothing was, on the way to the one that is
made and nowhere else, also when it fails half-way (`branched_makeDirectories`).
Writing a file puts it at the location of its path (`written_of_write`), and what
fails to be written leaves the disk as it was. -/
namespace Multiversion.Disk
open Multiversion.Path (leads steps Descends)

variable {d d' d'' : Disk} {l : Location} {path : Text}

/-- Writes a file, making the directories it needs. -/
def install (path : Text) (content : ByteArray) : Action Unit := do
  if Path.parent path ≠ [] then makeDirectories (Path.parent path)
  write path content

/-- The disk that an action leaves behind, whether it fails or not. -/
def leftBy {α : Type} : EStateM.Result Error Disk α → Disk
  | .ok _ d | .error _ d => d

@[simp] theorem leftBy_ok {α : Type} (a : α) (d : Disk) : leftBy (.ok a d) = d := rfl

@[simp] theorem leftBy_error {α : Type} (e : Error) (d : Disk) :
    leftBy (α := α) (.error e d) = d := rfl

/-- A disk with directories where nothing was, on the way to a location. -/
structure Branched (d d' : Disk) (l : Location) : Prop where
  working : d'.working = d.working
  node : ∀ k, d'.node? k = d.node? k ∨
    d.node? k = none ∧ d'.node? k = some .directory ∧ k <+: l

/-- A disk with a file at a location where there was none or another one. -/
structure Written (d d' : Disk) (l : Location) (content : ByteArray) : Prop where
  working : d'.working = d.working
  free : d.node? l ≠ some .directory
  node : ∀ k, d'.node? k = if k = l then some (.file content) else d.node? k

theorem Branched.refl (d : Disk) (l : Location) : Branched d d l := ⟨rfl, fun _ => .inl rfl⟩

theorem Branched.trans (h : Branched d d' l) (h' : Branched d' d'' l) : Branched d d'' l where
  working := h'.working.trans h.working
  node k := by
    rcases h.node k with e | ⟨e, e', hk⟩
    · simpa [e] using h'.node k
    · rcases h'.node k with e'' | ⟨e'', -⟩
      · exact .inr ⟨e, e''.trans e', hk⟩
      · rw [e'] at e''
        contradiction

theorem Branched.mono {m : Location} (h : Branched d d' l) (hm : l <+: m) : Branched d d' m where
  working := h.working
  node k := (h.node k).imp_right fun ⟨e, e', hk⟩ => ⟨e, e', hk.trans hm⟩

@[simp] theorem working_put (d : Disk) (l : Location) (n : Node) :
    (d.put l n).working = d.working := by
  unfold put withTree
  split <;> rfl

theorem node?_below_none {k : Location} (h : d.node? l = none) (hk : l <+: k) :
    d.node? k = none := by
  cases hn : d.node? k with
  | none => rfl
  | some n =>
    by_cases e : l = k
    · rw [← e, h] at hn
      contradiction
    · rw [node?_of_isPrefix hn hk e] at h
      contradiction

/-- Where no directory was, what is put is all that changes. -/
theorem node?_put_of_free (hin : d.node? l.dropLast = some .directory)
    (hfree : d.node? l ≠ some .directory) (n : Node) (k : Location) :
    (d.put l n).node? k = if k = l then some n else d.node? k := by
  rw [node?_put (fun e => hfree (by simp [e])) hin]
  split
  · rfl
  · next hk =>
    split
    · next hk' =>
      -- Below a file or below nothing there is nothing.
      cases hn : d.node? k with
      | none => rfl
      | some n => exact absurd (node?_of_isPrefix hn hk' (Ne.symm hk)) hfree
    · rfl

/-! ### Directories -/

/-- Making a directory adds it to the directory it is in, or changes nothing. -/
theorem makeDirectory_cases (hd : Descends path) (d : Disk) :
    (∃ e, makeDirectory path d = .error e d) ∨
      Spelled path ∧ d.node? (d.location path) = none ∧
        makeDirectory path d = .ok () (d.put (d.location path) .directory) ∧
        ∀ k, (d.put (d.location path) .directory).node? k =
          if k = d.location path then some .directory else d.node? k := by
  rw [makeDirectory_eq]
  cases hr : d.resolve path (Path.dropSlashes path) with
  | error e => exact .inl ⟨e, rfl⟩
  | ok m =>
    obtain ⟨rfl, hs, hroot, hin⟩ := of_resolve_dropSlashes hd hr
    cases hn : d.node? (d.location path) with
    | some n => exact .inl ⟨.obstacle .present path, by simp [hn]⟩
    | none =>
      refine .inr ⟨hs, rfl, by simp [hn], fun k => ?_⟩
      have hne : steps path ≠ [] := fun e => by simp [hroot e] at hn
      exact node?_put_of_free (hin hne) (by simp [hn]) .directory k

theorem branched_makeDirectory (hd : Descends path) (d : Disk) :
    Branched d (leftBy (makeDirectory path d)) (d.location path) := by
  rcases makeDirectory_cases hd d with ⟨e, h⟩ | ⟨-, hn, h, hnode⟩
  · rw [h]
    exact Branched.refl d _
  · rw [h]
    refine ⟨working_put .., fun k => ?_⟩
    by_cases hk : k = d.location path
    · exact .inr ⟨hk ▸ hn, by rw [leftBy_ok, hnode, if_pos hk], hk ▸ List.prefix_refl _⟩
    · exact .inl (by rw [leftBy_ok, hnode, if_neg hk])

theorem branched_ensureDirectory (hd : Descends path) (d : Disk) :
    Branched d (leftBy (ensureDirectory path d)) (d.location path) := by
  have h := branched_makeDirectory hd d
  unfold ensureDirectory
  cases hm : makeDirectory path d with
  | ok u d' => simpa [hm] using h
  | error e d' =>
    rw [hm] at h
    simp only
    split <;> exact h

theorem location_splitLast (h : (Path.splitLast path).1 ≠ []) (d : Disk) :
    d.location (Path.splitLast path).1 <+: d.location path := by
  unfold location start
  rw [Path.isAbsolute_of_isPrefix (Path.splitLast_isPrefix path) h,
    Path.steps_of_parts (Path.parts_splitLast path)]
  simp

theorem Descends.splitLast (hd : Descends path) : Descends (Path.splitLast path).1 := fun hm =>
  hd (by rw [Path.parts_splitLast]; exact List.mem_append_left _ hm)

theorem branched_makeDirectoriesWithin (n : Nat) (hd : Descends path) (d : Disk) :
    Branched d (leftBy (makeDirectoriesWithin n path d)) (d.location path) := by
  induction n generalizing path d with
  | zero => exact Branched.refl d _
  | succ n ih =>
    simp only [makeDirectoriesWithin]
    split
    · next h =>
      have inner := (ih (Descends.splitLast hd) d).mono (location_splitLast h.1 d)
      have last {d' : Disk} (h' : Branched d d' (d.location path)) :
          Branched d (leftBy (if (Path.splitLast path).2 = Path.here then .ok () d'
            else ensureDirectory path d')) (d.location path) := by
        split
        · exact h'
        · have step := branched_ensureDirectory hd d'
          rw [location_congr h'.working] at step
          exact h'.trans step
      cases hm : makeDirectoriesWithin n (Path.splitLast path).1 d with
      | ok u d' =>
        rw [hm] at inner
        exact last inner
      | error e d' =>
        rw [hm] at inner
        split
        · next e' => cases e'; exact last inner
        · next e' => cases e'
        · next e' => cases e'; exact inner
    · exact branched_ensureDirectory hd d

theorem branched_makeDirectories (hd : Descends path) (d : Disk) :
    Branched d (leftBy (makeDirectories path d)) (d.location path) :=
  branched_makeDirectoriesWithin levelLimit hd d

/-! ### Files -/

/-- Writing a file puts it in the directory it is in, or changes nothing. -/
theorem write_cases (hd : Descends path) (content : ByteArray) (d : Disk) :
    (∃ e, write path content d = .error e d) ∨
      ∃ d', write path content d = .ok () d' ∧ Spelled path ∧ path.getLast? ≠ some '/' ∧
        Written d d' (d.location path) content := by
  rw [write_eq]
  cases hr : d.resolve path (Path.dropSlashes path) with
  | error e => exact .inl ⟨e, rfl⟩
  | ok m =>
    obtain ⟨rfl, hs, hroot, hin⟩ := of_resolve_dropSlashes hd hr
    simp only
    split
    · exact .inl ⟨_, rfl⟩
    · next h =>
      obtain ⟨hfree, hslash⟩ := not_or.1 h
      have hne : steps path ≠ [] := fun e => hfree (hroot e)
      exact .inr ⟨_, rfl, hs, hslash, working_put .., hfree, node?_put_of_free (hin hne) hfree _⟩

/-- A disk with a file at a location, and with directories on the way where nothing was. -/
def Installed (d d' : Disk) (l : Location) (content : ByteArray) : Prop :=
  ∃ d₁, Branched d d₁ l.dropLast ∧ Written d₁ d' l content

/-- A path with a last name that leads on is in the directory of its parent. -/
theorem location_parent (hp : Path.parent path ≠ [])
    (hb : leads (FileName.settle (Path.base path)) = true) (d : Disk) :
    d.location path = d.location (Path.parent path) ++ [FileName.settle (Path.base path)] := by
  have hne := Path.base_ne_nil hb
  simp only [leads, decide_eq_true_eq] at hb
  have hsteps : steps path = steps (Path.parent path) ++ [FileName.settle (Path.base path)] := by
    rw [Path.steps_of_parts (Path.parts_parent path)]
    simp [hne, hb.2]
  rw [location, location, hsteps, start, start,
    Path.isAbsolute_of_isPrefix (Path.parent_isPrefix path) hp, List.append_assoc]

theorem Descends.parent (hd : Descends path) : Descends (Path.parent path) := fun hm =>
  hd (by rw [Path.parts_parent]; exact List.mem_append_left _ hm)

/-- Directories on the way to a location are none at it. -/
theorem Branched.node_end {name : Text} (h : Branched d d' l) :
    d'.node? (l ++ [name]) = d.node? (l ++ [name]) := by
  rcases h.node (l ++ [name]) with e | ⟨-, -, hk⟩
  · exact e
  · have := hk.length_le
    simp only [List.length_append, List.length_singleton] at this
    omega

theorem install_eq (hp : Path.parent path ≠ []) (content : ByteArray) (d : Disk) :
    install path content d =
      match makeDirectories (Path.parent path) d with
      | .ok _ d => write path content d
      | .error e d => .error e d := by
  simp only [install, hp, ne_eq, not_false_eq_true, if_true, bind, EStateM.bind]
  cases makeDirectories (Path.parent path) d <;> rfl

/-- Installing a file puts it at its location and makes the directories that are missing
there, or makes some of these directories and fails. -/
theorem install_cases (hd : Descends path) (hp : Path.parent path ≠ [])
    (hb : leads (FileName.settle (Path.base path)) = true) (content : ByteArray) (d : Disk) :
    (∃ d', install path content d = .ok () d' ∧ Installed d d' (d.location path) content ∧
        Spelled path) ∨
      ∃ e d', install path content d = .error e d' ∧ Branched d d' (d.location path).dropLast := by
  have hl := location_parent hp hb d
  have hm := branched_makeDirectories (Descends.parent hd) d
  rw [hl, List.dropLast_concat]
  rw [install_eq hp]
  cases hr : makeDirectories (Path.parent path) d with
  | error e d₁ =>
    rw [hr, leftBy_error] at hm
    exact .inr ⟨e, d₁, rfl, hm⟩
  | ok u d₁ =>
    rw [hr, leftBy_ok] at hm
    rcases write_cases hd content d₁ with ⟨e, h⟩ | ⟨d', h, hs, -, hw⟩
    · exact .inr ⟨e, d₁, h, hm⟩
    · rw [location_congr hm.working, hl] at hw
      exact .inl ⟨d', h, ⟨d₁, by rwa [List.dropLast_concat], hw⟩, hs⟩

theorem copy_eq (source target : Text) (d : Disk) :
    copy source target d =
      let target := if d.isDirectory target then Path.join target (Path.base source) else target
      if d.isSamePlace source target then .error (.sameFile source target) d
      else
        match d.read source with
        | .error e => .error e d
        | .ok content => write target content d := by
  simp only [copy, bind, EStateM.bind, get, getThe, MonadStateOf.get, get_eq]
  split
  · split
    · rfl
    · cases d.read source <;> rfl
  · split
    · rfl
    · cases d.read source <;> rfl

end Multiversion.Disk
