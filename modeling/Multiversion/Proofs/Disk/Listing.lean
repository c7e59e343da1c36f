import Multiversion.Proofs.Disk.Resolve

/-! What a directory lists.

A tree that a disk can hold has one thing under a name, and names that a disk takes
(`Tree.Sound`). In such a tree everything is listed once, at its location
(`mem_entries`, `nodup_entries`); so the files below a directory are the paths of the
files below it that can be looked into, each of them once (`mem_files`,
`nodup_files`). -/
namespace Multiversion

/-- A name that something on a disk can have: it is not empty, leads on, holds neither
a slash nor a null character, is short enough, and is read back as it is. -/
def FileName.Valid (name : Text) : Prop :=
  Path.leads name = true ∧ name ≠ Path.up ∧ CodePoint.ofChar '/' ∉ name ∧
    CodePoint.ofChar '\x00' ∉ name ∧ FileName.size name ≤ Disk.nameLimit ∧
    FileName.unencodable? name = none ∧ FileName.settle name = name

instance (name : Text) : Decidable (FileName.Valid name) :=
  inferInstanceAs (Decidable (_ ∧ _))

namespace Tree

mutual

/-- A tree that a disk can hold. -/
def Sound : Tree → Prop
  | file _ => True
  | directory children => (children.map Prod.fst).Nodup ∧ SoundAll children

/-- Trees that a disk can hold, under names that it takes. -/
def SoundAll : List (Text × Tree) → Prop
  | [] => True
  | (name, t) :: rest => FileName.Valid name ∧ t.Sound ∧ SoundAll rest

end

/-! ### Trees that a disk can hold -/

theorem find?_of_soundAll {name : Text} {t : Tree} :
    ∀ {children : List (Text × Tree)}, SoundAll children →
      Dictionary.find? name children = some t → FileName.Valid name ∧ t.Sound
  | [], _, h => by simp [Dictionary.find?] at h
  | (name', t') :: rest, ⟨hv, hs, hrest⟩, h => by
    simp only [Dictionary.find?] at h
    split at h
    · next e =>
      cases h
      exact ⟨e ▸ hv, hs⟩
    · exact find?_of_soundAll hrest h

/-- What is in a tree that a disk can hold is such a tree, at a location of valid names. -/
theorem sound_of_at? {t s : Tree} {l : Location} (ht : t.Sound) (h : t.at? l = some s) :
    s.Sound ∧ ∀ name ∈ l, FileName.Valid name := by
  induction l generalizing t with
  | nil =>
    cases h
    exact ⟨ht, by simp⟩
  | cons name rest ih =>
    simp only [at?, Option.bind_eq_some_iff] at h
    obtain ⟨c, hc, hrest⟩ := h
    cases t with
    | file _ => contradiction
    | directory children =>
      obtain ⟨hv, hs⟩ := find?_of_soundAll ht.2 hc
      obtain ⟨hs', hv'⟩ := ih hs hrest
      exact ⟨hs', List.forall_mem_cons.2 ⟨hv, hv'⟩⟩

theorem find?_of_notMem {name : Text} :
    ∀ {children : List (Text × Tree)}, name ∉ children.map Prod.fst →
      Dictionary.find? name children = none
  | [], _ => rfl
  | (name', t) :: rest, h => by
    rw [List.map_cons, List.mem_cons, not_or] at h
    rw [Dictionary.find?, if_neg (Ne.symm h.1), find?_of_notMem h.2]

mutual

/-- Everything in a tree is listed at its location. -/
theorem mem_entries {l : Location} {node : Node} :
    ∀ {t : Tree}, t.Sound → ((l, node) ∈ t.entries ↔ t.node? l = some node)
  | file content, _ => by
    cases l <;> simp [entries, node?_cons, child?, Tree.node, eq_comm]
  | directory children, h => by
    rw [entries, List.mem_cons, mem_entriesOf h.1 h.2]
    cases l with
    | nil => simp [Tree.node, eq_comm]
    | cons name rest => simp [node?_cons, child?]

theorem mem_entriesOf {l : Location} {node : Node} :
    ∀ {children : List (Text × Tree)}, (children.map Prod.fst).Nodup → SoundAll children →
      ((l, node) ∈ entriesOf children ↔ ∃ name rest, l = name :: rest ∧
        (Dictionary.find? name children).bind (node? rest) = some node)
  | [], _, _ => by simp [entriesOf, Dictionary.find?]
  | (name, t) :: more, hd, ⟨_, hs, hmore⟩ => by
    rw [List.map_cons, List.nodup_cons] at hd
    rw [entriesOf, List.mem_append, mem_entriesOf hd.2 hmore]
    cases l with
    | nil => simp
    | cons name' rest =>
      have first : (name' :: rest, node) ∈ t.entries.map (fun (l, node) => (name :: l, node)) ↔
          name' = name ∧ t.node? rest = some node := by
        rw [← mem_entries hs]
        simp [eq_comm, and_comm]
      rw [first]
      by_cases e : name' = name
      · subst e
        simp [Dictionary.find?, find?_of_notMem hd.1]
      · simp [Dictionary.find?, e, Ne.symm e]

end

mutual

/-- Nothing is listed twice. -/
theorem nodup_entries : ∀ {t : Tree}, t.Sound → (t.entries.map Prod.fst).Nodup
  | file _, _ => by simp [entries]
  | directory children, h => by
    rw [entries, List.map_cons, List.nodup_cons]
    refine ⟨fun hm => ?_, nodup_entriesOf h.1 h.2⟩
    obtain ⟨⟨l, node⟩, he, rfl⟩ := List.mem_map.1 hm
    obtain ⟨_, _, e, -⟩ := (mem_entriesOf h.1 h.2).1 he
    contradiction

theorem nodup_entriesOf :
    ∀ {children : List (Text × Tree)}, (children.map Prod.fst).Nodup → SoundAll children →
      ((entriesOf children).map Prod.fst).Nodup
  | [], _, _ => by simp [entriesOf]
  | (name, t) :: more, hd, ⟨_, hs, hmore⟩ => by
    rw [List.map_cons, List.nodup_cons] at hd
    rw [entriesOf, List.map_append, List.nodup_append]
    refine ⟨?_, nodup_entriesOf hd.2 hmore, ?_⟩
    · have below : ((t.entries.map Prod.fst).map (name :: ·)).Nodup :=
        List.Pairwise.map _ (fun _ _ hne e => hne (List.cons.inj e).2) (nodup_entries hs)
      simpa [List.map_map, Function.comp_def] using below
    · -- What the first tree lists starts with a name that no other tree is under.
      intro l hl l' hl' e
      obtain ⟨⟨_, node⟩, he, rfl⟩ := List.mem_map.1 hl'
      obtain ⟨name', rest, rfl, hf⟩ := (mem_entriesOf hd.2 hmore).1 he
      obtain ⟨_, _, rfl⟩ := by simpa using hl
      cases e
      rw [find?_of_notMem hd.1] at hf
      contradiction

end

end Tree

namespace Disk
open Multiversion.Path (steps Descends)

variable {d d' : Disk} {path : Text}

/-- The disk holds a tree that a disk can hold. -/
def Sound (d : Disk) : Prop := d.tree.Sound

/-! ### Paths below a directory -/

/-- A path that is not empty and leads down. -/
def Plain (path : Text) : Prop := path ≠ [] ∧ Descends path

instance (path : Text) : Decidable (Plain path) := inferInstanceAs (Decidable (_ ∧ _))

variable {l : Location}

theorem slash_notMem_of_valid (h : ∀ name ∈ l, FileName.Valid name) :
    ∀ name ∈ l, name ≠ [] ∧ CodePoint.ofChar '/' ∉ name := by
  intro name hm
  obtain ⟨hl, -, hs, -⟩ := h name hm
  refine ⟨?_, hs⟩
  rintro rfl
  simp [Path.leads] at hl

theorem relative_of_valid (h : ∀ name ∈ l, FileName.Valid name) :
    Path.isAbsolute (Text.join ['/'] l) = false :=
  Path.isAbsolute_joined (slash_notMem_of_valid h)

/-- The steps of valid names are these names. -/
theorem steps_joined (h : ∀ name ∈ l, FileName.Valid name) : steps (Text.join ['/'] l) = l := by
  rw [steps, Path.parts_joined (slash_notMem_of_valid h)]
  have settled : l.map FileName.settle = l := by
    conv => rhs; rw [← List.map_id l]
    exact List.map_congr_left fun name hm => (h name hm).2.2.2.2.2.2
  rw [settled]
  refine List.filter_eq_self.2 fun name hm => ?_
  have hl := (h name hm).1
  simp only [Path.leads, decide_eq_true_eq] at hl
  simpa using hl.2

theorem location_pathBelow (hp : path ≠ []) (h : ∀ name ∈ l, FileName.Valid name) (d : Disk) :
    d.location (pathBelow path l) = d.location path ++ l := by
  have hr := relative_of_valid h
  rw [location, location, pathBelow, Path.steps_join hp hr, steps_joined h, start, start,
    ← Path.isAbsolute_of_isPrefix (Path.isPrefix_join hr) hp, List.append_assoc]

theorem plain_pathBelow (hp : Plain path) (h : ∀ name ∈ l, FileName.Valid name) :
    Plain (pathBelow path l) := by
  have hr := relative_of_valid h
  refine ⟨fun e => hp.1 ?_, fun hm => ?_⟩
  · have front : path <+: pathBelow path l := Path.isPrefix_join hr
    rw [e] at front
    exact List.prefix_nil.1 front
  · rw [pathBelow, Path.parts_join hp.1 hr, Path.parts_joined (slash_notMem_of_valid h)] at hm
    rcases List.mem_append.1 hm with hm | hm
    · exact hp.2 hm
    · exact (h _ hm).2.1 rfl

theorem parent_pathBelow_ne_nil (hp : path ≠ []) (h : ∀ name ∈ l, FileName.Valid name) :
    Path.parent (pathBelow path l) ≠ [] :=
  Path.parent_ne_nil (Path.slash_mem_join hp (relative_of_valid h))

/-- The last name of a path of valid names is one that leads on. -/
theorem leads_base_pathBelow (hp : path ≠ []) (h : ∀ name ∈ l, FileName.Valid name) (hl : l ≠ []) :
    Path.leads (FileName.settle (Path.base (pathBelow path l))) = true := by
  have hv := h _ (List.getLast_mem hl)
  rw [pathBelow, Path.base_join hp (relative_of_valid h),
    Path.base_joined (slash_notMem_of_valid h) hl, hv.2.2.2.2.2.2]
  exact hv.1

/-! ### Files below a directory -/

/-- The paths of files that a tree lists below the directory of a path. -/
def listing (path : Text) (t : Tree) : List Text :=
  t.entries.filterMap fun (l, node) =>
    if node ≠ .directory ∧ isReachable path l.dropLast then some (Text.join ['/'] l) else none

theorem files_eq (hd : Descends path) (d : Disk) :
    d.files path =
      if d.isDirectory path then
        (((d.tree.at? (d.location path)).map (listing path)).getD []).mergeSort fun a b => a ≤ b
      else [] := by
  unfold files isDirectory status?
  cases h : place path (d.locate path) with
  | error e => simp
  | ok p =>
    have hl : p.location = d.location path :=
      location_of_resolve hd (by rw [resolve, ← locate, h]; rfl)
    have hh : p.here = d.tree.at? (d.location path) := hl ▸ here_of_place h
    obtain ⟨way, here⟩ := p
    simp only at hh
    subst hh
    cases d.tree.at? (d.location path) with
    | none => simp [Place.node?]
    | some t => cases t <;> simp [Place.node?, Tree.node, listing]

/-- The files below a directory are known from what is at its location. -/
theorem files_congr (hd : Descends path) (hw : d.working = d'.working)
    (h : d.tree.at? (d.location path) = d'.tree.at? (d.location path)) :
    d.files path = d'.files path := by
  have hn : d.node? (d.location path) = d'.node? (d.location path) := by
    rw [node?_eq, node?_eq, h]
  rw [files_eq hd, files_eq hd, isDirectory, isDirectory, status?_congr hd hw hn, h,
    location_congr hw.symm]

/-- A text that stands for names on the way down from a directory. -/
theorem mem_files (hs : d.Sound) (hd : Descends path) {file : Text} :
    file ∈ d.files path ↔ d.isDirectory path = true ∧
      ∃ l c, d.node? (d.location path ++ l) = some (.file c) ∧ isReachable path l.dropLast = true ∧
        file = Text.join ['/'] l := by
  rw [files_eq hd]
  split
  · next h =>
    obtain ⟨-, hn, -⟩ := (status?_eq_some_iff hd).1 (isDirectory_iff.1 h)
    rw [node?_eq, Option.map_eq_some_iff] at hn
    obtain ⟨t, ht, -⟩ := hn
    have hst := (Tree.sound_of_at? hs ht).1
    have below (l : Location) : d.node? (d.location path ++ l) = t.node? l := by
      rw [node?_eq, Tree.at?_append, ht]
      rfl
    simp only [List.mem_mergeSort, ht, Option.map_some, Option.getD_some, listing,
      List.mem_filterMap, below, h, true_and, ← Tree.mem_entries hst]
    constructor
    · rintro ⟨⟨l, node⟩, hm, hf⟩
      simp only [Option.ite_none_right_eq_some, Option.some.injEq] at hf
      obtain ⟨⟨hfile, hreach⟩, rfl⟩ := hf
      cases node with
      | directory => contradiction
      | file c => exact ⟨l, c, hm, hreach, rfl⟩
    · rintro ⟨l, c, hm, hreach, rfl⟩
      exact ⟨(l, .file c), hm, by simp [hreach]⟩
  · next h => simp [h]

theorem spelled_of_pathBelow (hp : path ≠ []) (hv : ∀ name ∈ l, FileName.Valid name)
    (h : Spelled (pathBelow path l)) : Spelled path := by
  have hr := relative_of_valid hv
  refine h.of_isPrefix (Path.isPrefix_join hr) hp ?_
  rw [pathBelow, Path.steps_join hp hr]
  exact List.prefix_append _ _

/-- Below a path that leads to no directory there is nothing. -/
theorem status?_pathBelow_eq_none (hp : Plain path) (hv : ∀ name ∈ l, FileName.Valid name)
    (hl : l ≠ []) (h : d.isDirectory path = false) : d.status? (pathBelow path l) = none := by
  cases hn : d.status? (pathBelow path l) with
  | none => rfl
  | some n =>
    obtain ⟨hs, hn, -⟩ := (status?_eq_some_iff (plain_pathBelow hp hv).2).1 hn
    rw [location_pathBelow hp.1 hv] at hn
    have hdir : d.node? (d.location path) = some .directory :=
      node?_of_isPrefix hn (List.prefix_append _ _) (by simpa using hl)
    rw [isDirectory_iff.2 ((status?_eq_some_iff hp.2).2
      ⟨spelled_of_pathBelow hp.1 hv hs, hdir, .inl rfl⟩)] at h
    contradiction

/-- A file that a path finds below a directory is listed there. -/
theorem mem_files_of_status? (hs : d.Sound) (hp : Plain path) (hv : ∀ name ∈ l, FileName.Valid name)
    (hl : l ≠ []) {c : ByteArray} (h : d.status? (pathBelow path l) = some (.file c)) :
    Text.join ['/'] l ∈ d.files path := by
  obtain ⟨hspell, hn, -⟩ := (status?_eq_some_iff (plain_pathBelow hp hv).2).1 h
  rw [location_pathBelow hp.1 hv] at hn
  have hdir : d.node? (d.location path) = some .directory :=
    node?_of_isPrefix hn (List.prefix_append _ _) (by simpa using hl)
  refine (mem_files hs hp.2).2 ⟨?_, l, c, hn, ?_, rfl⟩
  · have hspell' := spelled_of_pathBelow hp.1 hv hspell
    exact isDirectory_iff.2 ((status?_eq_some_iff hp.2).2 ⟨hspell', hdir, .inl rfl⟩)
  · have hfront : pathBelow path l.dropLast <+: pathBelow path l := by
      have hv' : ∀ name ∈ l.dropLast, FileName.Valid name :=
        fun name hm => hv name (List.dropLast_subset l hm)
      refine Path.join_isPrefix_join ?_ (relative_of_valid hv') (relative_of_valid hv)
      conv => rhs; rw [← List.dropLast_concat_getLast hl]
      exact Path.join_concat_isPrefix _ _
    simp only [isReachable, Bool.or_eq_true, decide_eq_true_eq]
    exact .inr ((size_le_of_isPrefix hfront).trans hspell.fits)

/-- No file is listed twice. -/
theorem nodup_files (hs : d.Sound) (hd : Descends path) : (d.files path).Nodup := by
  rw [files_eq hd]
  split
  · cases ht : d.tree.at? (d.location path) with
    | none => simp
    | some t =>
      have hst := (Tree.sound_of_at? hs ht).1
      simp only [Option.map_some, Option.getD_some, listing]
      rw [(List.mergeSort_perm _ _).nodup_iff]
      have apart : t.entries.Pairwise fun a b =>
          (∀ name ∈ a.1, FileName.Valid name) ∧ (∀ name ∈ b.1, FileName.Valid name) ∧ a.1 ≠ b.1 := by
        have valid {e : Location × Node} (he : e ∈ t.entries) : ∀ name ∈ e.1, FileName.Valid name := by
          have hn := (Tree.mem_entries hst).1 he
          rw [Tree.node?, Option.map_eq_some_iff] at hn
          obtain ⟨s, hs', -⟩ := hn
          exact (Tree.sound_of_at? hst hs').2
        exact (List.pairwise_map.1 (Tree.nodup_entries hst)).imp_of_mem
          fun ha hb hne => ⟨valid ha, valid hb, hne⟩
      refine apart.filterMap _ ?_
      rintro a b ⟨ha, hb, hne⟩ file hf file' hf' e
      refine hne ?_
      simp only [Option.ite_none_right_eq_some, Option.some.injEq] at hf hf'
      rw [← Path.parts_joined (slash_notMem_of_valid ha),
        ← Path.parts_joined (slash_notMem_of_valid hb), hf.2, hf'.2, e]
  · exact List.nodup_nil

end Disk
end Multiversion
