import Multiversion.Proofs.Disk.Listing
import Multiversion.Proofs.Disk.Removal
import Multiversion.Proofs.Run.Attempt

/-! Who reads and who writes where.

The entries of a run are apart if no generated directory meets another one, or anything
that is read (`Apart`). Then removing the generated directories takes nothing away that a
run reads (`pruned_of_cleanAll`), so that the tasks are the same before and after
(`tasks_pruned`), and two different tasks do not write in each other's way
(`separate_tasks`). -/
namespace Multiversion.Run
open Disk (Plain location_congr)

/-- The entries of a run have paths that lead down, and no generated directory is at, above or
below another one or anything that is read. -/
structure Apart (d : Disk) (entries : List Entry) : Prop where
  source : ∀ e ∈ entries, Plain e.source
  generated : ∀ e ∈ entries, Plain e.generated
  overwrites : ∀ e ∈ entries, ∀ o, e.overwrites = some o → Plain o
  written : entries.Pairwise fun a b =>
    ¬ (d.location a.generated).Meets (d.location b.generated)
  read : ∀ a ∈ entries, ∀ b ∈ entries, ¬ (d.location a.generated).Meets (d.location b.source)
  kept : ∀ a ∈ entries, ∀ b ∈ entries, ∀ o, b.overwrites = some o →
    ¬ (d.location a.generated).Meets (d.location o)

variable {d d' : Disk} {entries : List Entry}

/-! ### Tasks -/

/-- A task of an entry, its file given by the names on the way to it. -/
structure Named (entries : List Entry) (t : Task) (l : Location) : Prop where
  entry : t.entry ∈ entries
  file : t.file = Text.join ['/'] l
  ne_nil : l ≠ []
  valid : ∀ name ∈ l, FileName.Valid name

/-- A task is one of the files below the sources of an entry. -/
structure Found (d : Disk) (entries : List Entry) (t : Task) (l : Location) : Prop
    extends Named entries t l where
  node : ∃ c, d.node? (d.location t.entry.source ++ l) = some (.file c)

theorem Named.target {t : Task} {l : Location} (h : Named entries t l) :
    t.target = Disk.pathBelow t.entry.generated l := by rw [Task.target, h.file]; rfl

theorem Named.source {t : Task} {l : Location} (h : Named entries t l) :
    t.source = Disk.pathBelow t.entry.source l := by rw [Task.source, h.file]; rfl

theorem mem_tasks {t : Task} :
    t ∈ tasks d entries ↔ t.entry ∈ entries ∧ t.file ∈ d.files t.entry.source := by
  simp only [tasks, List.mem_flatMap, tasksOf, List.mem_map]
  constructor
  · rintro ⟨e, he, file, hf, rfl⟩
    exact ⟨he, hf⟩
  · rintro ⟨he, hf⟩
    exact ⟨t.entry, he, t.file, hf, rfl⟩

theorem found_of_mem_files (hs : d.Sound) {e : Entry} (he : e ∈ entries) (hp : Plain e.source)
    {file : Text} (hf : file ∈ d.files e.source) : ∃ l, Found d entries ⟨e, file⟩ l := by
  obtain ⟨hdir, l, c, hn, -, hfile⟩ := (Disk.mem_files hs hp.2).1 hf
  have hv : ∀ name ∈ l, FileName.Valid name := by
    rw [Disk.node?_eq, Option.map_eq_some_iff] at hn
    obtain ⟨s, hs', -⟩ := hn
    exact fun name hm => (Tree.sound_of_at? hs hs').2 name (List.mem_append_right _ hm)
  refine ⟨l, ⟨he, hfile, ?_, hv⟩, c, hn⟩
  rintro rfl
  obtain ⟨-, hn', -⟩ := (Disk.status?_eq_some_iff hp.2).1 (Disk.isDirectory_iff.1 hdir)
  rw [List.append_nil, hn'] at hn
  cases hn

theorem found_of_mem_tasks (hs : d.Sound) (hp : ∀ e ∈ entries, Plain e.source) {t : Task}
    (h : t ∈ tasks d entries) : ∃ l, Found d entries t l :=
  found_of_mem_files hs (mem_tasks.1 h).1 (hp _ (mem_tasks.1 h).1) (mem_tasks.1 h).2

/-- The paths of a task lead down, and its result is below a directory. -/
structure Proper (t : Task) : Prop where
  source : Plain t.source
  target : Plain t.target
  overwrites : ∀ o, t.entry.overwrites = some o → Plain (Path.join o t.file)
  parent : Path.parent t.target ≠ []
  last : Path.leads (FileName.settle (Path.base t.target)) = true

theorem Named.proper (ha : Apart d entries) {t : Task} {l : Location} (h : Named entries t l) :
    Proper t where
  source := h.source ▸ Disk.plain_pathBelow (ha.source _ h.entry) h.valid
  target := h.target ▸ Disk.plain_pathBelow (ha.generated _ h.entry) h.valid
  overwrites o ho := by
    rw [h.file]
    exact Disk.plain_pathBelow (ha.overwrites _ h.entry o ho) h.valid
  parent := h.target ▸ Disk.parent_pathBelow_ne_nil (ha.generated _ h.entry).1 h.valid
  last := h.target ▸ Disk.leads_base_pathBelow (ha.generated _ h.entry).1 h.valid h.ne_nil

/-- Tasks that do not write in each other's way, and not where any of them reads. -/
structure Separate (d : Disk) (ts : List Task) : Prop where
  proper : ∀ t ∈ ts, Proper t
  targets : ts.Pairwise fun t u => ¬ (d.location t.target).Meets (d.location u.target)
  sources : ∀ t ∈ ts, ∀ u ∈ ts, ¬ (d.location t.target).Meets (d.location u.source)
  overwrites : ∀ t ∈ ts, ∀ u ∈ ts, ∀ o, u.entry.overwrites = some o →
    ¬ (d.location t.target).Meets (d.location (Path.join o u.file))

theorem Named.location_target (ha : Apart d entries) {t : Task} {l : Location}
    (h : Named entries t l) : d.location t.target = d.location t.entry.generated ++ l := by
  rw [h.target, Disk.location_pathBelow (ha.generated _ h.entry).1 h.valid]

theorem Named.location_source (ha : Apart d entries) {t : Task} {l : Location}
    (h : Named entries t l) : d.location t.source = d.location t.entry.source ++ l := by
  rw [h.source, Disk.location_pathBelow (ha.source _ h.entry).1 h.valid]

/-- Files of one directory are not below each other, so their locations do not meet unless
they are the same. -/
theorem Found.eq_of_meets {t u : Task} {l m : Location} (ht : Found d entries t l)
    (hu : Found d entries u m) (he : t.entry = u.entry) (h : Location.Meets l m) : t = u := by
  obtain ⟨c, hc⟩ := ht.node
  obtain ⟨c', hc'⟩ := hu.node
  rw [he] at hc
  have same : l = m := by
    by_contra hne
    rcases h with h | h
    · have := Disk.node?_of_isPrefix hc' ((List.prefix_append_right_inj _).2 h) (by simpa using hne)
      rw [hc] at this
      cases this
    · have := Disk.node?_of_isPrefix hc ((List.prefix_append_right_inj _).2 h)
        (by simpa using Ne.symm hne)
      rw [hc'] at this
      cases this
  obtain ⟨te, tf⟩ := t
  obtain ⟨ue, uf⟩ := u
  simp only at he
  have hf : tf = uf := by rw [show tf = _ from ht.file, show uf = _ from hu.file, same]
  rw [he, hf]

/-- The tasks of entries that are apart are separate. -/
theorem separate_tasks (hs : d.Sound) (ha : Apart d entries) : Separate d (tasks d entries) where
  proper t ht := by
    obtain ⟨l, hl⟩ := found_of_mem_tasks hs ha.source ht
    exact hl.proper ha
  targets := by
    refine List.pairwise_flatMap.2 ⟨fun e he => ?_, ?_⟩
    · refine List.pairwise_map.2 ((Disk.nodup_files hs (ha.source e he).2).imp_of_mem ?_)
      intro file file' hf hf' hne hm
      obtain ⟨l, hl⟩ := found_of_mem_files hs he (ha.source e he) hf
      obtain ⟨m, hm'⟩ := found_of_mem_files hs he (ha.source e he) hf'
      rw [hl.location_target ha, hm'.location_target ha] at hm
      have hlm : Location.Meets l m :=
        hm.imp (List.prefix_append_right_inj _).1 (List.prefix_append_right_inj _).1
      exact hne (congrArg Task.file (hl.eq_of_meets hm' rfl hlm))
    · refine ha.written.imp_of_mem fun {a b} hma hmb hab t ht u hu => ?_
      obtain ⟨file, hf, rfl⟩ := List.mem_map.1 ht
      obtain ⟨file', hf', rfl⟩ := List.mem_map.1 hu
      obtain ⟨l, hl⟩ := found_of_mem_files hs hma (ha.source a hma) hf
      obtain ⟨m, hm⟩ := found_of_mem_files hs hmb (ha.source b hmb) hf'
      rw [hl.location_target ha, hm.location_target ha]
      exact Location.not_meets_append hab l m
  sources t ht u hu := by
    obtain ⟨l, hl⟩ := found_of_mem_tasks hs ha.source ht
    obtain ⟨m, hm⟩ := found_of_mem_tasks hs ha.source hu
    rw [hl.location_target ha, hm.location_source ha]
    exact Location.not_meets_append (ha.read _ hl.entry _ hm.entry) l m
  overwrites t ht u hu o ho := by
    obtain ⟨l, hl⟩ := found_of_mem_tasks hs ha.source ht
    obtain ⟨m, hm⟩ := found_of_mem_tasks hs ha.source hu
    rw [hl.location_target ha, hm.file]
    have hp := ha.overwrites _ hm.entry o ho
    rw [show Path.join o _ = Disk.pathBelow o m from rfl, Disk.location_pathBelow hp.1 hm.valid]
    exact Location.not_meets_append (ha.kept _ hl.entry _ hm.entry o ho) l m

/-! ### Cleaning -/

/-- A disk without some of what was at or below the generated directories of entries. -/
structure Pruned (d d' : Disk) (entries : List Entry) : Prop where
  working : d'.working = d.working
  node : ∀ k, d'.node? k = none ∨ d'.node? k = d.node? k
  at? : ∀ m, (∀ e ∈ entries, ¬ (d.location e.generated).Meets m) → d'.tree.at? m = d.tree.at? m

/-- A disk without the generated directories of entries. -/
structure Cleaned (d d' : Disk) (entries : List Entry) : Prop extends Pruned d d' entries where
  gone : ∀ e ∈ entries, d'.isDirectory e.generated = false

theorem Pruned.refl (d : Disk) (entries : List Entry) : Pruned d d entries :=
  ⟨rfl, fun _ => .inr rfl, fun _ _ => rfl⟩

/-- What meets no generated directory is still there. -/
theorem Pruned.node_of_not_meets (h : Pruned d d' entries) {k : Location}
    (hk : ∀ e ∈ entries, ¬ (d.location e.generated).Meets k) : d'.node? k = d.node? k := by
  rw [Disk.node?_eq, Disk.node?_eq, h.at? k hk]

theorem isDirectory_of_node {path : Text} (hd : Path.Descends path)
    (hw : d'.working = d.working) (hn : ∀ k, d'.node? k = none ∨ d'.node? k = d.node? k)
    (h : d.isDirectory path = false) : d'.isDirectory path = false := by
  rw [Bool.eq_false_iff] at h ⊢
  intro h'
  obtain ⟨hs, hn', -⟩ := (Disk.status?_eq_some_iff hd).1 (Disk.isDirectory_iff.1 h')
  rw [location_congr hw] at hn'
  refine h (Disk.isDirectory_iff.2 ((Disk.status?_eq_some_iff hd).2 ⟨hs, ?_, .inl rfl⟩))
  rcases hn (d.location path) with e | e
  · rw [e] at hn'
    contradiction
  · exact e ▸ hn'

theorem cleaned_of_cleanEntry {e : Entry} (hp : Plain e.generated) {w w' : Workspace}
    (h : cleanEntry e w = .ok () w') : Cleaned w.disk w'.disk [e] := by
  unfold cleanEntry at h
  split at h
  · next hdir =>
    split at h
    · next hr =>
      cases h
      have removed := Disk.removed_of_removeTree hp.2 hdir hr
      refine ⟨⟨removed.working, fun k => ?_, fun m hm => removed.at? m (hm e (by simp))⟩, ?_⟩
      · rw [removed.node]
        split
        · exact .inl rfl
        · exact .inr rfl
      · rw [List.forall_mem_singleton, Bool.eq_false_iff]
        intro hdir'
        obtain ⟨-, hn, -⟩ := (Disk.status?_eq_some_iff hp.2).1 (Disk.isDirectory_iff.1 hdir')
        rw [location_congr removed.working, removed.node, if_pos (List.prefix_refl _)] at hn
        contradiction
    · contradiction
  · next hdir =>
    cases h
    exact ⟨Pruned.refl _ _, by simpa using hdir⟩

/-- Removing the generated directories leaves none of them, and takes away nothing that
does not meet them. -/
theorem cleaned_of_cleanAll (hp : ∀ e ∈ entries, Plain e.generated) {w w' : Workspace}
    (h : cleanAll true entries w = .ok () w') : Cleaned w.disk w'.disk entries := by
  simp only [cleanAll, if_true] at h
  induction entries generalizing w with
  | nil =>
    cases h
    exact ⟨Pruned.refl _ _, by simp⟩
  | cons e rest ih =>
    rw [forM_cons_eq] at h
    split at h
    · next w₁ hc =>
      obtain ⟨he, hrest⟩ := List.forall_mem_cons.1 hp
      have first := cleaned_of_cleanEntry he hc
      have others := ih hrest h
      refine ⟨⟨others.working.trans first.working, fun k => ?_, fun m hm => ?_⟩, ?_⟩
      · rcases others.node k with e' | e'
        · exact .inl e'
        · rw [e']
          exact first.node k
      · obtain ⟨hm, hm'⟩ := List.forall_mem_cons.1 hm
        rw [others.at? m fun e' he' => by
          rw [location_congr first.working]
          exact hm' e' he']
        exact first.at? m (by simpa using hm)
      · refine List.forall_mem_cons.2 ⟨?_, others.gone⟩
        exact isDirectory_of_node he.2 others.working others.node (first.gone e (by simp))
    · contradiction

theorem pruned_of_cleanAll {clean : Bool} (hp : ∀ e ∈ entries, Plain e.generated)
    {w w' : Workspace} (h : cleanAll clean entries w = .ok () w') :
    Pruned w.disk w'.disk entries := by
  cases clean with
  | true => exact (cleaned_of_cleanAll hp h).toPruned
  | false =>
    cases h
    exact Pruned.refl _ _

/-- Removing the generated directories changes no task. -/
theorem tasks_pruned (ha : Apart d entries) (hc : Pruned d d' entries) :
    tasks d' entries = tasks d entries := by
  have same {e : Entry} (he : e ∈ entries) : tasksOf d' e = tasksOf d e := by
    have hat := hc.at? (d.location e.source) fun a hma => ha.read a hma e he
    rw [tasksOf, tasksOf, Disk.files_congr (ha.source e he).2 hc.working.symm hat.symm]
  exact List.flatMap_congr fun e he => same he

/-- What a task reads is not removed. -/
theorem Pruned.source (ha : Apart d entries) (hc : Pruned d d' entries) {t : Task} {l : Location}
    (ht : Named entries t l) : d'.node? (d.location t.source) = d.node? (d.location t.source) := by
  refine hc.node_of_not_meets fun e he => ?_
  rw [ht.location_source ha, ← List.append_nil (d.location e.generated)]
  exact Location.not_meets_append (ha.read e he _ ht.entry) [] l

theorem Separate.congr {ts : List Task} (h : Separate d ts) (hw : d'.working = d.working) :
    Separate d' ts where
  proper := h.proper
  targets := by simpa only [location_congr hw] using h.targets
  sources := by simpa only [location_congr hw] using h.sources
  overwrites := by simpa only [location_congr hw] using h.overwrites

theorem Separate.tail {t : Task} {rest : List Task} (h : Separate d (t :: rest)) :
    Separate d rest where
  proper u hu := h.proper u (List.mem_cons_of_mem _ hu)
  targets := (List.pairwise_cons.1 h.targets).2
  sources u hu v hv := h.sources u (List.mem_cons_of_mem _ hu) v (List.mem_cons_of_mem _ hv)
  overwrites u hu v hv := h.overwrites u (List.mem_cons_of_mem _ hu) v (List.mem_cons_of_mem _ hv)

end Multiversion.Run
