import Multiversion.Proofs.Run.Territory
import Multiversion.Proofs.Source.Suffix

/-! What the tasks of a run leave behind.

A task that leaves a file puts it at the location of its target and makes the directories
that are missing on the way; any other task makes some of these directories and nothing
else (`attempt_cases`). So separate tasks do not change what the others read or have
written, and after all of them every target holds what its own task left, and nothing but
targets and directories on the way to them has changed (`traced_attemptAll`). -/
namespace Multiversion

namespace Disk

variable {d d' : Disk} {l : Location} {path : Text}

/-- A file that is read once directories have been added was there before. -/
theorem read_of_branched (hd : Path.Descends path) (h : Branched d d' l) {content : ByteArray}
    (hr : d'.read path = .ok content) : d.read path = .ok content := by
  rw [read_eq_ok_iff, status?_eq_some_iff hd] at hr ⊢
  obtain ⟨hs, hn, hb⟩ := hr
  rw [location_congr h.working] at hn
  refine ⟨hs, ?_, hb⟩
  rcases h.node (d.location path) with e | ⟨-, e, -⟩
  · rw [← e, hn]
  · rw [hn] at e
    cases e

/-- Where a file is installed, everything but directories on the way stays as it was. -/
theorem Installed.node {content : ByteArray} (h : Installed d d' l content) (k : Location) :
    d'.node? k = d.node? k ∨ d.node? k = none ∧ d'.node? k = some .directory ∧ k <+: l.dropLast ∨
      k = l ∧ d'.node? k = some (.file content) := by
  obtain ⟨d₁, hb, hw⟩ := h
  rw [hw.node]
  split
  · next hk => exact .inr (.inr ⟨hk, rfl⟩)
  · exact (hb.node k).imp_right .inl

theorem Installed.node_end {content : ByteArray} (h : Installed d d' l content) :
    d'.node? l = some (.file content) := by
  obtain ⟨d₁, -, hw⟩ := h
  rw [hw.node, if_pos rfl]

theorem Installed.working {content : ByteArray} (h : Installed d d' l content) :
    d'.working = d.working := by
  obtain ⟨d₁, hb, hw⟩ := h
  exact hw.working.trans hb.working

end Disk

namespace Run
open Disk (Branched Installed Spelled location_congr)

variable {settings : Settings} {mode : Terminal.Mode} {t : Task} {d d' : Disk}

/-! ### One task -/

/-- The content that a task leaves at its target, by that of its source and by what the task
comes to. -/
inductive Leaves (settings : Settings) (mode : Terminal.Mode) (t : Task) (content : ByteArray) :
    Outcome → ByteArray → Prop
  /-- The name of the file ends with no suffix of the map, and the content is that of the
  source. -/
  | copied : (∀ e ∈ settings.keywords.entries, ¬ e.1 <:+ Path.base t.source) →
      Leaves settings mode t content .copied content
  /-- The content is the text that the conversion of the source comes to, under the keywords
  of the longest suffix. -/
  | converted {suffix : Text} {k : Keywords} {ds : List Diagnostic} {text : Text}
      {result : ByteArray} :
      SuffixMap.Longest (Path.base t.source) settings.keywords.entries (suffix, k) →
      produce settings mode k t.source content = (ds, .ok text) →
      Utf8.encode text = .ok result → Leaves settings mode t content (.converted ds) result
  /-- That text has no bytes, and there is nothing in the file. -/
  | emptied {suffix : Text} {k : Keywords} {ds : List Diagnostic} {text : Text}
      {halves : Utf8.Unencodable} :
      SuffixMap.Longest (Path.base t.source) settings.keywords.entries (suffix, k) →
      produce settings mode k t.source content = (ds, .ok text) →
      Utf8.encode text = .error halves →
      Leaves settings mode t content (.emptied ds halves) .empty

theorem Leaves.unique {content result result' : ByteArray} {o : Outcome}
    (h : Leaves settings mode t content o result) (h' : Leaves settings mode t content o result') :
    result = result' := by
  cases h with
  | copied => cases h'; rfl
  | emptied => cases h'; rfl
  | converted hk hp he =>
    cases h' with
    | converted hk' hp' he' =>
      cases hk.unique settings.keywords.distinct hk'
      rw [hp] at hp'
      cases hp'
      rw [he] at he'
      cases he'
      rfl

/-- A file is copied to a target that is no directory, or some of the directories are made
that the target needs. -/
theorem copyFile_cases (hp : Proper t) (hfree : d.isDirectory t.target = false) :
    (∃ d' content, copyFile t.source t.target d = .ok () d' ∧ d.read t.source = .ok content ∧
        Installed d d' (d.location t.target) content ∧ Spelled t.target) ∨
      ∃ e d', copyFile t.source t.target d = .error e d' ∧
        Branched d d' (d.location t.target).dropLast := by
  have hl := Disk.location_parent hp.parent hp.last d
  have hm := Disk.branched_makeDirectories (Disk.Descends.parent hp.target.2) d
  have hdrop : (d.location t.target).dropLast = d.location (Path.parent t.target) := by
    rw [hl, List.dropLast_concat]
  rw [← hdrop] at hm
  rw [copyFile_eq]
  cases hr : Disk.makeDirectories (Path.parent t.target) d with
  | error e d₁ =>
    rw [hr] at hm
    exact .inr ⟨e, d₁, rfl, hm⟩
  | ok u d₁ =>
    rw [hr] at hm
    have hm' : Branched d d₁ (d.location t.target).dropLast := hm
    have hsame : d₁.node? (d.location t.target) = d.node? (d.location t.target) := by
      rw [hdrop] at hm'
      rw [hl]
      exact hm'.node_end
    have hfree' : d₁.isDirectory t.target = false := by
      rw [Disk.isDirectory, ← Disk.status?_congr hp.target.2 hm'.working.symm hsame.symm]
      exact hfree
    simp only
    rw [Disk.copy_eq, hfree']
    simp only [Bool.false_eq_true, if_false]
    split
    · exact .inr ⟨_, d₁, rfl, hm'⟩
    · cases hread : d₁.read t.source with
      | error e => exact .inr ⟨e, d₁, rfl, hm'⟩
      | ok content =>
        have installed := Disk.install_cases hp.target.2 hp.parent hp.last content d
        have whole : Disk.install t.target content d = Disk.write t.target content d₁ := by
          simp only [Disk.install, hp.parent, ne_eq, not_false_eq_true, if_true, bind, EStateM.bind, hr]
        rw [whole] at installed
        refine installed.imp_left ?_
        rintro ⟨d', h, hi, hs⟩
        refine ⟨d', content, h, ?_, hi, hs⟩
        exact Disk.read_of_branched hp.source.2 hm' hread

variable (settings mode) in
/-- A task leaves a file at its target, which depends on its source alone, or some of the
directories that the target needs. -/
theorem attempt_cases (hp : Proper t) (hfree : d.isDirectory t.target = false) :
    (∃ content result, t.overwritten d = false ∧ d.read t.source = .ok content ∧
        Leaves settings mode t content (attempt settings mode t d).1 result ∧
        Installed d (attempt settings mode t d).2 (d.location t.target) result ∧ Spelled t.target) ∨
      (∀ content result, ¬ Leaves settings mode t content (attempt settings mode t d).1 result) ∧
        Branched d (attempt settings mode t d).2 (d.location t.target).dropLast := by
  unfold attempt
  cases ho : t.overwritten d with
  | true => exact .inr ⟨by rintro _ _ ⟨⟩, Branched.refl d _⟩
  | false =>
    simp only [Bool.false_eq_true, if_false]
    cases hk : settings.keywords.keywordsFor (Path.base t.source) with
    | none =>
      have hk' := SuffixMap.keywordsFor_eq_none_iff.1 hk
      simp only [attemptCopy]
      rcases copyFile_cases hp hfree with ⟨d', content, h, hr, hi, hs⟩ | ⟨e, d', h, hb⟩
      · rw [h]
        exact .inl ⟨content, content, trivial, hr, .copied hk', hi, hs⟩
      · rw [h]
        exact .inr ⟨by rintro _ _ ⟨⟩, hb⟩
    | some k =>
      obtain ⟨suffix, hl⟩ := SuffixMap.keywordsFor_eq_some_iff.1 hk
      simp only [attemptConversion]
      cases hr : d.read t.source with
      | error e => exact .inr ⟨by rintro _ _ ⟨⟩, Branched.refl d _⟩
      | ok content =>
        simp only
        rcases hpr : produce settings mode k t.source content with ⟨ds, failure | text⟩
        · exact .inr ⟨by rintro _ _ ⟨⟩, Branched.refl d _⟩
        · simp only
          cases he : Utf8.encode text with
          | ok result =>
            rcases Disk.install_cases hp.target.2 hp.parent hp.last result d with
              ⟨d', h, hi, hs⟩ | ⟨e, d', h, hb⟩
            · simp only [h]
              exact .inl ⟨content, result, trivial, rfl, .converted hl hpr he, hi, hs⟩
            · simp only [h]
              exact .inr ⟨by rintro _ _ ⟨⟩, hb⟩
          | error halves =>
            rcases Disk.install_cases hp.target.2 hp.parent hp.last .empty d with
              ⟨d', h, hi, hs⟩ | ⟨e, d', h, hb⟩
            · simp only [h]
              exact .inl ⟨content, .empty, trivial, rfl, .emptied hl hpr he, hi, hs⟩
            · simp only [h]
              exact .inr ⟨by rintro _ _ ⟨⟩, hb⟩

/-! ### All tasks -/

/-- What a trail of outcomes has made of a disk. -/
structure Traced (settings : Settings) (mode : Terminal.Mode) (trail : List (Task × Outcome))
    (d d' : Disk) : Prop where
  working : d'.working = d.working
  /-- Only targets and the directories on the way to them change. -/
  node : ∀ k, d'.node? k = d.node? k ∨ ∃ p ∈ trail, k = d.location p.1.target ∨
    d.node? k = none ∧ d'.node? k = some .directory ∧ k <+: (d.location p.1.target).dropLast
  /-- A target holds what its task left, or what was there if that is nothing. -/
  target : ∀ p ∈ trail,
    (∃ content result, p.1.overwritten d = false ∧ d.read p.1.source = .ok content ∧
      Leaves settings mode p.1 content p.2 result ∧ Spelled p.1.target ∧
      d'.node? (d.location p.1.target) = some (.file result)) ∨
    (∀ content result, ¬ Leaves settings mode p.1 content p.2 result) ∧
      d'.node? (d.location p.1.target) = d.node? (d.location p.1.target)

variable (settings mode) in
/-- What working on a task does not change. -/
theorem node_attempt (hp : Proper t) (hfree : d.isDirectory t.target = false) (k : Location) :
    (attempt settings mode t d).2.node? k = d.node? k ∨ k = d.location t.target ∧
        (attempt settings mode t d).2.node? k ≠ none ∨
      d.node? k = none ∧ (attempt settings mode t d).2.node? k = some .directory ∧
        k <+: (d.location t.target).dropLast := by
  rcases attempt_cases settings mode hp hfree with
    ⟨_, _, -, -, -, hi, -⟩ | ⟨-, hb⟩
  · rcases hi.node k with e | e | ⟨e, e'⟩
    · exact .inl e
    · exact .inr (.inr e)
    · exact .inr (.inl ⟨e, by simp [e']⟩)
  · exact (hb.node k).imp_right .inr

variable (settings mode) in
theorem working_attempt (hp : Proper t) (hfree : d.isDirectory t.target = false) :
    (attempt settings mode t d).2.working = d.working := by
  rcases attempt_cases settings mode hp hfree with
    ⟨_, _, -, -, -, hi, -⟩ | ⟨-, hb⟩
  · exact hi.working
  · exact hb.working

variable (settings mode) in
/-- What does not meet the target of a task is the same after it. -/
theorem node_attempt_of_not_meets (hp : Proper t) (hfree : d.isDirectory t.target = false)
    {k : Location} (hk : ¬ (d.location t.target).Meets k) :
    (attempt settings mode t d).2.node? k = d.node? k := by
  rcases node_attempt settings mode hp hfree k with e | ⟨e, -⟩ | ⟨-, -, e⟩
  · exact e
  · exact absurd (.inl (e ▸ List.prefix_refl _)) hk
  · exact absurd (.inr (e.trans (List.dropLast_prefix _))) hk

theorem overwritten_congr (hp : Proper t) (hw : d.working = d'.working)
    (h : ∀ o, t.entry.overwrites = some o →
      d.node? (d.location (Path.join o t.file)) = d'.node? (d.location (Path.join o t.file))) :
    t.overwritten d = t.overwritten d' := by
  unfold Task.overwritten
  cases ho : t.entry.overwrites with
  | none => rfl
  | some o =>
    simp only [Disk.isPresent]
    rw [Disk.status?_congr (hp.overwrites o ho).2 hw (h o ho)]

theorem read_congr {path : Text} (hd : Path.Descends path) (hw : d.working = d'.working)
    (h : d.node? (d.location path) = d'.node? (d.location path)) {content : ByteArray} :
    d.read path = .ok content ↔ d'.read path = .ok content := by
  rw [Disk.read_eq_ok_iff, Disk.read_eq_ok_iff, Disk.status?_congr hd hw h]

/-- What meets no target is the same after all tasks. -/
theorem Traced.node_of_not_meets {trail : List (Task × Outcome)}
    (h : Traced settings mode trail d d') {k : Location}
    (hk : ∀ p ∈ trail, ¬ (d.location p.1.target).Meets k) : d'.node? k = d.node? k := by
  rcases h.node k with e | ⟨p, hp, e | ⟨-, -, hk'⟩⟩
  · exact e
  · exact absurd (.inl (e ▸ List.prefix_refl _)) (hk p hp)
  · exact absurd (.inr (hk'.trans (List.dropLast_prefix _))) (hk p hp)

/-- A task in front of others that are separate from it. -/
theorem Traced.cons {rest : List Task} {trail : List (Task × Outcome)} {o : Outcome} {d₁ : Disk}
    (hs : Separate d (t :: rest)) (hfree : d.isDirectory t.target = false)
    (ha : attempt settings mode t d = (o, d₁)) (hmem : ∀ p ∈ trail, p.1 ∈ rest)
    (h : Traced settings mode trail d₁ d') : Traced settings mode ((t, o) :: trail) d d' := by
  have hp := hs.proper t List.mem_cons_self
  have hw := working_attempt settings mode hp hfree
  have hnode := node_attempt settings mode hp hfree
  have away {k : Location} (hk : ¬ (d.location t.target).Meets k) :=
    node_attempt_of_not_meets settings mode hp hfree hk
  have first := attempt_cases settings mode hp hfree
  simp only [ha] at hw hnode away first
  have hmeets := (List.pairwise_cons.1 hs.targets).1
  have targets := h.target
  simp only [location_congr hw] at targets
  refine ⟨h.working.trans hw, fun k => ?_, List.forall_mem_cons.2 ⟨?_, fun p hp' => ?_⟩⟩
  · rcases h.node k with e | ⟨p, hp', hk⟩
    · rw [e]
      rcases hnode k with e' | ⟨e', -⟩ | e'
      · exact .inl e'
      · exact .inr ⟨_, List.mem_cons_self, .inl e'⟩
      · exact .inr ⟨_, List.mem_cons_self, .inr e'⟩
    · refine .inr ⟨p, List.mem_cons_of_mem _ hp', ?_⟩
      rw [location_congr hw] at hk
      refine hk.imp_right fun ⟨e, e', hk⟩ => ⟨?_, e', hk⟩
      -- Nothing vanishes.
      rcases hnode k with f | ⟨-, f⟩ | ⟨f, -⟩
      · rw [← f, e]
      · exact absurd e f
      · exact f
  · -- The tasks behind this one leave its target alone.
    have kept := h.node_of_not_meets fun p hp' hm =>
      hmeets p.1 (hmem p hp') (location_congr hw p.1.target ▸ hm).symm
    rw [kept]
    refine first.imp ?_ ?_
    · rintro ⟨content, result, ho, hr, hl, hi, hsp⟩
      exact ⟨content, result, ho, hr, hl, hsp, hi.node_end⟩
    · rintro ⟨hl, hb⟩
      refine ⟨hl, ?_⟩
      rw [Disk.location_parent hp.parent hp.last, List.dropLast_concat] at hb
      rw [Disk.location_parent hp.parent hp.last]
      exact hb.node_end
  · -- What the tasks behind this one read has not been changed by it.
    have hin := hmem p hp'
    have hprop := hs.proper p.1 (List.mem_cons_of_mem _ hin)
    have hov : p.1.overwritten d₁ = p.1.overwritten d :=
      overwritten_congr hprop hw fun o ho => by
        rw [location_congr hw]
        exact away (hs.overwrites t List.mem_cons_self p.1 (List.mem_cons_of_mem _ hin) o ho)
    have hread {content : ByteArray} :
        d₁.read p.1.source = .ok content ↔ d.read p.1.source = .ok content :=
      read_congr hprop.source.2 hw <| by
        rw [location_congr hw]
        exact away (hs.sources t List.mem_cons_self p.1 (List.mem_cons_of_mem _ hin))
    have target := targets p hp'
    rw [away (hmeets p.1 hin), hov] at target
    simpa only [hread] using target

/-- After separate tasks every target holds what its task left, and nothing has changed but
targets and the directories on the way to them. -/
theorem traced_attemptAll {ts : List Task} (hs : Separate d ts)
    (hfree : ∀ t ∈ ts, d.isDirectory t.target = false) :
    Traced settings mode (attemptAll settings mode ts d).1 d (attemptAll settings mode ts d).2 := by
  induction ts generalizing d with
  | nil => exact ⟨rfl, fun k => .inl rfl, by simp [attemptAll]⟩
  | cons t rest ih =>
    obtain ⟨ht, hrest⟩ := List.forall_mem_cons.1 hfree
    have hp := hs.proper t List.mem_cons_self
    have hw := working_attempt settings mode hp ht
    have hfree' : ∀ u ∈ rest, (attempt settings mode t d).2.isDirectory u.target = false := by
      intro u hu
      have kept := node_attempt_of_not_meets settings mode hp ht
        ((List.pairwise_cons.1 hs.targets).1 u hu)
      have hd := (hs.proper u (List.mem_cons_of_mem _ hu)).target.2
      rw [Disk.isDirectory, Disk.status?_congr hd hw (location_congr hw u.target ▸ kept)]
      exact hrest u hu
    refine .cons hs ht rfl (fun p hp => ?_) (ih (hs.tail.congr hw) hfree')
    rw [← @map_fst_attemptAll settings mode rest]
    exact List.mem_map_of_mem hp

end Run

end Multiversion
