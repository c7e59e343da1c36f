import Multiversion.Proofs.Disk.Lockstep
import Multiversion.Proofs.Run.Accounting
import Multiversion.Proofs.Run.Trail

/-! The order in which the files of a run are worked on.

A task comes to the same on two disks that it cannot tell apart, and makes the same
changes there (`alike_attempt`). Separate tasks cannot tell the disk before another one from
the disk after it, although they share directories that whoever comes first has to make. So
two tasks one after the other make the same changes in either order (`same_attempt_swap`),
and a run comes to the same in every order of its tasks (`run_perm`). -/
namespace Multiversion.Run
open Disk (Patch Patched Alike Branch Leaf Change Approached Grown location_congr)

variable {settings : Settings} {mode : Terminal.Mode} {entries : List Entry} {t u : Task}
  {ts ts' : List Task} {d d' : Disk}

/-! ### One task on two disks -/

/-- The directories of a target are few enough to be made at once, and if they are named by dots,
their path is short enough to be looked up. -/
structure Fits (t : Task) : Prop where
  shallow : (Path.parts (Path.parent t.target)).length < Disk.levelLimit
  dotted : Disk.Dotted (Path.parent t.target)

/-- Two disks that a task cannot tell apart. -/
structure Indistinct (t : Task) (d d' : Disk) : Prop where
  target : Approached d d' t.target
  source : d.node? (d.location t.source) = d'.node? (d.location t.source)
  overwrites : ∀ o, t.entry.overwrites = some o →
    d.node? (d.location (Path.join o t.file)) = d'.node? (d.location (Path.join o t.file))

/-- A task comes to the same on two disks and makes the same changes there. -/
structure Matching (t : Task) (d d' : Disk) (a a' : Outcome × Disk) : Prop where
  outcome : a'.1 = a.1
  patch : ∃ δ, Patched d a.2 δ ∧ Patched d' a'.2 δ ∧
    ∀ k n, δ k = some n → Change d (d.location t.target) k n

theorem Matching.unchanged (o : Outcome) : Matching t d d' (o, d) (o, d') :=
  ⟨rfl, fun _ => none, Patched.refl d, Patched.refl d', nofun⟩

theorem Matching.of_alike {r r' : EStateM.Result Disk.Error Disk Unit}
    (h : Alike d d' (Change d (d.location t.target)) r r') (outcome : Option Disk.Error → Outcome) :
    Matching t d d' (outcome (Disk.errorOf r), Disk.leftBy r)
      (outcome (Disk.errorOf r'), Disk.leftBy r') :=
  ⟨congrArg outcome h.error, h.patch⟩

theorem alike_copyFile (hp : Proper t) (hf : Fits t) (h : Indistinct t d d')
    (hs : d.node? (d.location t.source) ≠ none) :
    Alike d d' (Change d (d.location t.target)) (copyFile t.source t.target d)
      (copyFile t.source t.target d') := by
  rw [copyFile_eq, copyFile_eq]
  refine Disk.alike_behind h.target hp.target.2 hp.parent hp.last hf.dotted hf.shallow
    fun e e' δ poised hpatch hpatch' ha => ?_
  -- The source is there, so no directory was made at it.
  have none_at : δ (d.location t.source) = none := by
    cases hδ : δ (d.location t.source) with
    | none => rfl
    | some n => exact absurd (ha _ _ hδ).2.1 hs
  have same := location_congr hpatch.working t.source
  refine Disk.alike_copy poised hp.source.2 hp.target.2 hp.parent hp.last ?_ ?_
  · rw [same, hpatch.node, none_at]
    exact hs
  · rw [same, hpatch.node, hpatch'.node, none_at, h.source]

/-- A task comes to the same on two disks that it cannot tell apart. -/
theorem alike_attempt (hp : Proper t) (hf : Fits t) (h : Indistinct t d d')
    (hs : d.node? (d.location t.source) ≠ none) :
    Matching t d d' (attempt settings mode t d) (attempt settings mode t d') := by
  have hw := h.target.grown.working.symm
  unfold attempt
  rw [← overwritten_congr hp hw h.overwrites]
  split
  · exact .unchanged _
  cases settings.keywords.keywordsFor (Path.base t.source) with
  | none =>
    have copied (d : Disk) : attemptCopy t d =
        ((Disk.errorOf (copyFile t.source t.target d)).elim .copied .uncopied,
          Disk.leftBy (copyFile t.source t.target d)) := by
      unfold attemptCopy
      cases copyFile t.source t.target d <;> rfl
    simp only [copied]
    exact .of_alike (alike_copyFile hp hf h hs) fun e => e.elim .copied .uncopied
  | some k =>
    have hread : d.read t.source = d'.read t.source :=
      Disk.read_congr_of_resolve hp.source.2
        (Disk.resolve_congr_of_node hp.source.2 hw hs h.source) h.source
    simp only [attemptConversion, ← hread]
    cases d.read t.source with
    | error e => exact .unchanged _
    | ok content =>
      simp only
      rcases produce settings mode k t.source content with ⟨ds, failure | text⟩
      · exact .unchanged _
      have installed (result : ByteArray) := Disk.alike_install h.target hp.target.2 hp.parent
        hp.last hf.dotted hf.shallow result
      simp only
      cases Utf8.encode text with
      | ok result =>
        have step := Matching.of_alike (installed result)
          fun e => e.elim (.converted ds) fun e => .unconverted ds (.disk e)
        simp only
        cases hr : Disk.install t.target result d <;> cases hr' : Disk.install t.target result d' <;>
          rw [hr, hr'] at step <;> exact step
      | error halves =>
        have step := Matching.of_alike (installed .empty)
          fun e => e.elim (.emptied ds halves) fun e => .unconverted ds (.disk e)
        simp only
        cases hr : Disk.install t.target .empty d <;> cases hr' : Disk.install t.target .empty d' <;>
          rw [hr, hr'] at step <;> exact step

/-! ### Changes -/

/-- A directory is not changed. -/
theorem not_change_of_directory {l k : Location} {n : Node} (h : d.node? k = some .directory) :
    ¬ Change d l k n := by
  rintro (⟨-, h', -⟩ | ⟨-, h'⟩)
  · rw [h] at h'
    cases h'
  · exact h' h

/-- What does not meet the location is not changed. -/
theorem not_change_of_not_meets {l k : Location} {n : Node} (h : ¬ l.Meets k) :
    ¬ Change d l k n := by
  rintro (⟨-, -, h'⟩ | ⟨h', -⟩)
  · exact h (.inr (h'.trans (List.dropLast_prefix l)))
  · exact h (.inl h')

/-- Changes for locations that do not meet agree: only directories above both are made for
both. -/
theorem change_unique {l m k : Location} {n n' : Node} (h : ¬ l.Meets m) (hl : Change d l k n)
    (hm : Change d m k n') : n = n' := by
  rcases hl with ⟨rfl, -, hl⟩ | ⟨hl, -⟩ <;> rcases hm with ⟨rfl, -, hm⟩ | ⟨hm, -⟩
  · rfl
  · exact absurd (.inr (hm.trans (hl.trans (List.dropLast_prefix l)))) h
  · exact absurd (.inl (hl.trans (hm.trans (List.dropLast_prefix m)))) h
  · exact absurd (List.prefix_or_prefix_of_prefix hl hm) h

theorem node_of_not_change {e : Disk} {δ : Patch} {l k : Location} (hp : Patched d e δ)
    (ha : ∀ k n, δ k = some n → Change d l k n) (h : ∀ n, ¬ Change d l k n) :
    e.node? k = d.node? k := by
  rw [hp.node]
  cases hk : δ k with
  | none => rfl
  | some n => exact absurd (ha k n hk) (h n)

/-! ### Two tasks -/

/-- Separate tasks on a disk that has their sources. -/
structure Ready (d : Disk) (ts : List Task) : Prop where
  separate : Separate d ts
  fits : ∀ t ∈ ts, Fits t
  source : ∀ t ∈ ts, d.node? (d.location t.source) ≠ none
  working : d.node? d.working = some .directory

theorem Ready.start (h : Ready d ts) (path : Text) : d.node? (d.start path) = some .directory := by
  unfold Disk.start
  split
  · rfl
  · exact h.working

variable (settings mode) in
theorem Ready.matching (h : Ready d ts) (ht : t ∈ ts) (hi : Indistinct t d d') :
    Matching t d d' (attempt settings mode t d) (attempt settings mode t d') :=
  alike_attempt (h.separate.proper t ht) (h.fits t ht) hi (h.source t ht)

variable (settings mode) in
theorem Ready.refl (h : Ready d ts) (ht : t ∈ ts) :
    Matching t d d (attempt settings mode t d) (attempt settings mode t d) :=
  h.matching settings mode ht ⟨⟨⟨rfl, fun _ _ => .inl rfl⟩, fun _ _ => rfl, h.start _⟩, rfl, fun _ _ => rfl⟩

variable (settings mode) in
/-- A task cannot tell the disk behind another task from the one before it. -/
theorem Ready.indistinct (h : Ready d (t :: ts)) (hu : u ∈ ts) :
    Indistinct u d (attempt settings mode t d).2 := by
  obtain ⟨-, δ, hp, -, ha⟩ := h.refl settings mode List.mem_cons_self
  generalize (attempt settings mode t d).2 = e at hp ⊢
  have hmem := List.mem_cons_of_mem t hu
  have htarget := (List.pairwise_cons.1 h.separate.targets).1 u hu
  have hprop := h.separate.proper u hmem
  have kept {k : Location} (hk : ¬ (d.location t.target).Meets k) : d.node? k = e.node? k :=
    (node_of_not_change hp ha fun n => not_change_of_not_meets hk).symm
  refine ⟨⟨⟨hp.working, fun k hk => ?_⟩, fun k hk => kept fun hm => htarget ?_, h.start _⟩,
    kept (h.separate.sources t List.mem_cons_self u hmem),
    fun o ho => kept (h.separate.overwrites t List.mem_cons_self u hmem o ho)⟩
  · have below : k <+: d.location u.target := by
      rw [Disk.location_parent hprop.parent hprop.last]
      exact hk.trans (List.prefix_append _ _)
    rw [hp.node]
    cases hδ : δ k with
    | none => exact .inl rfl
    | some n =>
      rcases ha k n hδ with ⟨rfl, hn, -⟩ | ⟨hk', -⟩
      · exact .inr ⟨hn, rfl⟩
      · exact absurd (.inl (hk'.trans below)) htarget
  · rcases hm with hm | hm
    · exact List.prefix_or_prefix_of_prefix hm hk
    · exact .inr (hk.trans hm)

/-- Behind the first task the others are still ready. -/
theorem Ready.after (h : Ready d (t :: ts)) : Ready (attempt settings mode t d).2 ts := by
  obtain ⟨-, δ, hp, -, ha⟩ := h.refl settings mode List.mem_cons_self
  generalize (attempt settings mode t d).2 = e at hp ⊢
  refine ⟨h.separate.tail.congr hp.working, fun u hu => h.fits u (List.mem_cons_of_mem _ hu),
    fun u hu => ?_, ?_⟩
  · have hmem := List.mem_cons_of_mem t hu
    rw [location_congr hp.working, node_of_not_change hp ha fun n =>
      not_change_of_not_meets (h.separate.sources t List.mem_cons_self u hmem)]
    exact h.source u hmem
  · rw [hp.working, node_of_not_change hp ha fun n => not_change_of_directory h.working]
    exact h.working

theorem Ready.perm (h : Ready d ts) (hp : ts.Perm ts') : Ready d ts' where
  separate := by
    have mem {t : Task} (ht : t ∈ ts') : t ∈ ts := hp.mem_iff.2 ht
    refine ⟨fun t ht => h.separate.proper t (mem ht), ?_,
      fun t ht u hu => h.separate.sources t (mem ht) u (mem hu),
      fun t ht u hu => h.separate.overwrites t (mem ht) u (mem hu)⟩
    exact (hp.pairwise_iff fun {t u} hn hm => hn hm.symm).1 h.separate.targets
  fits t ht := h.fits t (hp.mem_iff.2 ht)
  source t ht := h.source t (hp.mem_iff.2 ht)
  working := h.working

variable (settings mode) in
/-- Two tasks come to the same in either order, and leave the same behind. -/
theorem same_attempt_swap (h : Ready d (t :: u :: ts)) :
    (attempt settings mode u (attempt settings mode t d).2).1 = (attempt settings mode u d).1 ∧
      (attempt settings mode t (attempt settings mode u d).2).1 = (attempt settings mode t d).1 ∧
      (attempt settings mode u (attempt settings mode t d).2).2.Same
        (attempt settings mode t (attempt settings mode u d).2).2 := by
  have h' := h.perm (List.Perm.swap u t ts)
  have hmeets : ¬ (d.location t.target).Meets (d.location u.target) :=
    (List.pairwise_cons.1 h.separate.targets).1 u List.mem_cons_self
  have second := h'.matching settings mode List.mem_cons_self
    (h.indistinct settings mode List.mem_cons_self)
  have first := h.matching settings mode List.mem_cons_self
    (h'.indistinct settings mode List.mem_cons_self)
  obtain ⟨ho, δ, hp, hp', ha⟩ := second
  obtain ⟨ho', δ', hq, hq', ha'⟩ := first
  refine ⟨ho, ho', ?_, fun k => ?_⟩
  · rw [hq'.working, hp.working, hp'.working, hq.working]
  · rw [hq'.node, hp.node, hp'.node, hq.node]
    cases hδ : δ k with
    | none => simp
    | some n =>
      cases hδ' : δ' k with
      | none => simp
      | some n' => simp [change_unique hmeets (ha' k n' hδ') (ha k n hδ)]

/-! ### All tasks -/

variable (settings mode) in
/-- Tasks come to the same on two disks with the same nodes. -/
theorem attemptAll_same (h : Ready d ts) (hs : d.Same d') :
    (attemptAll settings mode ts d').1 = (attemptAll settings mode ts d).1 ∧
      (attemptAll settings mode ts d).2.Same (attemptAll settings mode ts d').2 := by
  induction ts generalizing d d' with
  | nil => exact ⟨rfl, hs⟩
  | cons t rest ih =>
    have hi : Indistinct t d d' := ⟨⟨⟨hs.working, fun k _ => .inl (hs.node k)⟩,
      fun k _ => (hs.node k).symm, h.start _⟩, (hs.node _).symm, fun _ _ => (hs.node _).symm⟩
    obtain ⟨ho, δ, hp, hp', -⟩ :=
      h.matching settings mode List.mem_cons_self hi
    have next : (attempt settings mode t d).2.Same (attempt settings mode t d').2 :=
      ⟨by rw [hp'.working, hp.working, hs.working], fun k => by rw [hp'.node, hp.node, hs.node]⟩
    obtain ⟨htrail, hsame⟩ := ih h.after next
    rw [attemptAll_cons, attemptAll_cons]
    exact ⟨by simp only [ho, htrail], hsame⟩

variable (settings mode) in
/-- Tasks come to the same in every order, and leave the same behind. -/
theorem attemptAll_perm (hp : ts.Perm ts') (h : Ready d ts) :
    ((attemptAll settings mode ts' d).1.Perm (attemptAll settings mode ts d).1) ∧
      (attemptAll settings mode ts d).2.Same (attemptAll settings mode ts' d).2 := by
  induction hp generalizing d with
  | nil => exact ⟨.refl _, .refl _⟩
  | cons t _ ih =>
    obtain ⟨htrail, hsame⟩ := ih h.after
    rw [attemptAll_cons, attemptAll_cons]
    exact ⟨htrail.cons _, hsame⟩
  | swap u t rest =>
    obtain ⟨ho, ho', hsame⟩ := same_attempt_swap settings mode h
    have hrest : Ready (attempt settings mode u (attempt settings mode t d).2).2 rest := h.after.after
    obtain ⟨htrail, hsame'⟩ := attemptAll_same settings mode hrest hsame
    simp only [attemptAll_cons]
    rw [htrail, ho, ho']
    exact ⟨.swap _ _ _, hsame'⟩
  | trans hp _ ih ih' =>
    obtain ⟨htrail, hsame⟩ := ih h
    obtain ⟨htrail', hsame'⟩ := ih' (h.perm hp)
    exact ⟨htrail'.trans htrail, hsame.trans hsame'⟩

/-! ### The run -/

/-- What a run does before it works on files: it removes the generated directories, if that is
asked for, and records the entries without sources. -/
def prepare (clean : Bool) (entries : List Entry) : Action Unit := fun w =>
  match cleanAll clean entries w with
  | .ok _ w => entries.forM checkEntry w
  | .error e w => .error e w

theorem run_eq_prepare (settings : Settings) (clean : Bool) (entries : List Entry) (w : Workspace) :
    run settings clean entries w =
      match prepare clean entries w with
      | .ok _ w => performAll settings (tasks w.disk entries) w
      | .error e w => .error e w := by
  rw [run_eq, prepare]
  cases cleanAll clean entries w with
  | error e w => rfl
  | ok u w =>
    simp only
    cases entries.forM checkEntry w <;> rfl

theorem pruned_of_prepare {clean : Bool} (ha : Apart d entries) {w w₁ : Workspace}
    (hd : w.disk = d) (h : prepare clean entries w = .ok () w₁) : Pruned d w₁.disk entries := by
  unfold prepare at h
  split at h
  · next w₀ hclean =>
    have pruned := pruned_of_cleanAll ha.generated hclean
    obtain ⟨stream, -, hcheck⟩ | ⟨-, e, w₂, hcheck⟩ := checkAll_cases entries w₀
    · cases hcheck.symm.trans h
      exact hd ▸ pruned
    · cases hcheck.symm.trans h
  · contradiction

/-- The tasks of entries that are apart are ready when the run comes to them. -/
theorem ready_tasks {d₁ : Disk} (hs : d.Sound) (ha : Apart d entries) (hc : Pruned d d₁ entries)
    (hw : d₁.node? d₁.working = some .directory) (hf : ∀ t ∈ tasks d₁ entries, Fits t) :
    Ready d₁ (tasks d₁ entries) := by
  refine ⟨?_, hf, fun t ht => ?_, hw⟩
  · rw [tasks_pruned ha hc]
    exact (separate_tasks hs ha).congr hc.working
  · rw [tasks_pruned ha hc] at ht
    obtain ⟨l, hl⟩ := found_of_mem_tasks hs ha.source ht
    obtain ⟨c, hn⟩ := hl.node
    rw [location_congr hc.working, hc.source ha hl.toNamed, hl.location_source ha, hn]
    nofun

theorem attemptAll_parallel (settings : Settings) (parallel : Bool) (ts : List Task) (d : Disk) :
    attemptAll { settings with parallel } mode ts d = attemptAll settings mode ts d := by
  induction ts generalizing d with
  | nil => rfl
  | cons t rest ih =>
    have same : attempt { settings with parallel } mode t d = attempt settings mode t d := rfl
    simp only [attemptAll_cons, same, ih]

/-- Two reports that say the same in another order. -/
structure SameReport (r r' : Report) : Prop where
  processed : r'.processed = r.processed
  copied : r'.copied = r.copied
  skipped : r'.skipped = r.skipped
  failed : r'.failed = r.failed
  diagnostics : r'.diagnostics.Perm r.diagnostics
  errors : r'.errors.Perm r.errors

/-- Recording the same outcomes in another order says the same. -/
theorem sameReport_recordAll {trail trail' : List (Task × Outcome)} (h : trail'.Perm trail)
    (r : Report) (stream stream' : Terminal.Stream) :
    SameReport { recordAll trail r with stream } { recordAll trail' r with stream := stream' } := by
  rw [recordAll_eq, recordAll_eq]
  refine ⟨?_, ?_, ?_, ?_, ?_, ?_⟩
  · simp only [h.countP_eq]
  · simp only [h.countP_eq]
  · simp only [h.countP_eq]
  · have any (f : Task × Outcome → Bool) : trail'.any f = trail.any f := by
      rw [Bool.eq_iff_iff, List.any_eq_true, List.any_eq_true]
      simp only [h.mem_iff]
    simp only [any]
  · exact (h.flatMap_right _).append_left _
  · exact (h.filterMap _).append_left _

/-- When a run ends, working on the same files in any other order, one after the other or not
waiting for each other, ends as well. It leaves the same files and directories behind, counts the
same, and records the same diagnostics and failures in some order: if the entries are
apart, the directory that relative paths start at is there, and the directories of the results
can be made at once. -/
theorem run_perm {clean : Bool} {w w₁ w' : Workspace} (hs : w.disk.Sound)
    (ha : Apart w.disk entries) (hprep : prepare clean entries w = .ok () w₁)
    (hw : w₁.disk.node? w₁.disk.working = some .directory)
    (hf : ∀ t ∈ tasks w₁.disk entries, Fits t) (h : run settings clean entries w = .ok () w')
    (hp : (tasks w₁.disk entries).Perm ts) (parallel : Bool) :
    ∃ w'', performAll { settings with parallel } ts w₁ = .ok () w'' ∧
      w'.disk.Same w''.disk ∧ SameReport w'.report w''.report := by
  have hc := pruned_of_prepare ha rfl hprep
  have hready := ready_tasks hs ha hc hw hf
  obtain ⟨htrail, hsame⟩ :=
    attemptAll_perm settings w₁.report.stream.mode hp hready
  rw [run_eq_prepare, hprep] at h
  obtain ⟨hquiet, stream, -, hseq⟩ | ⟨-, e, w₂, hseq⟩ :=
    @performAll_cases settings (tasks w₁.disk entries) w₁
  · cases hseq.symm.trans h
    obtain ⟨-, stream', -, hall⟩ | ⟨hnot, -⟩ := @performAll_cases { settings with parallel } ts w₁
    · rw [attemptAll_parallel] at hall
      exact ⟨_, hall, hsame, sameReport_recordAll htrail _ _ _⟩
    · rw [attemptAll_parallel] at hnot
      exact absurd (fun p hp => hquiet p (htrail.mem_iff.1 hp)) hnot
  · cases hseq.symm.trans h

/-- A disk with two files, in one directory each. -/
def twoFiles : Disk :=
  ⟨[("s".toText, .directory [("x".toText, .file .empty)]),
    ("t".toText, .directory [("y".toText, .file .empty)])], []⟩

/-- The entries of the two directories, whose results are to be in one directory. -/
def twoEntries : List Entry :=
  [⟨"s".toText, "g/a".toText, none⟩, ⟨"t".toText, "g/b".toText, none⟩]

/-- The tasks of the two files, the last one first. -/
def twoTasks : List Task :=
  [⟨⟨"t".toText, "g/b".toText, none⟩, "y".toText⟩, ⟨⟨"s".toText, "g/a".toText, none⟩, "x".toText⟩]

theorem run_perm_twoFiles : ∃ w' w'' : Workspace,
    run copying true twoEntries ⟨twoFiles, .fresh (.fresh .plain)⟩ = .ok () w' ∧
      performAll { copying with parallel := true } twoTasks ⟨twoFiles, .fresh (.fresh .plain)⟩ =
        .ok () w'' ∧
      w'.disk.Same w''.disk ∧ SameReport w'.report w''.report := by
  have ends : (match run copying true twoEntries ⟨twoFiles, .fresh (.fresh .plain)⟩ with
      | .ok _ _ => true
      | .error _ _ => false) = true := by decide +kernel
  cases h : run copying true twoEntries ⟨twoFiles, .fresh (.fresh .plain)⟩ with
  | error e w =>
    rw [h] at ends
    exact Bool.noConfusion ends
  | ok u w' =>
    have sound : twoFiles.Sound := ⟨by decide, by decide, ⟨by decide, by decide, trivial, trivial⟩,
      by decide, ⟨by decide, by decide, trivial, trivial⟩, trivial⟩
    have apart : Apart twoFiles twoEntries :=
      ⟨by decide, by decide, by decide, by decide, by decide, by decide⟩
    have listed : tasks twoFiles twoEntries = twoTasks.reverse := by decide +kernel
    have fits : ∀ t ∈ tasks twoFiles twoEntries, Fits t := by
      rw [listed]
      refine List.forall_mem_cons.2 ⟨⟨by decide, ?_⟩, List.forall_mem_singleton.2 ⟨by decide, ?_⟩⟩ <;>
        exact fun _ => by decide
    have perm : (tasks twoFiles twoEntries).Perm twoTasks := listed ▸ twoTasks.reverse_perm
    have prepared : prepare true twoEntries ⟨twoFiles, .fresh (.fresh .plain)⟩ =
        .ok () ⟨twoFiles, .fresh (.fresh .plain)⟩ := rfl
    obtain ⟨w'', hall, hsame, hreport⟩ := run_perm sound apart prepared rfl fits h perm true
    exact ⟨w', w'', rfl, hall, hsame, hreport⟩

end Multiversion.Run
