import Multiversion.Proofs.Disk.Confinement
import Multiversion.Proofs.Run.Accounting
import Multiversion.Proofs.Run.Territory

/-! What a run leaves alone.

A task writes at its target, or into it if a directory is there, and makes directories on
the way; cleaning removes generated directories. Nothing else about a run changes the disk.
So whether a run ends or something escapes it, and also if its entries are in each other's
way, everything that is not at or below a generated directory stays as it was, and all that
can be new there is a directory on the way to a generated one (`run_confined`). -/
namespace Multiversion.Run
open Disk (Plain Confined leftBy location_congr)

variable {settings : Settings} {mode : Terminal.Mode} {t : Task} {d d' : Disk}
  {entries : List Entry} {roots : List Location}

/-- The disk that an action leaves behind, whether it ends or not. -/
def diskAfter {ε α : Type} : EStateM.Result ε Workspace α → Disk
  | .ok _ w | .error _ w => w.disk

@[simp] theorem diskAfter_ok {ε α : Type} (a : α) (w : Workspace) :
    diskAfter (.ok a w : EStateM.Result ε Workspace α) = w.disk := rfl

@[simp] theorem diskAfter_error {ε α : Type} (e : ε) (w : Workspace) :
    diskAfter (.error e w : EStateM.Result ε Workspace α) = w.disk := rfl

theorem disk_recordFailure (file : Text) (failure : Failure) (w : Workspace) :
    diskAfter (recordFailure file failure w) = w.disk := by
  unfold recordFailure
  split <;> rfl

/-! ### One task -/

/-- Working on a file does to the disk what attempting it does, also if it escapes. -/
theorem disk_perform (t : Task) (w : Workspace) :
    diskAfter (perform settings t w) = (attempt settings w.report.stream.mode t w.disk).2 := by
  unfold perform attempt
  split
  · rfl
  cases settings.keywords.keywordsFor (Path.base t.source) with
  | none =>
    simp only [attemptCopy]
    cases copyFile t.source t.target w.disk with
    | ok u d => rfl
    | error e d =>
      simp only
      split
      · exact disk_recordFailure _ _ _
      · rfl
  | some k =>
    obtain ⟨stream, -, h⟩ := @convert_cases settings k t w
    simp only at h ⊢
    rw [h]
    cases (attemptConversion settings w.report.stream.mode k t w.disk).1.failure? with
    | none => rfl
    | some failure => exact disk_recordFailure _ _ _

/-- A task writes below a root. -/
structure Aimed (roots : List Location) (d : Disk) (t : Task) : Prop where
  target : Plain t.target
  parent : Path.parent t.target ≠ []
  last : Path.leads (FileName.settle (Path.base t.target)) = true
  name : FileName.Valid (Path.base t.source)
  below : ∃ root ∈ roots, root <+: d.location t.target

theorem Aimed.congr (h : Aimed roots d t) (hw : d'.working = d.working) : Aimed roots d' t :=
  { h with below := by simpa only [location_congr hw] using h.below }

theorem confined_copyFile (h : Aimed roots d t) :
    Confined roots d (leftBy (copyFile t.source t.target d)) := by
  obtain ⟨root, hr, hl⟩ := h.below
  exact Disk.confined_behind_parent h.target.2 h.parent h.last hr hl
    fun d' hl' => Disk.confined_copy h.target h.name hr hl'

variable (settings mode) in
/-- Whatever a task comes to, it is confined. -/
theorem confined_attempt (h : Aimed roots d t) :
    Confined roots d (attempt settings mode t d).2 := by
  obtain ⟨root, hr, hl⟩ := h.below
  have hinstall (content : ByteArray) :=
    Disk.confined_install h.target.2 h.parent h.last hr hl content
  unfold attempt
  split
  · exact .refl roots d
  cases settings.keywords.keywordsFor (Path.base t.source) with
  | none =>
    have hcopy := confined_copyFile h
    simp only [attemptCopy]
    cases hc : copyFile t.source t.target d with
    | ok u d' => rwa [hc] at hcopy
    | error e d' => rwa [hc] at hcopy
  | some k =>
    simp only [attemptConversion]
    cases d.read t.source with
    | error e => exact .refl roots d
    | ok content =>
      simp only
      rcases produce settings mode k t.source content with ⟨ds, failure | text⟩
      · exact .refl roots d
      · simp only
        cases Utf8.encode text with
        | ok bytes =>
          have := hinstall bytes
          cases hi : Disk.install t.target bytes d <;> simpa [hi] using this
        | error halves =>
          have := hinstall .empty
          cases hi : Disk.install t.target .empty d <;> simpa [hi] using this

/-! ### All tasks -/

/-- Tasks are confined one after the other, in whatever order they come. -/
theorem confined_performAll (ts : List Task) (w : Workspace) (h : ∀ t ∈ ts, Aimed roots w.disk t) :
    Confined roots w.disk (diskAfter (performAll settings ts w)) := by
  induction ts generalizing w with
  | nil => exact .refl roots w.disk
  | cons t rest ih =>
    obtain ⟨ht, hrest⟩ := List.forall_mem_cons.1 h
    have first : Confined roots w.disk (diskAfter (perform settings t w)) :=
      disk_perform t w ▸ confined_attempt settings _ ht
    have others (w₁ : Workspace) (hw : Confined roots w.disk w₁.disk) :
        Confined roots w.disk (diskAfter (performAll settings rest w₁)) :=
      hw.trans (ih w₁ fun u hu => (hrest u hu).congr hw.working)
    simp only [performAll]
    cases hp : perform settings t w with
    | ok u w₁ =>
      rw [hp] at first
      exact others w₁ first
    | error e w₁ =>
      rw [hp] at first
      simp only
      split
      · have := others w₁ first
        cases hr : performAll settings rest w₁ <;> simpa [hr] using this
      · exact first

/-- The tasks of entries write below the generated directories. -/
theorem aimed_of_mem_tasks (hs : d.Sound) (hsource : ∀ e ∈ entries, Plain e.source)
    (hgenerated : ∀ e ∈ entries, Plain e.generated) (ht : t ∈ tasks d entries) :
    Aimed (entries.map fun e => d.location e.generated) d t := by
  obtain ⟨l, hl⟩ := found_of_mem_tasks hs hsource ht
  have hp := hgenerated _ hl.entry
  refine ⟨?_, ?_, ?_, ?_, _, List.mem_map_of_mem hl.entry, ?_⟩
  · exact hl.target ▸ Disk.plain_pathBelow hp hl.valid
  · exact hl.target ▸ Disk.parent_pathBelow_ne_nil hp.1 hl.valid
  · exact hl.target ▸ Disk.leads_base_pathBelow hp.1 hl.valid hl.ne_nil
  · rw [hl.source, Disk.pathBelow, Path.base_join (hsource _ hl.entry).1
      (Disk.relative_of_valid hl.valid),
      Path.base_joined (Disk.slash_notMem_of_valid hl.valid) hl.ne_nil]
    exact hl.valid _ (List.getLast_mem hl.ne_nil)
  · rw [hl.target, Disk.location_pathBelow hp.1 hl.valid]
    exact List.prefix_append _ _

/-! ### A run -/

theorem confined_cleanEntry {e : Entry} (hp : Plain e.generated) {w : Workspace}
    (hs : w.disk.Sound) (hr : w.disk.location e.generated ∈ roots) :
    Confined roots w.disk (diskAfter (cleanEntry e w)) ∧ (diskAfter (cleanEntry e w)).Sound := by
  unfold cleanEntry
  split
  · next hdir =>
    have hc := Disk.confined_removeTree hp.2 hdir hr
    have hs' := Disk.sound_removeTree hs hp.2 hdir
    cases hrm : Disk.removeTree e.generated w.disk <;> rw [hrm] at hc hs' <;> exact ⟨hc, hs'⟩
  · exact ⟨.refl roots _, hs⟩

/-- Removing generated directories is confined to them. -/
theorem confined_cleanAll (clean : Bool) {w : Workspace} (hs : w.disk.Sound)
    (hp : ∀ e ∈ entries, Plain e.generated)
    (hr : ∀ e ∈ entries, w.disk.location e.generated ∈ roots) :
    Confined roots w.disk (diskAfter (cleanAll clean entries w)) ∧
      (diskAfter (cleanAll clean entries w)).Sound := by
  unfold cleanAll
  split
  swap
  · exact ⟨.refl roots _, hs⟩
  induction entries generalizing w with
  | nil => exact ⟨.refl roots _, hs⟩
  | cons e rest ih =>
    obtain ⟨hpe, hprest⟩ := List.forall_mem_cons.1 hp
    obtain ⟨hre, hrrest⟩ := List.forall_mem_cons.1 hr
    obtain ⟨hc, hs'⟩ := confined_cleanEntry hpe hs hre
    rw [forM_cons_eq]
    cases hclean : cleanEntry e w with
    | error escape w₁ =>
      rw [hclean] at hc hs'
      exact ⟨hc, hs'⟩
    | ok u w₁ =>
      rw [hclean] at hc hs'
      have hw : w₁.disk.working = w.disk.working := hc.working
      have hr' : ∀ e ∈ rest, w₁.disk.location e.generated ∈ roots := by
        simpa only [location_congr hw] using hrrest
      exact (ih hs' hprest hr').imp_left hc.trans

theorem disk_checkAll (entries : List Entry) (w : Workspace) :
    diskAfter (entries.forM checkEntry w) = w.disk := by
  induction entries generalizing w with
  | nil => rfl
  | cons e rest ih =>
    have first : diskAfter (checkEntry e w) = w.disk := by
      simp only [checkEntry, bind, EStateM.bind, get, getThe, MonadStateOf.get, get_eq]
      split
      · rfl
      · exact disk_recordFailure _ _ _
    rw [forM_cons_eq]
    cases hc : checkEntry e w with
    | error escape w₁ =>
      rw [hc] at first
      exact first
    | ok u w₁ =>
      rw [hc] at first
      exact (ih w₁).trans first

/-- **A run stays below its generated directories.** Whatever a run comes to, and whatever its
entries are, everything that was not at or below a generated directory is as it was; and what
is new there is a directory on the way to a generated one. -/
theorem run_confined (settings : Settings) (clean : Bool) {w : Workspace} (hs : w.disk.Sound)
    (hsource : ∀ e ∈ entries, Plain e.source) (hgenerated : ∀ e ∈ entries, Plain e.generated)
    (l : Location) (hl : ∀ e ∈ entries, ¬ w.disk.location e.generated <+: l) :
    let d' := diskAfter (run settings clean entries w)
    d'.node? l = w.disk.node? l ∨
      w.disk.node? l = none ∧ d'.node? l = some .directory ∧
        ∃ e ∈ entries, l <+: w.disk.location e.generated := by
  have confined : Confined (entries.map fun e => w.disk.location e.generated) w.disk
      (diskAfter (run settings clean entries w)) := by
    obtain ⟨hclean, hs'⟩ := confined_cleanAll clean hs hgenerated
      fun e he => List.mem_map_of_mem (f := fun e => w.disk.location e.generated) he
    rw [run_eq]
    cases hc : cleanAll clean entries w with
    | error escape w₁ =>
      rw [hc] at hclean
      exact hclean
    | ok u w₁ =>
      rw [hc, diskAfter_ok] at hclean hs'
      have hcheck := disk_checkAll entries w₁
      simp only
      cases hk : entries.forM checkEntry w₁ with
      | error escape w₂ =>
        rw [hk, diskAfter_error] at hcheck
        rw [diskAfter_error, hcheck]
        exact hclean
      | ok u w₂ =>
        rw [hk, diskAfter_ok] at hcheck
        rw [← hcheck] at hclean hs'
        refine hclean.trans (confined_performAll _ w₂ fun t ht => ?_)
        have aimed := aimed_of_mem_tasks hs' hsource hgenerated ht
        simpa only [location_congr hclean.working] using aimed
  simpa using confined.node l (by simpa using hl)

/-- Entries that generate from one directory, one of them into that directory. -/
def nestedEntries : List Entry := [⟨"s".toText, "s/g".toText, none⟩, ⟨"s".toText, "p/h".toText, none⟩]

/-- The file of the sources stays, and a new directory may be on the way to generated ones. -/
theorem run_confined_nestedEntries :
    let d' := diskAfter (run copying true nestedEntries ⟨loneFile, .fresh (.fresh .plain)⟩)
    d'.node? ["s".toText, "x".toText] = some (.file .empty) ∧
      (d'.node? ["p".toText] = none ∨ d'.node? ["p".toText] = some .directory) := by
  intro d'
  have sound : loneFile.Sound :=
    ⟨by decide, by decide, ⟨by decide, by decide, trivial, trivial⟩, trivial⟩
  have outside (l : Location) (hl : ∀ e ∈ nestedEntries, ¬ loneFile.location e.generated <+: l) :=
    @run_confined nestedEntries copying true ⟨loneFile, .fresh (.fresh .plain)⟩ sound
      (by decide) (by decide) l hl
  refine ⟨?_, ?_⟩
  · obtain h | ⟨h, -⟩ := outside ["s".toText, "x".toText] (by decide)
    · exact h
    · cases h
  · obtain h | ⟨-, h, -⟩ := outside ["p".toText] (by decide)
    · exact .inl h
    · exact .inr h

end Multiversion.Run
