import Multiversion.Proofs.Disk.Refusal
import Multiversion.Proofs.Run.Attempt

/-! Every file of a run is accounted for.

A stream that strips nothing prints everything, and an error in copying is the disk's
own if the paths are ones that a disk can be given and the directories are few enough to be
made at once (`Writable`). Then nothing escapes, and a run ends with every file attempted
once and in one tally, whatever became of the files before it (`run_accounts`). A result
below more directories than can be made at once is what a run does not survive, and
only copying lets it through. -/
namespace Multiversion.Run

variable {settings : Settings} {mode : Terminal.Mode}

/-- A file that can be copied as far as its paths go. -/
structure Writable (t : Task) : Prop where
  source : Disk.textError? t.source = none
  target : Disk.textError? t.target = none
  shallow : (Path.parts (Path.parent t.target)).length < Disk.levelLimit

/-! ### Nothing escapes -/

theorem isRefusal_of_copyFile {t : Task} (hw : Writable t) {d d' : Disk} {e : Disk.Error}
    (h : copyFile t.source t.target d = .error e d') : e.isRefusal = true := by
  rw [copyFile_eq] at h
  split at h
  · exact Disk.isRefusal_of_copy hw.source hw.target h
  · next hm =>
    cases h
    have ht := Disk.textError?_of_subset hw.target (Path.parent_isPrefix t.target).subset
    exact Disk.isRefusal_of_makeDirectoriesWithin ht hw.shallow hm

theorem escapes_attempt_eq_false (hmode : mode ≠ .stripped) {t : Task}
    (hw : settings.keywords.keywordsFor (Path.base t.source) = none → Writable t) (d : Disk) :
    (attempt settings mode t d).1.escapes mode t.source = false := by
  have quiet {o : Outcome} (h : ∀ e, o = .uncopied e → e.isRefusal = true) :
      o.escapes mode t.source = false := by
    cases o <;> simp_all [Outcome.escapes, Outcome.error?, Outcome.failure?, Terminal.Mode.prints_of_ne_stripped hmode]
  refine quiet fun e he => ?_
  unfold attempt at he
  split at he
  · contradiction
  · split at he
    · next hk =>
      unfold attemptCopy at he
      split at he
      · contradiction
      · next hc =>
        cases he
        exact isRefusal_of_copyFile (hw hk) hc
    · next k _ =>
      obtain ⟨ds, h⟩ | ⟨_, -, hne⟩ := attemptConversion_kind settings mode k t d
      · rw [h] at he
        contradiction
      · exact absurd he (hne e)

theorem quiet_attemptAll (hmode : mode ≠ .stripped) {ts : List Task}
    (hw : ∀ t ∈ ts, settings.keywords.keywordsFor (Path.base t.source) = none → Writable t)
    (d : Disk) : Quiet mode (attemptAll settings mode ts d).1 := by
  induction ts generalizing d with
  | nil => simp [Quiet, attemptAll]
  | cons t rest ih =>
    obtain ⟨ht, hrest⟩ := List.forall_mem_cons.1 hw
    exact List.forall_mem_cons.2 ⟨escapes_attempt_eq_false hmode ht d, ih hrest _⟩

/-! ### A run -/

theorem sound_recordAll {r : Report} (h : r.Sound) (trail : List (Task × Outcome)) :
    (recordAll trail r).Sound := by
  induction trail generalizing r with
  | nil => exact h
  | cons p rest ih => exact ih (h.record p.1.source p.2)

/-- Every outcome is in one of the four tallies. -/
theorem handled_recordAll (trail : List (Task × Outcome)) (r : Report) :
    (recordAll trail r).processed + (recordAll trail r).copied + (recordAll trail r).skipped +
        (recordAll trail r).errors.length =
      r.processed + r.copied + r.skipped + r.errors.length + trail.length := by
  induction trail generalizing r with
  | nil => rfl
  | cons p rest ih =>
    have step := ih (p.2.record p.1.source r)
    have one := p.2.handled_record p.1.source r
    rw [List.length_cons]
    exact step.trans (by omega)

/-- Once the generated directories are removed, a run ends. Every file that is then found
below a directory of sources has been attempted, once and in order, whatever became of
the files before it; the tallies add up to the files and the entries without sources;
and the run counts as failed exactly when it says why. -/
theorem run_accounts {clean : Bool} {entries : List Entry} {d : Disk} {stream : Terminal.Stream}
    {w : Workspace} (hmode : stream.mode ≠ .stripped)
    (hclean : cleanAll clean entries ⟨d, .fresh stream⟩ = .ok () w)
    (hw : ∀ t ∈ tasks w.disk entries,
      settings.keywords.keywordsFor (Path.base t.source) = none → Writable t) :
    ∃ trail w', run settings clean entries ⟨d, .fresh stream⟩ = .ok () w' ∧
      attemptAll settings stream.mode (tasks w.disk entries) w.disk = (trail, w'.disk) ∧
      trail.map Prod.fst = tasks w.disk entries ∧
      (∃ stream', w'.report =
        { recordAll trail (recordMissing (missing w.disk entries) (.fresh stream)) with
          stream := stream' }) ∧
      w'.report.processed + w'.report.copied + w'.report.skipped + w'.report.errors.length =
        (tasks w.disk entries).length + (missing w.disk entries).length ∧
      (w'.report.failed = true ↔ w'.report.diagnostics ≠ [] ∨ w'.report.errors ≠ []) := by
  have hreport : w.report = .fresh stream := report_of_cleanAll hclean
  have hmode' : w.report.stream.mode ≠ .stripped := by rw [hreport]; exact hmode
  obtain ⟨stream', hs', hcheck⟩ | ⟨hs, -⟩ := checkAll_cases entries w
  swap
  · exact absurd hs hmode'
  have hs : stream'.mode = stream.mode := by rw [hs', hreport]; rfl
  have hquiet := quiet_attemptAll hmode hw w.disk
  -- The report in which the entries without sources are recorded.
  generalize hr : { recordMissing (missing w.disk entries) w.report with stream := stream' } = r
    at hcheck
  have hrs : r.stream = stream' := by rw [← hr]
  have hsound : r.Sound := by
    simp [← hr, Report.Sound, recordMissing, hreport, Report.fresh, List.isEmpty_eq_false_iff]
  have hcount : r.processed + r.copied + r.skipped + r.errors.length =
      (missing w.disk entries).length := by
    simp [← hr, recordMissing, hreport, Report.fresh]
  obtain ⟨-, stream'', -, hperform⟩ | ⟨hnot, -⟩ :=
    @performAll_cases settings (tasks w.disk entries) ⟨w.disk, r⟩
  swap
  · simp only [hrs, hs] at hnot
    exact absurd hquiet hnot
  simp only [hrs, hs] at hperform
  generalize ha : attemptAll settings stream.mode (tasks w.disk entries) w.disk = a at hperform
  have hfst : a.1.map Prod.fst = tasks w.disk entries := ha ▸ map_fst_attemptAll _ _
  refine ⟨a.1, ⟨a.2, { recordAll a.1 r with stream := stream'' }⟩, ?_, rfl, hfst, ⟨stream'', ?_⟩, ?_, ?_⟩
  · rw [run_eq, hclean]
    simp only
    rw [hcheck]
    exact hperform
  · rw [← hr, hreport, recordAll_stream]
  · have length := congrArg List.length hfst
    rw [List.length_map] at length
    exact (handled_recordAll a.1 r).trans (by omega)
  · exact sound_recordAll hsound _

/-- A disk with one file, below one directory. -/
def loneFile : Disk := ⟨[("s".toText, .directory [("x".toText, .file .empty)])], []⟩

/-- The entry of the directory, and one whose directory of sources is not there. -/
def loneEntries : List Entry := [⟨"s".toText, "g".toText, none⟩, ⟨"t".toText, "h".toText, none⟩]

/-- Every file is copied. -/
def copying : Settings := ⟨.empty, .empty, .identity, false⟩

theorem tasks_loneFile :
    tasks loneFile loneEntries = [⟨⟨"s".toText, "g".toText, none⟩, "x".toText⟩] := by
  decide +kernel

theorem missing_loneFile : missing loneFile loneEntries = [⟨"t".toText, "h".toText, none⟩] := by
  decide +kernel

theorem run_accounts_loneFile : ∃ (trail : List (Task × Outcome)) (w : Workspace),
    run copying true loneEntries ⟨loneFile, .fresh (.fresh .plain)⟩ = .ok () w ∧
      trail.map Prod.fst = tasks loneFile loneEntries ∧
      w.report.processed + w.report.copied + w.report.skipped + w.report.errors.length = 1 + 1 ∧
      (w.report.failed = true ↔ w.report.diagnostics ≠ [] ∨ w.report.errors ≠ []) := by
  have hw : ∀ t ∈ tasks loneFile loneEntries,
      copying.keywords.keywordsFor (Path.base t.source) = none → Writable t := by
    intro t ht _
    rw [tasks_loneFile, List.mem_singleton] at ht
    subst ht
    exact ⟨by decide, by decide, by decide⟩
  obtain ⟨trail, w, hrun, -, hmap, -, hcount, hfailed⟩ :=
    @run_accounts copying true loneEntries loneFile (.fresh .plain)
      ⟨loneFile, .fresh (.fresh .plain)⟩ (by decide) rfl hw
  rw [missing_loneFile, tasks_loneFile] at hcount
  exact ⟨trail, w, hrun, hmap, hcount, hfailed⟩

end Multiversion.Run
