import Multiversion.Proofs.Run.Accounting

/-! A run that records no failure.

Failures are only added to a report, so a run that ends without one has not had one on the
way. Then no entry was without sources, and every file was done when its turn came: the
overwrites had it, it was copied, or it was converted (`allDone_of_performAll`). -/
namespace Multiversion.Run

variable {settings : Settings}

/-- Working on a file is done, and nothing failed. -/
inductive Done (settings : Settings) (t : Task) (w : Workspace) : Workspace → Prop
  /-- The overwrites have it. -/
  | skipped : t.overwritten w.disk = true →
      Done settings t w { w with report := w.report.addSkipped }
  | copied {disk : Disk} : t.overwritten w.disk = false →
      settings.keywords.keywordsFor (Path.base t.source) = none →
      copyFile t.source t.target w.disk = .ok () disk →
      Done settings t w ⟨disk, w.report.addCopied⟩
  | processed {k : Keywords} {w' : Workspace} : t.overwritten w.disk = false →
      settings.keywords.keywordsFor (Path.base t.source) = some k →
      SourceFile.convert settings.environment k settings.remap t.source t.target w = .ok () w' →
      Done settings t w w'

/-- Files are done, one after the other. -/
inductive AllDone (settings : Settings) : List Task → Workspace → Workspace → Prop
  | nil {w : Workspace} : AllDone settings [] w w
  | cons {t : Task} {rest : List Task} {w w₁ w' : Workspace} :
      Done settings t w w₁ → AllDone settings rest w₁ w' → AllDone settings (t :: rest) w w'

/-! ### Tallies -/

/-- A file that is done is in one of three tallies. -/
theorem Done.tally {t : Task} {w w' : Workspace} (h : Done settings t w w') :
    w'.report.processed + w'.report.copied + w'.report.skipped =
      w.report.processed + w.report.copied + w.report.skipped + 1 := by
  cases h with
  | skipped _ => rfl
  | copied _ _ _ =>
    simp only [Report.addCopied]
    omega
  | @processed k w' _ _ hconvert =>
    obtain ⟨stream, -, h⟩ := @convert_cases settings k t w
    rw [h] at hconvert
    simp only at hconvert
    split at hconvert
    · cases hconvert
      simp only [Report.addProcessed, withDiagnostics]
      omega
    · contradiction

theorem AllDone.tally {ts : List Task} {w w' : Workspace} (h : AllDone settings ts w w') :
    w'.report.processed + w'.report.copied + w'.report.skipped =
      w.report.processed + w.report.copied + w.report.skipped + ts.length := by
  induction h with
  | nil => rfl
  | cons hdone _ ih =>
    rw [ih, hdone.tally, List.length_cons]
    omega

/-! ### No failure on the way -/

theorem errors_of_recordFailure {file : Text} {failure : Failure} {w w' : Workspace}
    (h : recordFailure file failure w = .ok () w') : w'.report.errors ≠ [] := by
  obtain ⟨-, stream, -, hrecord⟩ | ⟨-, e, w₁, hrecord⟩ := recordFailure_cases file failure w
  · rw [h] at hrecord
    cases hrecord
    simp
  · rw [h] at hrecord
    contradiction

/-- What failed before files are worked on has failed after that as well. -/
theorem errors_of_performAll {ts : List Task} {w w' : Workspace}
    (h : performAll settings ts w = .ok () w') (he : w'.report.errors = []) :
    w.report.errors = [] := by
  obtain ⟨-, stream, -, hall⟩ | ⟨-, e, w₁, hall⟩ := @performAll_cases settings ts w
  · rw [h] at hall
    cases hall
    rw [recordAll_eq] at he
    exact (List.append_eq_nil_iff.1 he).1
  · rw [h] at hall
    contradiction

theorem done_of_perform {t : Task} {w w' : Workspace} (h : perform settings t w = .ok () w')
    (he : w'.report.errors = []) : Done settings t w w' := by
  unfold perform at h
  split at h
  · next hover =>
    cases h
    exact .skipped hover
  next hover =>
  split at h
  · next hkeywords =>
    split at h
    · next hcopy =>
      cases h
      exact .copied (Bool.of_not_eq_true hover) hkeywords hcopy
    · split at h
      · exact absurd he (errors_of_recordFailure h)
      · contradiction
  · next k hkeywords =>
    split at h
    · next hconvert =>
      cases h
      exact .processed (Bool.of_not_eq_true hover) hkeywords hconvert
    · exact absurd he (errors_of_recordFailure h)

/-- If working on files ends without a failure, all of them are done. -/
theorem allDone_of_performAll {ts : List Task} {w w' : Workspace}
    (h : performAll settings ts w = .ok () w') (he : w'.report.errors = []) :
    AllDone settings ts w w' := by
  induction ts generalizing w with
  | nil =>
    cases h
    exact .nil
  | cons t rest ih =>
    simp only [performAll] at h
    split at h
    · next hperform =>
      -- The report has no failure behind the first file, as it has none at the end.
      exact .cons (done_of_perform hperform (errors_of_performAll h he)) (ih h)
    · split at h
      · split at h <;> contradiction
      · contradiction

/-- Checking entries that all have sources changes nothing. -/
theorem checkAll_eq {entries : List Entry} {w : Workspace}
    (h : ∀ entry ∈ entries, w.disk.isDirectory entry.source = true) :
    entries.forM checkEntry w = .ok () w := by
  induction entries with
  | nil => rfl
  | cons entry rest ih =>
    obtain ⟨hentry, hrest⟩ := List.forall_mem_cons.1 h
    have hcheck : checkEntry entry w = .ok () w := by
      simp only [checkEntry, bind, EStateM.bind, get, getThe, MonadStateOf.get, get_eq, hentry]
      rfl
    rw [forM_cons_eq, hcheck]
    exact ih hrest

theorem sources_of_checkAll {entries : List Entry} {w w' : Workspace}
    (h : entries.forM checkEntry w = .ok () w') (he : w'.report.errors = []) :
    ∀ entry ∈ entries, w.disk.isDirectory entry.source = true := by
  obtain ⟨stream, -, hall⟩ | ⟨-, e, w₁, hall⟩ := checkAll_cases entries w
  · rw [h] at hall
    cases hall
    have hmissing : missing w.disk entries = [] :=
      List.map_eq_nil_iff.1 (List.append_eq_nil_iff.1 he).2
    intro entry hentry
    by_contra hdirectory
    exact List.filter_eq_nil_iff.1 hmissing entry hentry (by simp [hdirectory])
  · rw [h] at hall
    contradiction

/-! ### A run -/

/-- A run that ends without a failure has found the sources of every entry once it had
cleaned, and has done every file that was there then. -/
theorem allDone_of_run {clean : Bool} {entries : List Entry} {w w' : Workspace}
    (h : run settings clean entries w = .ok () w') (he : w'.report.errors = []) :
    ∃ w₁, cleanAll clean entries w = .ok () w₁ ∧
      (∀ entry ∈ entries, w₁.disk.isDirectory entry.source = true) ∧
      AllDone settings (tasks w₁.disk entries) w₁ w' := by
  rw [run_eq] at h
  split at h
  · contradiction
  next w₁ hclean =>
  split at h
  · contradiction
  next w₂ hcheck =>
  have hsources := sources_of_checkAll hcheck (errors_of_performAll h he)
  rw [checkAll_eq hsources] at hcheck
  cases hcheck
  exact ⟨w₁, hclean, hsources, allDone_of_performAll h he⟩

/-- A run keeps its report sound. -/
theorem sound_of_run {clean : Bool} {entries : List Entry} {w w' : Workspace}
    (hsound : w.report.Sound) (h : run settings clean entries w = .ok () w') :
    w'.report.Sound := by
  obtain ⟨w₁, trail, -, -, -, stream, hreport⟩ := run_trail h
  have hmissing : (recordMissing (missing w₁.disk entries) w.report).Sound := by
    unfold Report.Sound at hsound ⊢
    simp only [recordMissing, Bool.or_eq_true, hsound]
    cases missing w₁.disk entries <;> simp
  rw [hreport]
  exact sound_recordAll hmissing trail

end Multiversion.Run
