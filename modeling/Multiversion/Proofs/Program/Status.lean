import Mathlib
import Multiversion.Program
import Multiversion.Proofs.Run.Success

/-! What the exit status says.

The program ends with a status in four ways (`Ending`): it was misused, asked for help, it
refused the configuration, or it finished a run. Only a run touches the disk, and there is
a run only for a plan that is free of problems; so status 2 and help leave the disk as it
was (`run_status`). The report of the run decides between status 1 and status 0, and behind
status 0 every file below the directories of sources was done. -/
namespace Multiversion.Program
open CommandLine (Arguments)

/-! ### Printing -/

theorem disk_of_write {text : Text} {s s' : State} (h : write text s = .ok () s') :
    s'.disk = s.disk ∧ s'.stderr = s.stderr := by
  unfold write at h
  split at h
  · cases h
    exact ⟨rfl, rfl⟩
  · contradiction

theorem disk_of_writeError {text : Text} {s s' : State} (h : writeError text s = .ok () s') :
    s'.disk = s.disk := by
  unfold writeError at h
  split at h
  · cases h
    rfl
  · contradiction

theorem disk_of_print {line : Text} {s s' : State} (h : print line s = .ok () s') :
    s'.disk = s.disk ∧ s'.stderr = s.stderr := by
  obtain ⟨_, s₁, hline, hend⟩ := exists_of_bind_eq_ok h
  obtain ⟨hdisk, hstderr⟩ := disk_of_write hline
  obtain ⟨hdisk', hstderr'⟩ := disk_of_write hend
  exact ⟨hdisk'.trans hdisk, hstderr'.trans hstderr⟩

theorem disk_of_printError {line : Text} {s s' : State} (h : printError line s = .ok () s') :
    s'.disk = s.disk := by
  obtain ⟨_, s₁, hline, hend⟩ := exists_of_bind_eq_ok h
  exact (disk_of_writeError hend).trans (disk_of_writeError hline)

theorem refuse_cases {message : Text} {status : Nat} {s s' : State}
    (h : refuse message s = .ok status s') : status = 2 ∧ s'.disk = s.disk := by
  obtain ⟨_, s₁, hprint, hpure⟩ := exists_of_bind_eq_ok h
  cases hpure
  exact ⟨rfl, disk_of_printError hprint⟩

/-! ### The run -/

/-- What is the same for all files of the run that a plan asks for. -/
def Plan.settings (p : Plan) (a : Arguments) : Run.Settings where
  environment := p.config.environment
  keywords := p.config.keywords
  remap := p.remap
  parallel := a.jobs.any fun jobs => decide (1 < jobs)

/-- The report is saved, if that is asked for. -/
def Saved (a : Arguments) (r : Report) (d d' : Disk) : Prop :=
  match given a.report with
  | none => d' = d
  | some path => Disk.writeText path (r.toJson.pretty 0) d = .ok () d'

theorem saved_of_save {path : Text} {r : Report} {s s' : State}
    (h : save path r s = .ok () s') :
    Disk.writeText path (r.toJson.pretty 0) s.disk = .ok () s'.disk := by
  unfold save at h
  split at h
  · next hwrite =>
    cases h
    exact hwrite
  · contradiction

/-- What is printed at the end of a run, and the status. -/
def verdict (r : Report) : Action Nat :=
  if r.failed then do
    printError "Failed to preprocess sources. See errors above for details.".toText
    pure 1
  else do
    print (Terminal.green ++ summary r)
    pure 0

theorem verdict_cases {r : Report} {status : Nat} {s s' : State}
    (h : verdict r s = .ok status s') :
    s'.disk = s.disk ∧ status = if r.failed then 1 else 0 := by
  unfold verdict at h
  split at h
  · next hfailed =>
    obtain ⟨_, s₁, hprint, hpure⟩ := exists_of_bind_eq_ok h
    cases hpure
    exact ⟨disk_of_printError hprint, by rw [if_pos hfailed]⟩
  · next hfailed =>
    obtain ⟨_, s₁, hprint, hpure⟩ := exists_of_bind_eq_ok h
    cases hpure
    exact ⟨(disk_of_print hprint).1, by rw [if_neg hfailed]⟩

theorem preprocess_cases {p : Plan} {clean parallel : Bool} {r : Report} {s s' : State}
    (h : preprocess p clean parallel s = .ok r s') :
    ∃ w, Run.run ⟨p.config.environment, p.config.keywords, p.remap, parallel⟩ clean
        p.config.entries ⟨s.disk, .fresh s.stderr⟩ = .ok () w ∧
      r = w.report ∧ s'.disk = w.disk := by
  simp only [preprocess] at h
  split at h
  · next w hrun =>
    cases h
    exact ⟨w, hrun, rfl, rfl⟩
  · contradiction

/-- A plan that is carried out to a status has been run, and the report decides. -/
theorem execute_cases {a : Arguments} {p : Plan} {status : Nat} {s s' : State}
    (h : execute a p s = .ok status s') :
    ∃ w, Run.run (p.settings a) (!a.noClean) p.config.entries ⟨s.disk, .fresh s.stderr⟩ =
        .ok () w ∧
      Saved a w.report w.disk s'.disk ∧ status = if w.report.failed then 1 else 0 := by
  obtain ⟨_, s₁, hannounce, h⟩ := exists_of_bind_eq_ok h
  obtain ⟨hdisk, hstderr⟩ := disk_of_print hannounce
  cases hjobs : a.jobs with
  | none =>
    rw [hjobs] at h
    contradiction
  | some jobs =>
    rw [hjobs] at h
    obtain ⟨r, s₂, hpreprocess, h⟩ := exists_of_bind_eq_ok h
    obtain ⟨w, hrun, rfl, hw⟩ := preprocess_cases hpreprocess
    have hsettings : p.settings a =
        ⟨p.config.environment, p.config.keywords, p.remap, decide (1 < jobs)⟩ := by
      rw [Plan.settings, hjobs]
      rfl
    refine ⟨w, ?_, ?_⟩
    · rw [hsettings, ← hdisk, ← hstderr]
      exact hrun
    · rw [Saved]
      dsimp only at h
      cases hreport : given a.report with
      | none =>
        rw [hreport] at h
        obtain ⟨hend, hstatus⟩ := verdict_cases h
        exact ⟨hend.trans hw, hstatus⟩
      | some path =>
        rw [hreport] at h
        obtain ⟨_, s₃, hsave, h⟩ := exists_of_bind_eq_ok h
        obtain ⟨_, s₄, hprint, h⟩ := exists_of_bind_eq_ok h
        obtain ⟨hend, hstatus⟩ := verdict_cases h
        refine ⟨?_, hstatus⟩
        rw [hend, (disk_of_print hprint).1, ← hw]
        exact saved_of_save hsave

/-! ### The status -/

/-- The run of the plan that arguments ask for, on a disk, ends with a workspace. -/
structure Ran (library : List Extension) (a : Arguments) (d : Disk) (p : Plan) (w : Workspace) :
    Prop where
  planned : plan library d a = .ok p
  entries : p.config.entries ≠ []
  ended : Run.run (p.settings a) (!a.noClean) p.config.entries
    ⟨d, .fresh (.fresh .stripped)⟩ = .ok () w

/-- How the program can end: with which status, and with what on the disk. -/
inductive Ending (library : List Extension) (arguments : List Text) (d : Disk) :
    Nat → Disk → Prop
  | misused {refusal : CommandLine.Refusal} : CommandLine.read arguments = .error refusal →
      Ending library arguments d 2 d
  | helped : CommandLine.read arguments = .ok .help → Ending library arguments d 0 d
  | refused {a : Arguments} : CommandLine.read arguments = .ok (.run a) →
      Ending library arguments d 2 d
  | finished {a : Arguments} {p : Plan} {w : Workspace} {d' : Disk} :
      CommandLine.read arguments = .ok (.run a) → Ran library a d p w →
      Saved a w.report w.disk d' →
      Ending library arguments d (if w.report.failed then 1 else 0) d'

/-- Every way to a status that does not lead through a run only prints. -/
theorem ending_of_work {library : List Extension} {arguments : List Text} {d : Disk}
    {status : Nat} {s' : State}
    (h : work library arguments ⟨.fresh .stripped, .fresh .stripped, d⟩ = .ok status s') :
    Ending library arguments d status s'.disk := by
  unfold work at h
  cases hread : CommandLine.read arguments with
  | error refusal =>
    rw [hread] at h
    obtain ⟨_, s₁, husage, h⟩ := exists_of_bind_eq_ok h
    obtain ⟨_, s₂, hrefusal, h⟩ := exists_of_bind_eq_ok h
    cases h
    rw [disk_of_writeError hrefusal, disk_of_writeError husage]
    exact .misused hread
  | ok request =>
    rw [hread] at h
    cases request with
    | help =>
      obtain ⟨_, s₁, hhelp, h⟩ := exists_of_bind_eq_ok h
      cases h
      rw [(disk_of_write hhelp).1]
      exact .helped hread
    | run a =>
      obtain ⟨s, s₁, hget, h⟩ := exists_of_bind_eq_ok h
      cases hget
      dsimp only at h
      cases hplan : plan library d a with
      | error stop =>
        rw [hplan] at h
        cases stop with
        | refused message =>
          obtain ⟨rfl, hdisk⟩ := refuse_cases h
          rw [hdisk]
          exact .refused hread
        | escaped escape => contradiction
      | ok p =>
        rw [hplan] at h
        dsimp only at h
        split at h
        · obtain ⟨rfl, hdisk⟩ := refuse_cases h
          rw [hdisk]
          exact .refused hread
        · next hentries =>
          obtain ⟨w, hrun, hsaved, rfl⟩ := execute_cases h
          exact .finished hread ⟨hplan, by simpa using hentries, hrun⟩ hsaved

theorem ending_of_run {library : List Extension} {arguments : List Text} {d : Disk}
    {status : Nat} (h : (run library arguments d).status = .ok status) :
    Ending library arguments d status (run library arguments d).disk := by
  unfold run at h ⊢
  split at h
  · next hwork =>
    cases h
    exact ending_of_work hwork
  · contradiction

/-- The exit status tells the truth. Status 2 and the help leave the disk as it was. Behind
status 1 there is a run that has recorded a diagnostic or a failure. Behind status 0 there
is, unless help was asked for, a run that has recorded none: there were entries, the sources
of all of them were there after the cleaning, and every file that was then found below them
was left to the overwrites, copied or converted when its turn came. -/
theorem run_status {library : List Extension} {arguments : List Text} {d : Disk} {status : Nat}
    (h : (run library arguments d).status = .ok status) :
    status ≤ 2 ∧
    (status = 2 ∨ (∀ a, CommandLine.read arguments ≠ .ok (.run a)) →
      (run library arguments d).disk = d) ∧
    (status = 1 → ∃ a p w, CommandLine.read arguments = .ok (.run a) ∧ Ran library a d p w ∧
      Saved a w.report w.disk (run library arguments d).disk ∧
      (w.report.diagnostics ≠ [] ∨ w.report.errors ≠ [])) ∧
    (∀ a, CommandLine.read arguments = .ok (.run a) → status = 0 → ∃ p w w₁,
      Ran library a d p w ∧ Saved a w.report w.disk (run library arguments d).disk ∧
      w.report.diagnostics = [] ∧ w.report.errors = [] ∧ p.config.entries ≠ [] ∧
      Run.cleanAll (!a.noClean) p.config.entries ⟨d, .fresh (.fresh .stripped)⟩ = .ok () w₁ ∧
      (∀ entry ∈ p.config.entries, w₁.disk.isDirectory entry.source = true) ∧
      Run.AllDone (p.settings a) (Run.tasks w₁.disk p.config.entries) w₁ w ∧
      w.report.processed + w.report.copied + w.report.skipped =
        (Run.tasks w₁.disk p.config.entries).length) := by
  have hend := ending_of_run h
  generalize (run library arguments d).disk = d' at hend ⊢
  cases hend with
  | misused hread => simp [hread]
  | helped hread => simp [hread]
  | refused hread => simp
  | @finished a p w _ hread hran hsaved =>
    have hsound : w.report.Sound :=
      Run.sound_of_run (by simp [Report.Sound, Report.fresh]) hran.ended
    cases hfailed : w.report.failed with
    | true =>
      refine ⟨by simp, by simp [hread], fun _ => ?_, by simp⟩
      exact ⟨a, p, w, hread, hran, hsaved, hsound.1 hfailed⟩
    | false =>
      refine ⟨by simp, by simp [hread], by simp, fun a' hread' _ => ?_⟩
      obtain rfl : a = a' := by
        rw [hread] at hread'
        cases hread'
        rfl
      have hnone : ¬ (w.report.diagnostics ≠ [] ∨ w.report.errors ≠ []) :=
        hsound.not.1 (by simp [hfailed])
      simp only [not_or, not_not] at hnone
      obtain ⟨w₁, hclean, hsources, hdone⟩ := Run.allDone_of_run hran.ended hnone.2
      have htally := hdone.tally
      rw [Run.report_of_cleanAll hclean] at htally
      exact ⟨p, w, w₁, hran, hsaved, hnone.1, hnone.2, hran.entries, hclean, hsources, hdone,
        htally.trans (Nat.zero_add _)⟩

/-- On a disk with one file: a source without a place for results is refused, a source that
is not there is a failure, and the file is copied if both are given. -/
theorem run_status_loneFile :
    (run [] ["s".toText] Run.loneFile).disk = Run.loneFile ∧
    (∃ a p w, CommandLine.read ["t".toText, "g".toText] = .ok (.run a) ∧
      Ran [] a Run.loneFile p w ∧ (w.report.diagnostics ≠ [] ∨ w.report.errors ≠ [])) ∧
    ∃ a p w w₁, CommandLine.read ["s".toText, "g".toText] = .ok (.run a) ∧
      Ran [] a Run.loneFile p w ∧ w.report.errors = [] ∧
      Run.AllDone (p.settings a) (Run.tasks w₁.disk p.config.entries) w₁ w := by
  have hread₁ : CommandLine.read ["s".toText] =
      .ok (.run { Arguments.fresh with source := some "s".toText }) := by
    cbv
  have hread₂ : CommandLine.read ["t".toText, "g".toText] =
      .ok (.run { Arguments.fresh with source := some "t".toText, generated := some "g".toText }) := by
    cbv
  have hread : CommandLine.read ["s".toText, "g".toText] =
      .ok (.run { Arguments.fresh with source := some "s".toText, generated := some "g".toText }) := by
    cbv
  have hrefused : (run [] ["s".toText] Run.loneFile).status = .ok 2 := by
    simp only [run, work, hread₁]
    rfl
  have hfailed : (run [] ["t".toText, "g".toText] Run.loneFile).status = .ok 1 := by
    simp only [run, work, hread₂]
    rfl
  have hdone : (run [] ["s".toText, "g".toText] Run.loneFile).status = .ok 0 := by
    simp only [run, work, hread]
    cbv
  obtain ⟨-, hsame, -⟩ := run_status hrefused
  obtain ⟨-, -, hone, -⟩ := run_status hfailed
  obtain ⟨a, p, w, hargs, hran, -, hreport⟩ := hone rfl
  obtain ⟨-, -, -, hzero⟩ := run_status hdone
  obtain ⟨p', w', w₁, hran', -, -, herrors, -, -, -, hall, -⟩ := hzero _ hread rfl
  exact ⟨hsame (.inl rfl), ⟨a, p, w, hargs, hran, hreport⟩,
    _, p', w', w₁, hread, hran', herrors, hall⟩

end Multiversion.Program
