import Multiversion.Proofs.Disk.Writing
import Multiversion.Proofs.Run.Outcome

/-! Working on one file, apart from the report.

What a file comes to, and what that does to the disk, depends on the disk and on what
can be printed, and not on what the report holds already: `attempt` computes it, and
working on the file is attempting it and recording the outcome (`perform_cases`). A
conversion depends on the content of its source alone up to the point where it is
written (`produce`). So a run is what its attempts come to, one after the other, with the
outcomes recorded in order (`performAll_cases`). -/
namespace Multiversion

namespace SourceFile

/-- Storing a document is writing its bytes, or leaving an empty file if it has none. -/
theorem store_eq (path : Text) (document : Document) (d : Disk) :
    store path document d =
      match Utf8.encode document.toText with
      | .ok content => Disk.install path content d
      | .error halves =>
        match Disk.install path .empty d with
        | .ok _ d => .error (.unencodable halves) d
        | .error e d => .error e d := by
  cases he : Utf8.encode document.toText with
  | ok content => simp only [store, Disk.install, Disk.writeText, he]
  | error halves =>
    simp only [store, Disk.install, Disk.writeText, he, bind, throw, throwThe,
      MonadExceptOf.throw]
    split
    · cases hm : Disk.makeDirectories (Path.parent path) d with
      | error e d => simp only [EStateM.bind, hm]
      | ok u d =>
        simp only [EStateM.bind, hm]
        cases Disk.write path .empty d <;> rfl
    · simp only [EStateM.bind]
      cases Disk.write path .empty d <;> rfl

end SourceFile

namespace Run

theorem copyFile_eq (source target : Text) (d : Disk) :
    copyFile source target d =
      match Disk.makeDirectories (Path.parent target) d with
      | .ok _ d => Disk.copy source target d
      | .error e d => .error e d := by
  simp only [copyFile, bind, EStateM.bind]
  cases Disk.makeDirectories (Path.parent target) d <;> rfl

variable (settings : Settings) (mode : Terminal.Mode)

/-- The diagnostics of a conversion that come to be recorded, and its text or why there
is none. -/
def produce (k : Keywords) (source : Text) (content : ByteArray) :
    List Diagnostic × Except Failure Text :=
  match Utf8.decode content with
  | .error fault => ([], .error (.encoding fault))
  | .ok text =>
    let document := Document.ofText text
    match SourceFile.remapLines settings.remap document.lines with
    | .error failure => ([], .error failure)
    | .ok lines =>
      let outcome := Source.convert k ⟨settings.environment, source⟩ lines
      (Report.announced mode outcome.diagnostics,
        if Report.printsAll mode outcome.diagnostics then
          match outcome.result with
          | .error e => .error (.source e)
          | .ok text => .ok { document with lines := text }.toText
        else .error (.terminal .noTitle))

/-- What copying a file comes to, and what it leaves behind. -/
def attemptCopy (t : Task) (d : Disk) : Outcome × Disk :=
  match copyFile t.source t.target d with
  | .ok _ d => (.copied, d)
  | .error e d => (.uncopied e, d)

/-- What converting a file comes to, and what it leaves behind. -/
def attemptConversion (k : Keywords) (t : Task) (d : Disk) : Outcome × Disk :=
  match d.read t.source with
  | .error e => (.unconverted [] (.disk e), d)
  | .ok content =>
    match produce settings mode k t.source content with
    | (ds, .error failure) => (.unconverted ds failure, d)
    | (ds, .ok text) =>
      match Utf8.encode text with
      | .ok bytes =>
        match Disk.install t.target bytes d with
        | .ok _ d => (.converted ds, d)
        | .error e d => (.unconverted ds (.disk e), d)
      | .error halves =>
        match Disk.install t.target .empty d with
        | .ok _ d => (.emptied ds halves, d)
        | .error e d => (.unconverted ds (.disk e), d)

/-- What a task comes to, and what it leaves behind. -/
def attempt (t : Task) (d : Disk) : Outcome × Disk :=
  if t.overwritten d then (.skipped, d)
  else
    match settings.keywords.keywordsFor (Path.base t.source) with
    | none => attemptCopy t d
    | some k => attemptConversion settings mode k t d

variable {settings mode}

theorem recordFailure_cases (file : Text) (failure : Failure) (w : Workspace) :
    let f : FileFailure := ⟨file, failure.message file⟩
    w.report.stream.mode.prints (f.render (w.report.stream.mode = .coloured)) = true ∧
        (∃ stream, stream.mode = w.report.stream.mode ∧
          recordFailure file failure w =
            .ok () { w with report := { w.report with
              errors := w.report.errors ++ [f], failed := true, stream } }) ∨
      w.report.stream.mode.prints (f.render (w.report.stream.mode = .coloured)) = false ∧
        ∃ e w', recordFailure file failure w = .error e w' := by
  intro f
  have printed := Report.print_cases (f.render (w.report.stream.mode = .coloured))
    { w.report with errors := w.report.errors ++ [f], failed := true }
  unfold recordFailure
  rw [Report.addError_eq]
  rcases printed with ⟨hp, stream, hmode, h⟩ | ⟨hp, h⟩
  · exact .inl ⟨hp, stream, hmode, by rw [h]⟩
  · exact .inr ⟨hp, _, _, by rw [h]⟩

/-- The report with diagnostics recorded, and what has been printed by then. -/
def withDiagnostics (ds : List Diagnostic) (stream : Terminal.Stream) (r : Report) : Report :=
  { r with diagnostics := r.diagnostics ++ ds, failed := r.failed || !ds.isEmpty, stream }

theorem isEmpty_announced (mode : Terminal.Mode) (ds : List Diagnostic) :
    (Report.announced mode ds).isEmpty = ds.isEmpty := by
  cases ds with
  | nil => rfl
  | cons d rest =>
    simp only [Report.announced]
    split <;> rfl

theorem convert_cases (k : Keywords) (t : Task) (w : Workspace) :
    let a := attemptConversion settings w.report.stream.mode k t w.disk
    ∃ stream, stream.mode = w.report.stream.mode ∧
      SourceFile.convert settings.environment k settings.remap t.source t.target w =
        let report := withDiagnostics a.1.diagnostics stream w.report
        match a.1.failure? with
        | none => .ok () ⟨a.2, report.addProcessed⟩
        | some failure => .error failure ⟨a.2, report⟩ := by
  have unchanged : withDiagnostics [] w.report.stream w.report = w.report := by
    simp [withDiagnostics]
  intro a
  simp only [a, attemptConversion, SourceFile.convert, SourceFile.load, produce]
  cases w.disk.read t.source with
  | error e => exact ⟨w.report.stream, rfl, by simp [Outcome.diagnostics, Outcome.failure?, unchanged]⟩
  | ok content =>
    cases hd : Utf8.decode content with
    | error fault =>
      exact ⟨w.report.stream, rfl, by simp [hd, Outcome.diagnostics, Outcome.failure?, unchanged]⟩
    | ok original =>
      simp only [hd]
      cases hr : SourceFile.remapLines settings.remap (Document.ofText original).lines with
      | error failure =>
        exact ⟨w.report.stream, rfl, by simp [Outcome.diagnostics, Outcome.failure?, unchanged]⟩
      | ok lines =>
        simp only [Workspace.onReport]
        generalize Source.convert k ⟨settings.environment, t.source⟩ lines = outcome
        obtain ⟨stream, hmode, hadd⟩ := Report.addDiagnostics_cases outcome.diagnostics w.report
        refine ⟨stream, hmode, ?_⟩
        rw [hadd]
        cases hp : Report.printsAll w.report.stream.mode outcome.diagnostics with
        | false => simp [Outcome.diagnostics, Outcome.failure?, withDiagnostics, isEmpty_announced]
        | true =>
          simp only [if_true]
          cases outcome.result with
          | error e => simp [Outcome.diagnostics, Outcome.failure?, withDiagnostics, isEmpty_announced]
          | ok text =>
            simp only [Workspace.onDisk, SourceFile.store_eq]
            cases Utf8.encode { Document.ofText original with lines := text }.toText with
            | ok bytes =>
              cases hi : Disk.install t.target bytes w.disk <;>
                simp [hi, Outcome.diagnostics, Outcome.failure?, withDiagnostics, isEmpty_announced]
            | error halves =>
              cases Disk.install t.target .empty w.disk <;>
                simp [Outcome.diagnostics, Outcome.failure?, withDiagnostics, isEmpty_announced]

/-- Recording a failure behind its diagnostics is recording the outcome. -/
theorem record_failure (file : Text) {o : Outcome} {failure : Failure}
    (ho : o.failure? = some failure) (he : ∀ e, o = .uncopied e → e.isRefusal = true) (d : Disk)
    {r : Report} {stream : Terminal.Stream} (hmode : stream.mode = r.stream.mode) :
    o.escapes r.stream.mode file = false ∧
        (∃ stream', stream'.mode = r.stream.mode ∧
          recordFailure file failure ⟨d, withDiagnostics o.diagnostics stream r⟩ =
            .ok () ⟨d, { o.record file r with stream := stream' }⟩) ∨
      o.escapes r.stream.mode file = true ∧
        ∃ e w', recordFailure file failure ⟨d, withDiagnostics o.diagnostics stream r⟩ = .error e w' := by
  have recorded := recordFailure_cases file failure ⟨d, withDiagnostics o.diagnostics stream r⟩
  simp only [withDiagnostics, hmode] at recorded
  have hescapes : o.escapes r.stream.mode file =
      !r.stream.mode.prints ((FileFailure.mk file (failure.message file)).render
        (r.stream.mode = .coloured)) := by
    cases o <;> simp_all [Outcome.escapes, Outcome.error?, Outcome.failure?]
  rcases recorded with ⟨hp, stream', hmode', h⟩ | ⟨hp, h⟩
  · refine .inl ⟨by rw [hescapes, hp]; rfl, stream', hmode', ?_⟩
    rw [withDiagnostics, h]
    cases o <;> simp_all [Outcome.record, Outcome.error?, Outcome.failure?]
  · exact .inr ⟨by rw [hescapes, hp]; rfl, h⟩

theorem attemptConversion_kind (settings : Settings) (mode : Terminal.Mode) (k : Keywords)
    (t : Task) (d : Disk) :
    (∃ ds, (attemptConversion settings mode k t d).1 = .converted ds) ∨
      ∃ failure, (attemptConversion settings mode k t d).1.failure? = some failure ∧
        ∀ e, (attemptConversion settings mode k t d).1 ≠ .uncopied e := by
  unfold attemptConversion
  repeat' split
  all_goals first | exact .inl ⟨_, rfl⟩ | exact .inr ⟨_, rfl, nofun⟩

/-- Working on a file is attempting it and recording the outcome, unless that escapes. -/
theorem perform_cases (t : Task) (w : Workspace) :
    let a := attempt settings w.report.stream.mode t w.disk
    a.1.escapes w.report.stream.mode t.source = false ∧
        (∃ stream, stream.mode = w.report.stream.mode ∧
          perform settings t w = .ok () ⟨a.2, { a.1.record t.source w.report with stream }⟩) ∨
      a.1.escapes w.report.stream.mode t.source = true ∧
        ∃ e w', perform settings t w = .error e w' := by
  intro a
  simp only [a, attempt, perform]
  split
  · exact .inl ⟨rfl, w.report.stream, rfl, by
      simp [Report.addSkipped, Outcome.record, Outcome.diagnostics, Outcome.error?, Outcome.failure?]⟩
  cases settings.keywords.keywordsFor (Path.base t.source) with
  | none =>
    simp only [attemptCopy]
    cases copyFile t.source t.target w.disk with
    | ok u d =>
      exact .inl ⟨rfl, w.report.stream, rfl, by
        simp [Report.addCopied, Outcome.record, Outcome.diagnostics, Outcome.error?, Outcome.failure?]⟩
    | error e d =>
      cases hr : e.isRefusal with
      | false => exact .inr ⟨by simp [Outcome.escapes, Outcome.error?, Outcome.failure?, hr], by simp [hr]⟩
      | true =>
        have recorded := @record_failure t.source (.uncopied e) (.disk e) rfl
          (by rintro e' ⟨⟩; exact hr) d w.report w.report.stream rfl
        simpa [hr, withDiagnostics, Outcome.diagnostics] using recorded
  | some k =>
    obtain ⟨stream, hmode, h⟩ := @convert_cases settings k t w
    simp only at h ⊢
    rw [h]
    have hkind := attemptConversion_kind settings w.report.stream.mode k t w.disk
    generalize attemptConversion settings w.report.stream.mode k t w.disk = a at hkind ⊢
    obtain ⟨o, d⟩ := a
    obtain ⟨ds, rfl⟩ | ⟨failure, hf, hne⟩ := hkind
    · refine .inl ⟨rfl, stream, hmode, ?_⟩
      simp [Outcome.failure?, Outcome.record, Outcome.diagnostics, Outcome.error?, withDiagnostics,
        Report.addProcessed]
    · have recorded := record_failure t.source hf (fun e he => absurd he (hne e)) d hmode
      simpa [show o.failure? = some failure from hf] using recorded

/-! ### All files -/

variable (settings mode) in
/-- The tasks with what they come to, one after the other, and what they leave behind. -/
def attemptAll : List Task → Disk → List (Task × Outcome) × Disk
  | [], d => ([], d)
  | t :: rest, d =>
    let (o, d) := attempt settings mode t d
    let (trail, d) := attemptAll rest d
    ((t, o) :: trail, d)

/-- The report with outcomes recorded in order, printing left out. -/
def recordAll (trail : List (Task × Outcome)) (r : Report) : Report :=
  trail.foldl (fun r (t, o) => o.record t.source r) r

/-- No outcome ends the run. -/
def Quiet (mode : Terminal.Mode) (trail : List (Task × Outcome)) : Prop :=
  ∀ p ∈ trail, p.2.escapes mode p.1.source = false

theorem attemptAll_cons (t : Task) (rest : List Task) (d : Disk) :
    attemptAll settings mode (t :: rest) d =
      let a := attempt settings mode t d
      let b := attemptAll settings mode rest a.2
      ((t, a.1) :: b.1, b.2) := rfl

/-- Every task is attempted, once and in order. -/
@[simp] theorem map_fst_attemptAll (ts : List Task) (d : Disk) :
    (attemptAll settings mode ts d).1.map Prod.fst = ts := by
  induction ts generalizing d with
  | nil => rfl
  | cons t rest ih => simp [attemptAll_cons, ih]

theorem recordAll_stream (trail : List (Task × Outcome)) (r : Report) (stream : Terminal.Stream) :
    recordAll trail { r with stream } = { recordAll trail r with stream } := by
  induction trail generalizing r with
  | nil => rfl
  | cons p rest ih => exact ih (p.2.record p.1.source r)

/-- Working on files is attempting them one after the other and recording what they come
to, unless something escapes. -/
theorem performAll_cases (ts : List Task) (w : Workspace) :
    let a := attemptAll settings w.report.stream.mode ts w.disk
    Quiet w.report.stream.mode a.1 ∧
        (∃ stream, stream.mode = w.report.stream.mode ∧
          performAll settings ts w = .ok () ⟨a.2, { recordAll a.1 w.report with stream }⟩) ∨
      ¬ Quiet w.report.stream.mode a.1 ∧ ∃ e w', performAll settings ts w = .error e w' := by
  induction ts generalizing w with
  | nil => exact .inl ⟨by simp [Quiet, attemptAll], w.report.stream, rfl, rfl⟩
  | cons t rest ih =>
    simp only [performAll, attemptAll_cons]
    obtain ⟨hq, stream, hmode, h⟩ | ⟨hq, e, w', h⟩ := @perform_cases settings t w
    · rw [h]
      have step := ih ⟨(attempt settings w.report.stream.mode t w.disk).2,
        { (attempt settings w.report.stream.mode t w.disk).1.record t.source w.report with stream }⟩
      simp only [hmode] at step
      rcases step with ⟨hq', stream', hmode', h'⟩ | ⟨hq', h'⟩
      · refine .inl ⟨List.forall_mem_cons.2 ⟨hq, hq'⟩, stream', hmode', ?_⟩
        refine h'.trans ?_
        rw [recordAll_stream]
        rfl
      · exact .inr ⟨fun h => hq' (List.forall_mem_cons.1 h).2, h'⟩
    · refine .inr ⟨fun hall => ?_, ?_⟩
      · rw [(List.forall_mem_cons.1 hall).1] at hq
        contradiction
      · rw [h]
        simp only
        split
        · split <;> exact ⟨_, _, rfl⟩
        · exact ⟨_, _, rfl⟩

/-- What outcomes add to a report, taken together. -/
theorem recordAll_eq (trail : List (Task × Outcome)) (r : Report) :
    recordAll trail r = { r with
      diagnostics := r.diagnostics ++ trail.flatMap fun p => p.2.diagnostics
      errors := r.errors ++ trail.filterMap fun p => p.2.error? p.1.source
      processed := r.processed + trail.countP fun p => p.2 matches .converted _
      copied := r.copied + trail.countP fun p => p.2 matches .copied
      skipped := r.skipped + trail.countP fun p => p.2 matches .skipped
      failed := r.failed || trail.any fun p => !p.2.diagnostics.isEmpty || p.2.failure?.isSome } := by
  induction trail generalizing r with
  | nil => simp [recordAll]
  | cons p rest ih =>
    have step : recordAll (p :: rest) r = recordAll rest (p.2.record p.1.source r) := rfl
    rw [step, ih]
    obtain ⟨t, o⟩ := p
    cases o <;>
      simp [Outcome.record, Outcome.error?, Outcome.failure?, Outcome.diagnostics, Bool.or_assoc,
        Nat.add_assoc, Nat.add_comm 1]

/-! ### A run -/

/-- Removes the generated directories, if that is asked for. -/
def cleanAll (clean : Bool) (entries : List Entry) : Action Unit :=
  if clean then entries.forM cleanEntry else pure ()

/-- The entries whose directory of sources is not there. -/
def missing (d : Disk) (entries : List Entry) : List Entry :=
  entries.filter fun entry => !d.isDirectory entry.source

/-- The report with entries recorded that have no sources, printing left out. -/
def recordMissing (entries : List Entry) (r : Report) : Report :=
  { r with
    errors := r.errors ++ entries.map fun entry => ⟨entry.source, Failure.noSource.message entry.source⟩
    failed := r.failed || !entries.isEmpty }

theorem checkAll_cases (entries : List Entry) (w : Workspace) :
    (∃ stream, stream.mode = w.report.stream.mode ∧
        entries.forM checkEntry w =
          .ok () { w with report := { recordMissing (missing w.disk entries) w.report with stream } }) ∨
      w.report.stream.mode = .stripped ∧ ∃ e w', entries.forM checkEntry w = .error e w' := by
  induction entries generalizing w with
  | nil => exact .inl ⟨w.report.stream, rfl, by simp [missing, recordMissing]; rfl⟩
  | cons entry rest ih =>
    have first : checkEntry entry w =
        if w.disk.isDirectory entry.source then .ok () w else recordFailure entry.source .noSource w := by
      simp only [checkEntry, bind, EStateM.bind, get, getThe, MonadStateOf.get, get_eq]
      split <;> rfl
    rw [forM_cons_eq, first]
    cases hd : w.disk.isDirectory entry.source with
    | true => 
      have same : missing w.disk (entry :: rest) = missing w.disk rest := by simp [missing, hd]
      rw [same]
      exact ih w
    | false => 
      have more : missing w.disk (entry :: rest) = entry :: missing w.disk rest := by
        simp [missing, hd]
      rw [more]
      simp only [Bool.false_eq_true, if_false]
      obtain ⟨hp, stream, hmode, h⟩ | ⟨hp, e, w', h⟩ := recordFailure_cases entry.source .noSource w
      · rw [h]
        have step := ih { w with report := { w.report with
          errors := w.report.errors ++ [⟨entry.source, Failure.noSource.message entry.source⟩]
          failed := true
          stream } }
        simp only [hmode] at step
        refine step.imp_left fun ⟨stream', hmode', h'⟩ => ⟨stream', hmode', h'.trans ?_⟩
        simp [recordMissing]
      · refine .inr ⟨?_, e, w', by rw [h]⟩
        by_contra hm
        rw [Terminal.Mode.prints_of_ne_stripped hm] at hp
        contradiction

/-- Removing the generated directories records nothing. -/
theorem report_of_cleanAll {clean : Bool} {entries : List Entry} {w w' : Workspace}
    (h : cleanAll clean entries w = .ok () w') : w'.report = w.report := by
  unfold cleanAll at h
  split at h
  · induction entries generalizing w with
    | nil =>
      cases h
      rfl
    | cons entry rest ih =>
      rw [forM_cons_eq] at h
      split at h
      · next hc =>
        refine (ih h).trans ?_
        unfold cleanEntry at hc
        split at hc
        · split at hc
          · cases hc
            rfl
          · contradiction
        · cases hc
          rfl
      · contradiction
  · cases h
    rfl

/-- A run is cleaning, checking the entries, and working on the files that are found
then. -/
theorem run_eq (settings : Settings) (clean : Bool) (entries : List Entry) (w : Workspace) :
    run settings clean entries w =
      match cleanAll clean entries w with
      | .error e w => .error e w
      | .ok _ w =>
        match entries.forM checkEntry w with
        | .error e w => .error e w
        | .ok _ w => performAll settings (tasks w.disk entries) w := by
  have checked (w : Workspace) : (do
      entries.forM checkEntry
      let w ← get
      performAll settings (tasks w.disk entries) : Action Unit) w =
        match entries.forM checkEntry w with
        | .error e w => .error e w
        | .ok _ w => performAll settings (tasks w.disk entries) w := by
    simp only [bind, EStateM.bind]
    cases entries.forM checkEntry w <;> rfl
  cases clean with
  | false => exact checked w
  | true =>
    simp only [run, cleanAll, if_true, bind, EStateM.bind]
    cases entries.forM cleanEntry w with
    | error e w => rfl
    | ok u w => exact checked w

/-- A run that ends has attempted the files that were there once it had cleaned, one after
the other, and has recorded what they came to. -/
theorem run_trail {settings : Settings} {clean : Bool} {entries : List Entry} {w w' : Workspace}
    (h : run settings clean entries w = .ok () w') :
    ∃ w₁ trail, cleanAll clean entries w = .ok () w₁ ∧
      attemptAll settings w.report.stream.mode (tasks w₁.disk entries) w₁.disk = (trail, w'.disk) ∧
      Quiet w.report.stream.mode trail ∧
      ∃ stream, w'.report =
        { recordAll trail (recordMissing (missing w₁.disk entries) w.report) with stream } := by
  rw [run_eq] at h
  split at h
  · contradiction
  next w₁ hclean =>
  split at h
  · contradiction
  next w₂ hcheck =>
  have hreport := report_of_cleanAll hclean
  obtain ⟨stream, hmode, hcheck'⟩ | ⟨-, e, w₃, hcheck'⟩ := checkAll_cases entries w₁
  · rw [hcheck] at hcheck'
    cases hcheck'
    rw [hreport] at hmode
    obtain ⟨hquiet, stream', -, hperform⟩ | ⟨-, e, w₃, hperform⟩ :=
      @performAll_cases settings (tasks w₁.disk entries)
        ⟨w₁.disk, { recordMissing (missing w₁.disk entries) w₁.report with stream }⟩
    · simp only [hmode] at hquiet hperform
      have same := hperform.symm.trans h
      cases same
      refine ⟨w₁, _, hclean, rfl, hquiet, stream', ?_⟩
      rw [recordAll_stream, hreport]
    · have same := hperform.symm.trans h
      contradiction
  · rw [hcheck] at hcheck'
    contradiction

end Run

end Multiversion
