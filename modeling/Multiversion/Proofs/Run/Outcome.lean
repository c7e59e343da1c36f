import Multiversion.Run
import Multiversion.Proofs.Action

/-! What a file comes to, and how it is recorded.

An outcome is what became of one file of a run. Recording it adds to the report what
it says and nothing else (`Outcome.record`), one outcome to one of the four tallies
(`Outcome.handled_record`); a report that is sound counts as failed exactly when it holds a
diagnostic or a failure. Only what cannot be printed, or an error that is none of the
disk's own, escapes (`Outcome.escapes`). -/
namespace Multiversion

namespace Terminal

/-- A line that streams of a mode print. -/
def Mode.prints (mode : Mode) (line : Text) : Bool :=
  match mode with
  | .stripped => (strip line).isOk
  | _ => true

theorem Mode.prints_of_ne_stripped {mode : Mode} (h : mode ≠ .stripped) (line : Text) :
    mode.prints line = true := by
  cases mode <;> simp_all [prints]

end Terminal

namespace Report

theorem print_cases (line : Text) (r : Report) :
    r.stream.mode.prints line = true ∧
        (∃ stream, stream.mode = r.stream.mode ∧ print line r = .ok () { r with stream }) ∨
      r.stream.mode.prints line = false ∧ print line r = .error .noTitle r := by
  by_cases hm : r.stream.mode = .stripped
  · have newline : Terminal.strip "\n".toText = .ok "\n".toText := rfl
    rw [hm]
    cases hs : Terminal.strip line with
    | ok through =>
      refine .inl ⟨by simp [Terminal.Mode.prints, hs, Except.isOk, Except.toBool], ?_⟩
      refine ⟨⟨.stripped, r.stream.printed ++ through ++ "\n".toText⟩, rfl, ?_⟩
      simp [print, Terminal.Stream.writeLine, Terminal.Stream.write, hm, hs, newline, Except.map,
        Except.bind]
    | error fault =>
      refine .inr ⟨by simp [Terminal.Mode.prints, hs, Except.isOk, Except.toBool], ?_⟩
      simp [print, Terminal.Stream.writeLine, Terminal.Stream.write, hm, hs, Except.map, Except.bind]
  · exact .inl ⟨Terminal.Mode.prints_of_ne_stripped hm line,
      ⟨r.stream.mode, r.stream.printed ++ line ++ "\n".toText⟩, rfl, print_eq_ok line hm⟩

/-- The diagnostics that come to be recorded: up to the first one that cannot be printed,
which is recorded all the same. -/
def announced (mode : Terminal.Mode) : List Diagnostic → List Diagnostic
  | [] => []
  | d :: rest =>
    if mode.prints (d.render (mode = .coloured)) then d :: announced mode rest else [d]

/-- All of the diagnostics can be printed. -/
def printsAll (mode : Terminal.Mode) (ds : List Diagnostic) : Bool :=
  ds.all fun d => mode.prints (d.render (mode = .coloured))

theorem addDiagnostic_eq (d : Diagnostic) (r : Report) :
    addDiagnostic d r =
      print (d.render (r.stream.mode = .coloured))
        { r with diagnostics := r.diagnostics ++ [d], failed := true } := rfl

theorem addError_eq (f : FileFailure) (r : Report) :
    addError f r =
      print (f.render (r.stream.mode = .coloured))
        { r with errors := r.errors ++ [f], failed := true } := rfl

/-- Diagnostics are recorded up to the first one that cannot be printed. -/
theorem addDiagnostics_cases (ds : List Diagnostic) (r : Report) :
    ∃ stream, stream.mode = r.stream.mode ∧
      addDiagnostics ds r =
        let r' := { r with
          diagnostics := r.diagnostics ++ announced r.stream.mode ds,
          failed := r.failed || !ds.isEmpty,
          stream }
        if printsAll r.stream.mode ds then .ok () r' else .error .noTitle r' := by
  unfold addDiagnostics
  induction ds generalizing r with
  | nil => exact ⟨r.stream, rfl, by simp [announced, printsAll]; rfl⟩
  | cons d rest ih =>
    rw [forM_cons_eq, addDiagnostic_eq]
    obtain ⟨hp, stream, hmode, h⟩ | ⟨hp, h⟩ := print_cases (d.render (r.stream.mode = .coloured))
      { r with diagnostics := r.diagnostics ++ [d], failed := true }
    · obtain ⟨stream', hmode', h'⟩ := ih
        { r with diagnostics := r.diagnostics ++ [d], failed := true, stream }
      refine ⟨stream', hmode'.trans hmode, ?_⟩
      simp only [h, h']
      simp only at hmode hp
      simp [hmode, announced, printsAll, hp]
    · refine ⟨r.stream, rfl, ?_⟩
      simp only at hp
      simp only [h]
      simp [announced, printsAll, hp]

end Report

namespace Run

/-- What became of a file. -/
inductive Outcome where
  /-- The overwrites have it. -/
  | skipped
  | copied
  /-- It cannot be copied. -/
  | uncopied (error : Disk.Error)
  | converted (diagnostics : List Diagnostic)
  /-- It cannot be converted. -/
  | unconverted (diagnostics : List Diagnostic) (failure : Failure)
  /-- It was converted to a text that has no bytes, and an empty file was left. -/
  | emptied (diagnostics : List Diagnostic) (halves : Utf8.Unencodable)

namespace Outcome

/-- The diagnostics that surfaced. -/
def diagnostics : Outcome → List Diagnostic
  | converted ds | unconverted ds _ | emptied ds _ => ds
  | skipped | copied | uncopied _ => []

/-- Why there is no result. -/
def failure? : Outcome → Option Failure
  | skipped | copied | converted _ => none
  | uncopied e => some (.disk e)
  | unconverted _ failure => some failure
  | emptied _ halves => some (.disk (.unencodable halves))

/-- There is a result. -/
def succeeded : Outcome → Bool
  | copied | converted _ => true
  | _ => false

/-- The failure of a file as it is recorded, if it failed. -/
def error? (file : Text) (o : Outcome) : Option FileFailure :=
  o.failure?.map fun failure => ⟨file, failure.message file⟩

/-- The report with an outcome recorded, printing left out. -/
def record (file : Text) (o : Outcome) (r : Report) : Report where
  diagnostics := r.diagnostics ++ o.diagnostics
  errors := r.errors ++ (o.error? file).toList
  processed := r.processed + if o matches converted _ then 1 else 0
  copied := r.copied + if o matches copied then 1 else 0
  skipped := r.skipped + if o matches skipped then 1 else 0
  failed := r.failed || !o.diagnostics.isEmpty || o.failure?.isSome
  stream := r.stream

/-- The outcome ends the run: its failure cannot be printed, or it is an error in
copying that is none of the disk's own. -/
def escapes (mode : Terminal.Mode) (file : Text) (o : Outcome) : Bool :=
  match o.error? file with
  | none => false
  | some f => !mode.prints (f.render (mode = .coloured)) ||
    match o with
    | uncopied e => !e.isRefusal
    | _ => false

/-- One more file is in one of the four tallies. -/
theorem handled_record (file : Text) (o : Outcome) (r : Report) :
    (o.record file r).processed + (o.record file r).copied + (o.record file r).skipped +
        (o.record file r).errors.length =
      r.processed + r.copied + r.skipped + r.errors.length + 1 := by
  cases o <;> simp [record, error?, failure?] <;> omega

end Outcome

end Run

namespace Report

/-- The report counts as failed exactly when something is in it that says so. -/
def Sound (r : Report) : Prop := r.failed = true ↔ r.diagnostics ≠ [] ∨ r.errors ≠ []

theorem Sound.record {r : Report} (h : r.Sound) (file : Text) (o : Run.Outcome) :
    (o.record file r).Sound := by
  unfold Sound at h ⊢
  simp only [Run.Outcome.record, Run.Outcome.error?, Bool.or_eq_true, h]
  cases o.failure? <;> cases o.diagnostics <;> simp [or_comm]

end Report

end Multiversion
