import Multiversion.Proofs.Disk.Ancestry
import Multiversion.Proofs.Run.Attempt
import Multiversion.Proofs.Source.Characters
import Multiversion.Proofs.Text.Lines

/-! The stages of the conversion of a file.

Before anything is stored a file is read, decoded, remapped and converted. `Produced` is what
these stages come to if none of them fails, and `Course` is how the conversion goes on from
there (`course_convert`): a failure before it leaves the disk as it was, and what happens to
the disk after it is what storing does. -/
namespace Multiversion

namespace Remap

/-- A property of all lines that a remap is given is one of all texts it gives back. -/
def Keeps (p : Text → Prop) (remap : Remap) : Prop :=
  ∀ lines remapped, (∀ line ∈ lines, p line) → remap lines = .ok remapped →
    ∀ r ∈ remapped, p r.text

theorem keeps_identity (p : Text → Prop) : Keeps p .identity := by
  intro lines remapped hlines h r hr
  cases h
  obtain ⟨line, hline, rfl⟩ := List.mem_map.1 hr
  exact hlines line hline

end Remap

namespace SourceFile

/-- What is there to be stored: the text of the source, what the remap made of its lines, and
the lines that came out. -/
structure Produced (env : Environment) (k : Keywords) (remap : Remap) (source : Text) (d : Disk)
    (text : Text) (remapped : List Remapped) (out : List Text) : Prop where
  read : ∃ bytes, d.read source = .ok bytes ∧ Utf8.decode bytes = .ok text
  given : remap (Document.ofText text).lines = .ok remapped
  length : remapped.length = (Document.ofText text).lines.length
  result : (Source.convert k ⟨env, source⟩
    (Source.pair (Document.ofText text).lines remapped)).result = .ok out

/-- How a conversion goes, by what it leaves behind. -/
inductive Course (env : Environment) (k : Keywords) (remap : Remap) (source target : Text)
    (w : Workspace) : EStateM.Result Failure Workspace Unit → Prop
  | unproduced {failure w'} : w'.disk = w.disk → w'.report.processed = w.report.processed →
      Course env k remap source target w (.error failure w')
  | unstored {text remapped out e w'} : Produced env k remap source w.disk text remapped out →
      store target (.relined text out) w.disk = .error e w'.disk →
      w'.report.processed = w.report.processed →
      Course env k remap source target w (.error (.disk e) w')
  | stored {text remapped out w'} : Produced env k remap source w.disk text remapped out →
      store target (.relined text out) w.disk = .ok () w'.disk →
      w'.report.processed = w.report.processed + 1 →
      Course env k remap source target w (.ok () w')

variable {env : Environment} {k : Keywords} {remap : Remap} {source target : Text} {d : Disk}

theorem load_eq_ok {document : Document} : load d source = .ok document ↔
    ∃ text, (∃ bytes, d.read source = .ok bytes ∧ Utf8.decode bytes = .ok text) ∧
      document = .ofText text := by
  unfold load
  cases d.read source with
  | error e => simp
  | ok bytes =>
    cases hd : Utf8.decode bytes with
    | error fault => simp [hd]
    | ok text => simp [hd, eq_comm]

theorem remapLines_eq_ok {lines : List Text} {ls : List Source.Line} :
    remapLines remap lines = .ok ls ↔
      ∃ remapped, remap lines = .ok remapped ∧ remapped.length = lines.length ∧
        ls = Source.pair lines remapped := by
  unfold remapLines
  cases remap lines with
  | error message => simp
  | ok remapped =>
    by_cases hlength : remapped.length = lines.length <;> simp [hlength, eq_comm]

/-- A conversion fails before it touches the disk, or it goes on to store what was
produced. -/
theorem course_convert (env : Environment) (k : Keywords) (remap : Remap) (source target : Text)
    (w : Workspace) :
    Course env k remap source target w (convert env k remap source target w) := by
  unfold convert
  cases hl : load w.disk source with
  | error failure => exact .unproduced rfl rfl
  | ok document =>
    obtain ⟨text, hread, rfl⟩ := load_eq_ok.1 hl
    cases hm : remapLines remap (Document.ofText text).lines with
    | error failure =>
      simp only [hm]
      exact .unproduced rfl rfl
    | ok ls =>
      obtain ⟨remapped, hremapped, hlength, rfl⟩ := remapLines_eq_ok.1 hm
      -- Whether they can be printed or not, diagnostics change neither the disk nor the tallies.
      simp only [hm, Workspace.onReport]
      generalize ho : Source.convert k ⟨env, source⟩
        (Source.pair (Document.ofText text).lines remapped) = outcome
      obtain ⟨stream, -, hadd⟩ := Report.addDiagnostics_cases outcome.diagnostics w.report
      rw [hadd]
      by_cases hprints : Report.printsAll w.report.stream.mode outcome.diagnostics = true
      · simp only [hprints, if_true]
        cases hr : outcome.result with
        | error e => exact .unproduced rfl rfl
        | ok out =>
          have hproduced : Produced env k remap source w.disk text remapped out :=
            ⟨hread, hremapped, hlength, ho ▸ hr⟩
          simp only [Workspace.onDisk]
          cases hs : store target (.relined text out) w.disk with
          | error e d' =>
            simp only [Document.relined] at hs
            simp only [hs]
            exact .unstored hproduced hs rfl
          | ok u d' =>
            simp only [Document.relined] at hs
            simp only [hs]
            exact .stored hproduced hs rfl
      · simp only [hprints, Bool.false_eq_true, if_false]
        exact .unproduced rfl rfl

/-! ### What is stored -/

theorem store_eq_install {document : Document} {content : ByteArray}
    (h : Utf8.encode document.toText = .ok content) (path : Text) (d : Disk) :
    store path document d = Disk.install path content d := by
  rw [store_eq, h]

/-- Only a document that has bytes is stored. -/
theorem stored_of_store {path : Text} {document : Document} {d' : Disk}
    (h : store path document d = .ok () d') :
    ∃ content, Utf8.encode document.toText = .ok content ∧ Disk.Stored d d' path content := by
  cases he : Utf8.encode document.toText with
  | ok content =>
    rw [store_eq_install he] at h
    exact ⟨content, rfl, Disk.stored_of_install h⟩
  | error halves =>
    rw [store_eq, he] at h
    simp only at h
    split at h <;> cases h

/-! ### What is produced -/

/-- A property of the characters of all lines of the source, of those of the eval token and of
spaces is one of the characters of the lines that came out, if the remap keeps it. -/
theorem Produced.forall_mem {text : Text} {remapped : List Remapped} {out : List Text}
    (h : Produced env k remap source d text remapped out) {p : CodePoint → Prop}
    (hremap : remap.Keeps fun s => ∀ c ∈ s, p c)
    (hlines : ∀ line ∈ (Document.ofText text).lines, ∀ c ∈ line, p c)
    (heval : ∀ c ∈ k.eval, p c) (hspace : p ' ') : ∀ line ∈ out, ∀ c ∈ line, p c := by
  have hremapped := hremap _ _ hlines h.given
  exact Source.forall_mem_of_result hlines hremapped heval hspace h.result

theorem Produced.length_out {text : Text} {remapped : List Remapped} {out : List Text}
    (h : Produced env k remap source d text remapped out) :
    out.length = (Document.ofText text).lines.length :=
  Source.length_of_result h.length h.result

end SourceFile
end Multiversion
