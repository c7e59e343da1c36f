import Multiversion.Proofs.SourceFile.Stages

/-! A conversion is all or nothing.

It either stores one file and counts it, or it fails and leaves every file as it was
(`convert_completed_or_abandoned`). The one thing that a failure can leave behind are some of
the directories above the target, and only if the disk refused something there or the target
is a path that no disk can be given. `Writable` is what the alternative rests on: what comes
to be written must have bytes, as they are asked for when the target has been opened
already. -/
namespace Multiversion

namespace Utf8

/-- A text that was read has no halves of surrogate pairs. -/
theorem isHalf_of_decode {bytes : ByteArray} {s : Text} (h : decode bytes = .ok s) :
    ∀ c ∈ s, c.isHalf = false := by
  unfold decode at h
  split at h
  · cases h
    intro c hc
    obtain ⟨char, -, rfl⟩ := List.mem_map.1 hc
    exact CodePoint.isHalf_ofChar char
  · cases h

theorem exists_encode {s : Text} (h : ∀ c ∈ s, c.isHalf = false) :
    ∃ bytes, encode s = .ok bytes := by
  have hnone : unencodableFrom (fun _ => false) 0 s = none := by
    rw [unencodableFrom_eq_none_iff]
    intro c hc hhalf
    rw [h c hc] at hhalf
    exact hhalf
  rw [encode, hnone]
  exact ⟨_, rfl⟩

end Utf8

/-- A failure is worded by the layout error that it is, or as the failure of the file. -/
theorem Failure.message_cases (file : Text) (failure : Failure) :
    (∃ error, failure = .source (.layout error) ∧ failure.message file = error.message) ∨
      failure.message file =
        "Failed to convert file ".toText ++ file ++ ": ".toText ++ failure.cause := by
  cases failure with
  | source error =>
    cases error with
    | layout error => exact .inl ⟨error, rfl, rfl⟩
    | overlong literal => exact .inr rfl
    | notStructural kind => exact .inr rfl
  | disk error => exact .inr rfl
  | encoding fault => exact .inr rfl
  | remap message => exact .inr rfl
  | lineCount given expected => exact .inr rfl
  | noSource => exact .inr rfl
  | terminal fault => exact .inr rfl

namespace SourceFile

variable {env : Environment} {k : Keywords} {remap : Remap} {source target : Text} {d : Disk}
  {w : Workspace}

/-! ### What can be written -/

/-- What a conversion of the source comes to has bytes. -/
def Writable (env : Environment) (k : Keywords) (remap : Remap) (source : Text) (d : Disk) :
    Prop :=
  ∀ text remapped out, Produced env k remap source d text remapped out →
    ∃ content, Utf8.encode (Document.relined text out).toText = .ok content

/-- Only a remap or an eval token with halves of surrogate pairs makes a text that has no
bytes. -/
theorem writable_of_whole (hremap : remap.Keeps fun s => ∀ c ∈ s, c.isHalf = false)
    (heval : ∀ c ∈ k.eval, c.isHalf = false) : Writable env k remap source d := by
  intro text remapped out h
  obtain ⟨bytes, -, hdecode⟩ := h.read
  have htext := Utf8.isHalf_of_decode hdecode
  have hlines : ∀ line ∈ (Document.ofText text).lines, ∀ c ∈ line, c.isHalf = false :=
    fun line hline c hc => htext c (Document.subset_of_mem_lines hline hc)
  apply Utf8.exists_encode
  intro c hc
  rcases Document.mem_toText hc with ⟨line, hline, hc⟩ | rfl
  · exact h.forall_mem hremap hlines heval (CodePoint.isHalf_ofChar ' ') line hline c hc
  · exact CodePoint.isHalf_ofChar '\n'

/-! ### The two ways to end -/

/-- What has changed when a conversion succeeded. -/
structure Completed (env : Environment) (k : Keywords) (remap : Remap) (source target : Text)
    (w w' : Workspace) : Prop where
  processed : w'.report.processed = w.report.processed + 1
  stored : ∃ text remapped out content, Produced env k remap source w.disk text remapped out ∧
    Utf8.encode (Document.relined text out).toText = .ok content ∧
      Disk.Stored w.disk w'.disk target content

/-- What has changed when a conversion failed: there may be directories above the target
that were not there, if the failure is one of making them or of opening the target. -/
structure Abandoned (source target : Text) (w : Workspace) (failure : Failure) (w' : Workspace) :
    Prop where
  processed : w'.report.processed = w.report.processed
  files : ∀ l content,
    w'.disk.node? l = some (.file content) ↔ w.disk.node? l = some (.file content)
  directories : Disk.Paved w.disk w'.disk (Path.parent target)
  cause : w'.disk = w.disk ∨ ∃ e, failure = .disk e ∧
    (∃ document, store target document w.disk = .error e w'.disk) ∧
      (e.isRefusal = true ∨ Disk.textError? target ≠ none)
  wording : (∃ error, failure = .source (.layout error) ∧
      failure.message source = error.message) ∨
    failure.message source =
      "Failed to convert file ".toText ++ source ++ ": ".toText ++ failure.cause

theorem abandoned_of_disk_eq {failure : Failure} {w' : Workspace}
    (hprocessed : w'.report.processed = w.report.processed) (hdisk : w'.disk = w.disk) :
    Abandoned source target w failure w' where
  processed := hprocessed
  files l content := by rw [hdisk]
  directories := by
    rw [hdisk]
    exact .refl w.disk _
  cause := .inl hdisk
  wording := failure.message_cases source

/-- Storing a document that has bytes changes no file if it fails. -/
theorem abandoned_of_store {document : Document} {content : ByteArray} {e : Disk.Error}
    {w' : Workspace} (hcontent : Utf8.encode document.toText = .ok content)
    (hstore : store target document w.disk = .error e w'.disk)
    (hprocessed : w'.report.processed = w.report.processed) :
    Abandoned source target w (.disk e) w' := by
  have hinstall := hstore
  rw [store_eq_install hcontent] at hinstall
  have hpaved := Disk.paved_of_install hinstall
  refine ⟨hprocessed, fun l content => hpaved.file_iff content, hpaved, ?_,
    (Failure.disk e).message_cases source⟩
  by_cases ht : Disk.textError? target = none
  · rcases Disk.install_error ht hinstall with hrefusal | hsame
    · exact .inr ⟨e, rfl, ⟨document, hstore⟩, .inl hrefusal⟩
    · exact .inl hsame
  · exact .inr ⟨e, rfl, ⟨document, hstore⟩, .inr ht⟩

/-- **A conversion is all or nothing.** It returns, with one file more that is counted and with
the one file stored that the source comes to; or it fails, no file is new or another one, and no
directory is new either unless the disk refused to make one or to open the target, or the
target is a path that no disk can be given. -/
theorem convert_completed_or_abandoned (target : Text) (w : Workspace)
    (h : Writable env k remap source w.disk) :
    (∃ w', convert env k remap source target w = .ok () w' ∧
        Completed env k remap source target w w') ∨
      ∃ failure w', convert env k remap source target w = .error failure w' ∧
        Abandoned source target w failure w' := by
  have hcourse := course_convert env k remap source target w
  generalize convert env k remap source target w = r at hcourse ⊢
  cases hcourse with
  | @unproduced failure w' hdisk hprocessed =>
    exact .inr ⟨failure, w', rfl, abandoned_of_disk_eq hprocessed hdisk⟩
  | @unstored text remapped out e w' hproduced hstore hprocessed =>
    obtain ⟨content, hcontent⟩ := h text remapped out hproduced
    exact .inr ⟨.disk e, w', rfl, abandoned_of_store hcontent hstore hprocessed⟩
  | @stored text remapped out w' hproduced hstore hprocessed =>
    obtain ⟨content, hcontent, hstored⟩ := stored_of_store hstore
    exact .inl ⟨w', rfl, hprocessed, text, remapped, out, content, hproduced, hcontent, hstored⟩

/-- A disk with one file of one line. -/
def loneSource : Disk := ⟨[("in.java".toText, .file ⟨#[120, 10]⟩)], []⟩

theorem writable_loneSource :
    Writable .empty .standard .identity "in.java".toText loneSource :=
  writable_of_whole (Remap.keeps_identity _) (by decide)

/-- The conversion of one file to a path, on a disk with nothing else. -/
def convertLoneSource (target : Text) : EStateM.Result Failure Workspace Unit :=
  convert .empty .standard .identity "in.java".toText target ⟨loneSource, .fresh (.fresh .plain)⟩

theorem convert_completed_loneSource :
    ∃ w', convertLoneSource "a/b.java".toText = .ok () w' ∧
      Completed .empty .standard .identity "in.java".toText "a/b.java".toText
        ⟨loneSource, .fresh (.fresh .plain)⟩ w' := by
  have hreturns : (convertLoneSource "a/b.java".toText matches .ok () _) = true := by
    decide +kernel
  rcases convert_completed_or_abandoned "a/b.java".toText ⟨loneSource, .fresh (.fresh .plain)⟩
    writable_loneSource with ⟨w', h, hcompleted⟩ | ⟨failure, w', h, -⟩
  · exact ⟨w', h, hcompleted⟩
  · rw [convertLoneSource, h] at hreturns
    cases hreturns

/-- A path with a null character is refused by no disk, as none can be given it, and the
directories in front of the character are made all the same. -/
theorem convert_nullCharacter_loneSource :
    Writable .empty .standard .identity "in.java".toText loneSource ∧
      loneSource.node? ["a".toText] = none ∧
      ∃ w', convertLoneSource "a/b\x00/c.java".toText = .error (.disk .nullCharacter) w' ∧
        Disk.Error.nullCharacter.isRefusal = false ∧
        w'.disk.node? ["a".toText] = some .directory := by
  have hstops : (match convertLoneSource "a/b\x00/c.java".toText with
      | .error (.disk .nullCharacter) w' => decide (w'.disk.node? ["a".toText] = some .directory)
      | _ => false) = true := by
    decide +kernel
  refine ⟨writable_loneSource, rfl, ?_⟩
  split at hstops
  · next w' h => exact ⟨w', h, rfl, of_decide_eq_true hstops⟩
  · cases hstops

end SourceFile
end Multiversion
