import Mathlib.Data.List.Pairwise
import Multiversion.Proofs.Run.Accounting
import Multiversion.Proofs.Run.Trail

/-! What a run that cleans first leaves behind.

Removing the generated directories takes away what a target could hold from before
(`free_of_cleaned`) and nothing that the tasks read (`read_cleaned`). So when the
entries are apart, a file is below a generated directory exactly if a task of this run has
left it, with the content that its own source gives it (`result_iff_of_run`). A conversion
whose text has no bytes leaves a file too, an empty one, though it has failed. -/
namespace Multiversion.Run
open Disk (Spelled location_congr)

variable {settings : Settings} {mode : Terminal.Mode} {entries : List Entry} {d d' : Disk}
  {t u : Task} {l m : Location}

/-! ### What cleaning leaves -/

theorem free_of_cleaned (ha : Apart d entries) (hc : Cleaned d d' entries)
    (ht : Named entries t l) : d'.status? t.target = none :=
  ht.target ▸ Disk.status?_pathBelow_eq_none (ha.generated _ ht.entry) ht.valid ht.ne_nil
    (hc.gone _ ht.entry)

theorem read_cleaned (ha : Apart d entries) (hc : Cleaned d d' entries) (ht : Named entries t l)
    {content : ByteArray} :
    d'.read t.source = .ok content ↔ d.status? t.source = some (.file content) := by
  rw [Disk.read_eq_ok_iff,
    Disk.status?_congr (ht.proper ha).source.2 hc.working.symm (hc.source ha ht).symm]

theorem overwritten_cleaned (ha : Apart d entries) (hc : Cleaned d d' entries)
    (ht : Named entries t l) : t.overwritten d' = t.overwritten d := by
  refine overwritten_congr (ht.proper ha) hc.working fun o ho => ?_
  rw [location_congr hc.working]
  refine hc.node_of_not_meets fun e he => ?_
  have hp := ha.overwrites _ ht.entry o ho
  rw [ht.file, show Path.join o _ = Disk.pathBelow o l from rfl,
    Disk.location_pathBelow hp.1 ht.valid, ← List.append_nil (d.location e.generated)]
  exact Location.not_meets_append (ha.kept e he _ ht.entry o ho) [] l

/-! ### Whose target a location is -/

/-- What is below two generated directories is below the same one. -/
theorem Apart.entry_eq (ha : Apart d entries) {a b : Entry} (hma : a ∈ entries) (hmb : b ∈ entries)
    (h : d.location a.generated ++ l = d.location b.generated ++ m) : a = b := by
  have symmetric : Std.Symm fun a b : Entry =>
      ¬ (d.location a.generated).Meets (d.location b.generated) := ⟨fun a b h h' => h h'.symm⟩
  by_contra hne
  refine Location.not_meets_append (ha.written.forall hma hmb hne) l m (.inl ?_)
  exact h ▸ List.prefix_refl _

/-- A location is the target of one task at most. -/
theorem Named.eq_of_location (ha : Apart d entries) (ht : Named entries t l)
    (hu : Named entries u m) (h : d.location t.target = d.location u.target) : t = u := by
  rw [ht.location_target ha, hu.location_target ha] at h
  have he := ha.entry_eq ht.entry hu.entry h
  rw [he] at h
  have hl := List.append_cancel_left h
  obtain ⟨e, f⟩ := t
  obtain ⟨e', f'⟩ := u
  simp only at he
  rw [he, show f = _ from ht.file, show f' = _ from hu.file, hl]

/-! ### The run -/

section
variable {trail : List (Task × Outcome)} {d₁ : Disk}

/-- After cleaning and the tasks a target is a file exactly if its task has left one. -/
theorem result_iff (hs : d.Sound) (ha : Apart d entries) (hc : Cleaned d d₁ entries)
    (htr : Traced settings mode trail d₁ d') (hfound : ∀ p ∈ trail, p.1 ∈ tasks d entries)
    (ht : Named entries t l) {c : ByteArray} :
    d'.status? t.target = some (.file c) ↔
      ∃ content o, d.status? t.source = some (.file content) ∧ t.overwritten d = false ∧
        (t, o) ∈ trail ∧ Leaves settings mode t content o c := by
  have hp := ht.proper ha
  have free : ∀ n, d₁.status? t.target ≠ some n := fun n h => by
    rw [free_of_cleaned ha hc ht] at h
    contradiction
  constructor
  · intro h
    obtain ⟨hsp, hn, hb⟩ := (Disk.status?_eq_some_iff hp.target.2).1 h
    rw [location_congr htr.working] at hn
    -- What is at the target was not there before.
    have fresh : d'.node? (d₁.location t.target) ≠ d₁.node? (d₁.location t.target) := fun e =>
      free _ ((Disk.status?_eq_some_iff hp.target.2).2 ⟨hsp, e ▸ hn, hb⟩)
    rcases htr.node (d₁.location t.target) with e | ⟨⟨u, o⟩, hu, e | ⟨-, e, -⟩⟩
    · exact absurd e fresh
    · obtain ⟨m, hm⟩ := found_of_mem_tasks hs ha.source (hfound _ hu)
      rw [location_congr hc.working, location_congr hc.working] at e
      obtain rfl := ht.eq_of_location ha hm.toNamed e
      rcases htr.target _ hu with ⟨content, result, ho, hr, hl, -, hn'⟩ | ⟨-, e⟩
      · rw [hn] at hn'
        cases hn'
        exact ⟨content, o, (read_cleaned ha hc ht).1 hr, overwritten_cleaned ha hc ht ▸ ho, hu, hl⟩
      · exact absurd e fresh
    · rw [e] at hn
      cases hn
  · rintro ⟨content, o, hr, -, hm, hl⟩
    rcases htr.target _ hm with ⟨content', result, -, hr', hl', hsp, hn⟩ | ⟨hnot, -⟩
    · have same := (read_cleaned ha hc ht).1 hr'
      rw [hr] at same
      cases same
      rw [hl.unique hl']
      exact (Disk.status?_eq_some_iff hp.target.2).2
        ⟨hsp, by rw [location_congr htr.working]; exact hn, .inr hp.last⟩
    · exact absurd hl (hnot content c)

/-- After cleaning and the tasks every file below a generated directory is the target of a
task. -/
theorem exists_task_of_file (hs : d.Sound) (ha : Apart d entries) (hc : Cleaned d d₁ entries)
    (htr : Traced settings mode trail d₁ d') (hfound : ∀ p ∈ trail, p.1 ∈ tasks d entries)
    {e : Entry} (he : e ∈ entries) (hsp : Spelled e.generated) (hl : l ≠ []) {c : ByteArray}
    (hn : d'.node? (d.location e.generated ++ l) = some (.file c)) :
    ∃ p ∈ trail, p.1.entry = e ∧ d.location p.1.target = d.location e.generated ++ l := by
  rcases htr.node (d.location e.generated ++ l) with same | ⟨⟨u, o⟩, hu, same | ⟨-, same, -⟩⟩
  · -- There would be a directory that cleaning has left.
    rw [same] at hn
    have hdir : d₁.node? (d.location e.generated) = some .directory :=
      Disk.node?_of_isPrefix hn (List.prefix_append _ _) (by simpa using hl)
    rw [← location_congr hc.working] at hdir
    have := Disk.isDirectory_iff.2
      ((Disk.status?_eq_some_iff (ha.generated e he).2).2 ⟨hsp, hdir, .inl rfl⟩)
    rw [hc.gone e he] at this
    contradiction
  · rw [location_congr hc.working] at same
    obtain ⟨m, hm⟩ := found_of_mem_tasks hs ha.source (hfound _ hu)
    refine ⟨(u, o), hu, ?_, same.symm⟩
    rw [hm.location_target ha] at same
    exact (ha.entry_eq he hm.entry same).symm
  · rw [same] at hn
    cases hn

end

/-- What a run that cleans first leaves below the generated directories, if the entries are
apart. The files that are found below the sources are attempted, one after the other. A file is
at the target of a task exactly if its source is a file, the overwrites do not have it, and
copying or converting it has left one, which a conversion also does that fails as its text
has no bytes; and its content depends on that source alone. There is no other file. -/
theorem result_iff_of_run {w w' : Workspace} (hs : w.disk.Sound) (ha : Apart w.disk entries)
    (h : run settings true entries w = .ok () w') :
    ∃ d₁ trail stream,
      attemptAll settings w.report.stream.mode (tasks w.disk entries) d₁ = (trail, w'.disk) ∧
      w'.report =
        { recordAll trail (recordMissing (missing d₁ entries) w.report) with stream := stream } ∧
      (∀ t l, Named entries t l →
        (∀ content, w.disk.status? t.source = some (.file content) → ∃ o, (t, o) ∈ trail) ∧
        ∀ c, w'.disk.status? t.target = some (.file c) ↔
          ∃ content o, w.disk.status? t.source = some (.file content) ∧
            t.overwritten w.disk = false ∧ (t, o) ∈ trail ∧
            Leaves settings w.report.stream.mode t content o c) ∧
      ∀ e ∈ entries, Spelled e.generated → ∀ l c, l ≠ [] →
        w'.disk.node? (w.disk.location e.generated ++ l) = some (.file c) →
        ∃ p ∈ trail, p.1.entry = e ∧
          w.disk.location p.1.target = w.disk.location e.generated ++ l := by
  obtain ⟨w₁, trail, hclean, hall, -, stream, hreport⟩ := run_trail h
  have hc := cleaned_of_cleanAll ha.generated hclean
  rw [tasks_pruned ha hc.toPruned] at hall
  have hsep := (separate_tasks hs ha).congr hc.working
  have hfree : ∀ t ∈ tasks w.disk entries, w₁.disk.isDirectory t.target = false := by
    intro t ht
    obtain ⟨l, hl⟩ := found_of_mem_tasks hs ha.source ht
    rw [Disk.isDirectory, free_of_cleaned ha hc hl.toNamed]
    rfl
  have htr := @traced_attemptAll settings w.report.stream.mode w₁.disk _ hsep hfree
  have hfst := @map_fst_attemptAll settings w.report.stream.mode (tasks w.disk entries) w₁.disk
  rw [hall] at htr hfst
  have hfound : ∀ p ∈ trail, p.1 ∈ tasks w.disk entries := fun p hp =>
    hfst ▸ List.mem_map_of_mem hp
  refine ⟨w₁.disk, trail, stream, hall, hreport, fun t l ht => ⟨fun content hr => ?_, fun c => ?_⟩, ?_⟩
  · have listed : t ∈ tasks w.disk entries := by
      rw [ht.source] at hr
      refine mem_tasks.2 ⟨ht.entry, ?_⟩
      rw [ht.file]
      exact Disk.mem_files_of_status? hs (ha.source _ ht.entry) ht.valid ht.ne_nil hr
    rw [← hfst] at listed
    obtain ⟨⟨u, o⟩, hu, rfl⟩ := List.mem_map.1 listed
    exact ⟨o, hu⟩
  · exact result_iff hs ha hc htr hfound ht
  · exact fun e he hsp l c hl hn => exists_task_of_file hs ha hc htr hfound he hsp hl hn

/-- A run ends and leaves an empty file at a path. -/
def leavesEmpty (settings : Settings) (entries : List Entry) (d : Disk) (path : Text) : Bool :=
  match run settings true entries ⟨d, .fresh (.fresh .plain)⟩ with
  | .ok _ w => decide (w.disk.status? path = some (.file .empty))
  | .error _ _ => false

theorem exists_of_leavesEmpty {settings : Settings} {entries : List Entry} {d : Disk} {path : Text}
    (h : leavesEmpty settings entries d path = true) :
    ∃ w, run settings true entries ⟨d, .fresh (.fresh .plain)⟩ = .ok () w ∧
      w.disk.status? path = some (.file .empty) := by
  unfold leavesEmpty at h
  split at h
  · next w hrun => exact ⟨w, hrun, of_decide_eq_true h⟩
  · contradiction

theorem result_iff_of_run_loneFile : ∃ (w' : Workspace) (content : ByteArray) (o : Outcome),
    run copying true loneEntries ⟨loneFile, .fresh (.fresh .plain)⟩ = .ok () w' ∧
      w'.disk.status? "g/x".toText = some (.file .empty) ∧
      loneFile.status? "s/x".toText = some (.file content) ∧
      Leaves copying .plain ⟨⟨"s".toText, "g".toText, none⟩, "x".toText⟩ content o .empty := by
  have finished : leavesEmpty copying loneEntries loneFile "g/x".toText = true := by decide +kernel
  obtain ⟨w', h, there⟩ := exists_of_leavesEmpty finished
  have sound : loneFile.Sound :=
    ⟨by decide, by decide, ⟨by decide, by decide, trivial, trivial⟩, trivial⟩
  have apart : Apart loneFile loneEntries :=
    ⟨by decide, by decide, by decide, by decide, by decide, by decide⟩
  obtain ⟨d₁, trail, stream, -, -, hiff, -⟩ := result_iff_of_run sound apart h
  have named : Named loneEntries ⟨⟨"s".toText, "g".toText, none⟩, "x".toText⟩ ["x".toText] :=
    ⟨by decide, by decide, by decide, by decide⟩
  obtain ⟨content, o, hr, -, -, hl⟩ := ((hiff _ _ named).2 .empty).1 there
  exact ⟨w', content, o, h, there, hr, hl⟩

/-- A disk with a file of one letter, below one directory. -/
def loneLetter : Disk := ⟨[("s".toText, .directory [("x".toText, .file ⟨#[97]⟩)])], []⟩

/-- Files are converted to lines that have no bytes. -/
def halving : Settings where
  environment := .empty
  keywords := .ofList [("x".toText, .standard)]
  remap lines := .ok (lines.map fun _ => ⟨[⟨0xD800, by decide⟩], []⟩)
  parallel := false

/-- A conversion leaves a file that is empty when it fails as its text has no bytes. -/
theorem emptied_is_left :
    let t : Task := ⟨⟨"s".toText, "g".toText, none⟩, "x".toText⟩
    loneLetter.Sound ∧ Apart loneLetter [t.entry] ∧ tasks loneLetter [t.entry] = [t] ∧
      ∃ w' : Workspace,
        run halving true [t.entry] ⟨loneLetter, .fresh (.fresh .plain)⟩ = .ok () w' ∧
        ¬ ((∃ c, w'.disk.status? t.target = some (.file c)) ↔
          (∃ content, loneLetter.status? t.source = some (.file content)) ∧
            t.overwritten loneLetter = false ∧
            (attempt halving .plain t loneLetter).1.succeeded = true) := by
  intro t
  have finished : leavesEmpty halving [t.entry] loneLetter t.target = true := by decide +kernel
  obtain ⟨w', h, there⟩ := exists_of_leavesEmpty finished
  have failed : (attempt halving .plain t loneLetter).1.succeeded = false := by decide +kernel
  refine ⟨⟨by decide, by decide, ⟨by decide, by decide, trivial, trivial⟩, trivial⟩,
    ⟨by decide, by decide, by decide, by decide, by decide, by decide⟩, by decide +kernel, ?_⟩
  refine ⟨w', h, fun hiff => ?_⟩
  have := (hiff.1 ⟨_, there⟩).2.2
  rw [failed] at this
  exact Bool.noConfusion this

end Multiversion.Run
