import Multiversion.Proofs.Source.Rewriting
import Multiversion.Proofs.SourceFile.Stages

/-! Line by line.

What a conversion writes has a line for each line of the source (`convert_aligned`): the line
that came out for it, behind as many line breaks, each of them a line feed now, whatever it was.
This needs that no line break comes in through the remap or the eval token. Where no line has a
directive and nothing is remapped, only the kind of the line breaks changes. -/
namespace Multiversion.SourceFile
open Text (Unbroken)

variable {env : Environment} {k : Keywords} {remap : Remap} {source target : Text} {d : Disk}
  {text : Text} {remapped : List Remapped} {out : List Text}

/-- A text is written with one line for each line of another one. -/
structure Aligned (text : Text) (out : List Text) (written : Text) : Prop where
  noReturn : CodePoint.ofChar '\r' ∉ written
  breaks : written.count (CodePoint.ofChar '\n') = Document.breakCount text
  length : out.length = (Document.ofText text).lines.length
  source : (Document.ofText text).lines <+:
    Text.splitOn (CodePoint.ofChar '\n') (Document.unified text)
  lines : out <+: Text.splitOn (CodePoint.ofChar '\n') written

/-- No line break comes out of lines without any. -/
theorem Produced.unbroken (h : Produced env k remap source d text remapped out)
    (hremap : remap.Keeps Unbroken) (heval : Unbroken k.eval) : ∀ line ∈ out, Unbroken line :=
  h.forall_mem hremap (fun _ hline => Document.unbroken_of_mem_lines hline) heval rfl

theorem Produced.aligned (h : Produced env k remap source d text remapped out)
    (hremap : remap.Keeps Unbroken) (heval : Unbroken k.eval) :
    Aligned text out (Document.relined text out).toText := by
  have hout : ∀ line ∈ (Document.relined text out).lines, Unbroken line :=
    h.unbroken hremap heval
  refine ⟨Document.return_notMem_toText hout, Document.count_relined h.length_out hout,
    h.length_out, ?_, Document.lines_isPrefix_toText hout⟩
  rw [← Document.toText_ofText]
  exact Document.lines_isPrefix_toText fun line hline => Document.unbroken_of_mem_lines hline

/-- Plain lines that are not remapped come out as they are. -/
theorem Produced.out_of_plain (h : Produced env k .identity source d text remapped out)
    (hplain : ∀ line ∈ (Document.ofText text).lines, Source.kind k line = .plain) :
    out = (Document.ofText text).lines := by
  have hpass : Source.pass k ⟨env, source⟩ (Document.ofText text).lines = .ok out := by
    have hresult := h.result
    rw [← Except.ok.inj h.given] at hresult
    exact hresult
  rw [Source.pass_of_plain hplain] at hpass
  exact (Except.ok.inj hpass).symm

/-- **What is written stays aligned with the source.** It has as many line breaks as the source,
all of them line feeds, and its lines are those that the source's lines came to. The source
itself is written, with its line breaks unified, if nothing is remapped and no line is a
directive or commented out. -/
theorem convert_aligned {w w' : Workspace} (heval : Unbroken k.eval)
    (hremap : remap.Keeps Unbroken) (h : convert env k remap source target w = .ok () w') :
    ∃ text remapped out written content, Produced env k remap source w.disk text remapped out ∧
      Utf8.encode written = .ok content ∧ w'.disk.read target = .ok content ∧
      Aligned text out written ∧
      (remap = .identity →
        (∀ line ∈ (Document.ofText text).lines, Source.kind k line = .plain) →
          written = Document.unified text) := by
  have hcourse := course_convert env k remap source target w
  rw [h] at hcourse
  cases hcourse with
  | @stored text remapped out w' hproduced hstore hprocessed =>
    obtain ⟨content, hcontent, hstored⟩ := stored_of_store hstore
    refine ⟨text, remapped, out, _, content, hproduced, hcontent, hstored.read,
      hproduced.aligned hremap heval, fun hidentity hplain => ?_⟩
    subst hidentity
    rw [hproduced.out_of_plain hplain]
    exact Document.toText_ofText text

/-- A disk with one file whose lines end in three ways. -/
def mixedBreaks : Disk := ⟨[("in.java".toText, .file ⟨#[97, 13, 10, 98, 13, 99, 10]⟩)], []⟩

theorem convert_aligned_mixedBreaks : ∃ w' content,
    convert .empty .standard .identity "in.java".toText "out.java".toText
        ⟨mixedBreaks, .fresh (.fresh .plain)⟩ = .ok () w' ∧
      Utf8.encode "a\nb\nc\n".toText = .ok content ∧
      w'.disk.read "out.java".toText = .ok content := by
  have hreturns : (convert .empty .standard .identity "in.java".toText "out.java".toText
      ⟨mixedBreaks, .fresh (.fresh .plain)⟩ matches .ok () _) = true := by
    decide +kernel
  have hdecode : Utf8.decode ⟨#[97, 13, 10, 98, 13, 99, 10]⟩ = .ok "a\r\nb\rc\n".toText := by
    decide +kernel
  cases h : convert .empty .standard .identity "in.java".toText "out.java".toText
      ⟨mixedBreaks, .fresh (.fresh .plain)⟩ with
  | error failure w' =>
    rw [h] at hreturns
    cases hreturns
  | ok u w' =>
    obtain ⟨text, remapped, out, written, content, hproduced, hcontent, hread, -, hunified⟩ :=
      convert_aligned (by decide) (Remap.keeps_identity _) h
    obtain ⟨bytes, hbytes, htext⟩ := hproduced.read
    have hsource : mixedBreaks.read "in.java".toText = .ok ⟨#[97, 13, 10, 98, 13, 99, 10]⟩ := rfl
    rw [hsource] at hbytes
    cases hbytes
    rw [hdecode] at htext
    cases htext
    rw [hunified rfl (by decide)] at hcontent
    exact ⟨w', content, rfl, hcontent, hread⟩

end Multiversion.SourceFile
