import Mathlib.Data.List.Basic
import Multiversion.Proofs.Source.Scan

/-! The characters of a result.

A conversion makes up no characters of its own: what a line becomes is made of the line as it
stands in the file, of what the remap made of it, of the eval token and of spaces
(`madeOf_rewrite`). So a property that these have in common is one of the whole result
(`forall_mem_of_result`), which has a line for each line (`length_of_result`). -/
namespace Multiversion

namespace Text

theorem dropSpace_subset (s : Text) : dropSpace s ⊆ s := by
  cases s with
  | nil => exact List.Subset.refl _
  | cons c rest =>
    rw [dropSpace]
    split
    · exact List.subset_cons_self c rest
    · exact List.Subset.refl _

theorem eraseFirst_subset (token s : Text) : eraseFirst token s ⊆ s := by
  induction s with
  | nil => exact List.Subset.refl _
  | cons c rest ih =>
    rw [eraseFirst]
    split
    · next behind h =>
      rw [after?_eq_some_iff.1 h]
      exact List.Subset.trans (dropSpace_subset behind) (List.subset_append_right token behind)
    · exact List.cons_subset_cons c ih

end Text

namespace Source
open Block (Stack Context)

/-- A text has no characters but those of a line, of its remapped text and of the eval token,
and spaces. -/
def MadeOf (k : Keywords) (line : Line) (text : Text) : Prop :=
  ∀ c ∈ text, c ∈ line.raw ∨ c ∈ line.remapped.text ∨ c ∈ k.eval ∨ c = ' '

variable {k : Keywords} {context : Context} {line : Line}

theorem MadeOf.append {a b : Text} (ha : MadeOf k line a) (hb : MadeOf k line b) :
    MadeOf k line (a ++ b) := by
  intro c hc
  rcases List.mem_append.1 hc with hc | hc
  · exact ha c hc
  · exact hb c hc

theorem madeOf_raw {text : Text} (h : text ⊆ line.raw) : MadeOf k line text :=
  fun _ hc => .inl (h hc)

theorem madeOf_remapped {text : Text} (h : text ⊆ line.remapped.text) : MadeOf k line text :=
  fun _ hc => .inr (.inl (h hc))

theorem madeOf_eval : MadeOf k line k.eval := fun _ hc => .inr (.inr (.inl hc))

theorem madeOf_spaces (n : Nat) : MadeOf k line (Text.spaces n) :=
  fun _ hc => .inr (.inr (.inr (List.eq_of_mem_replicate hc)))

theorem enable_subset (k : Keywords) (text : Text) : enable k text ⊆ text := by
  simp only [enable]
  split
  · exact List.nil_subset text
  · exact Text.eraseFirst_subset k.eval text

/-- A line that is not structural becomes something made of it. -/
theorem madeOf_rewrite (s : Stack) (line : Line) : MadeOf k line (rewrite k s line) := by
  have hremapped : MadeOf k line line.remapped.text := madeOf_remapped (List.Subset.refl _)
  simp only [rewrite, adapt]
  split
  · split
    · exact madeOf_remapped (enable_subset k _)
    · split
      · exact hremapped
      · exact madeOf_raw (List.Subset.refl _)
  · split
    · exact (madeOf_spaces _).append madeOf_eval
    · split
      · apply MadeOf.append
        · exact ((madeOf_spaces _).append madeOf_eval).append (madeOf_spaces 1)
        · exact madeOf_raw (List.drop_subset _ _)
      · exact hremapped

theorem madeOf_advance {s t : Stack} {text : Text}
    (ha : advance k context s line = .ok (t, text)) : MadeOf k line text := by
  cases h : (kind k line.remapped.text).structural with
  | true =>
    rw [(step_of_advance k context h ha).1]
    exact madeOf_remapped (List.Subset.refl _)
  | false =>
    rw [advance_of_not_structural k context s h] at ha
    cases ha
    exact madeOf_rewrite s line

/-- Every line that comes out is made of one that went in. -/
theorem madeOf_of_scan {s u : Stack} {lines : List Line} {texts : List Text}
    (h : scan k context s lines = .ok (u, texts)) :
    ∀ text ∈ texts, ∃ line ∈ lines, MadeOf k line text := by
  induction lines generalizing s texts with
  | nil =>
    cases h
    nofun
  | cons line rest ih =>
    obtain ⟨t, first, more, ha, hrest, rfl⟩ := scan_cons_ok.1 h
    intro text ht
    rcases List.mem_cons.1 ht with rfl | ht
    · exact ⟨line, List.mem_cons_self, madeOf_advance ha⟩
    · obtain ⟨other, hother, hmade⟩ := ih hrest text ht
      exact ⟨other, List.mem_cons_of_mem line hother, hmade⟩

theorem length_of_scan {s u : Stack} {lines : List Line} {texts : List Text}
    (h : scan k context s lines = .ok (u, texts)) : texts.length = lines.length := by
  induction lines generalizing s texts with
  | nil =>
    cases h
    rfl
  | cons line rest ih =>
    obtain ⟨t, first, more, -, hrest, rfl⟩ := scan_cons_ok.1 h
    rw [List.length_cons, List.length_cons, ih hrest]

/-! ### Results of files -/

variable {lines : List Text} {remapped : List Remapped} {out : List Text}

theorem mem_of_mem_pair (h : line ∈ pair lines remapped) :
    line.raw ∈ lines ∧ line.remapped ∈ remapped := by
  rw [pair, ← List.map_uncurry_zip_eq_zipWith, List.mem_map] at h
  obtain ⟨⟨raw, r⟩, hmem, rfl⟩ := h
  exact List.of_mem_zip hmem

/-- A result has a line for each line. -/
theorem length_of_result (hlength : remapped.length = lines.length)
    (h : (convert k context (pair lines remapped)).result = .ok out) :
    out.length = lines.length := by
  obtain ⟨t, hscan, -⟩ := result_eq_ok.1 h
  rw [length_of_scan hscan, pair, List.length_zipWith, hlength, Nat.min_self]

/-- What holds of all characters of the lines, of the remapped texts and of the eval token,
and of a space, holds of all characters of the result. -/
theorem forall_mem_of_result {p : CodePoint → Prop}
    (hlines : ∀ line ∈ lines, ∀ c ∈ line, p c)
    (hremapped : ∀ r ∈ remapped, ∀ c ∈ r.text, p c)
    (heval : ∀ c ∈ k.eval, p c) (hspace : p ' ')
    (h : (convert k context (pair lines remapped)).result = .ok out) :
    ∀ text ∈ out, ∀ c ∈ text, p c := by
  intro text ht c hc
  obtain ⟨t, hscan, -⟩ := result_eq_ok.1 h
  obtain ⟨line, hline, hmade⟩ := madeOf_of_scan hscan text ht
  obtain ⟨hraw, hmapped⟩ := mem_of_mem_pair hline
  rcases hmade c hc with hc | hc | hc | rfl
  · exact hlines _ hraw c hc
  · exact hremapped _ hmapped c hc
  · exact heval c hc
  · exact hspace

end Source
end Multiversion
