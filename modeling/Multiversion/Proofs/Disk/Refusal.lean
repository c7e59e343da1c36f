import Multiversion.Proofs.Disk.Writing

/-! Which errors are the disk's own.

A path that a disk can be given meets only refusals of the disk (`Error.isRefusal`):
looking, reading and writing fail with an obstacle, and making directories does unless
there are too many of them. So copying fails with a refusal (`isRefusal_of_copy`). -/
namespace Multiversion.Disk

variable {d d' : Disk} {path : Text} {e : Error}

theorem isRefusal_of_resolve {part : Text} (ht : textError? path = none)
    (h : d.resolve path part = .error e) : e.isRefusal = true := by
  unfold resolve place at h
  rw [ht] at h
  cases hl : d.locatePart path part with
  | error o => rw [hl] at h; cases h; rfl
  | ok p => rw [hl] at h; contradiction

theorem isRefusal_of_makeDirectory (ht : textError? path = none)
    (h : makeDirectory path d = .error e d') : e.isRefusal = true := by
  rw [makeDirectory_eq] at h
  split at h
  · next hr => cases h; exact isRefusal_of_resolve ht hr
  · split at h <;> cases h
    rfl

theorem isRefusal_of_ensureDirectory (ht : textError? path = none)
    (h : ensureDirectory path d = .error e d') : e.isRefusal = true := by
  unfold ensureDirectory at h
  split at h
  · contradiction
  · next hm =>
    split at h <;> cases h
    exact isRefusal_of_makeDirectory ht hm

/-- Directories that are few enough are made, or the disk refuses one. -/
theorem isRefusal_of_makeDirectoriesWithin {levels : Nat} (ht : textError? path = none)
    (hl : (Path.parts path).length < levels)
    (h : makeDirectoriesWithin levels path d = .error e d') : e.isRefusal = true := by
  induction levels generalizing path d d' e with
  | zero => omega
  | succ levels ih =>
    simp only [makeDirectoriesWithin] at h
    split at h
    · next hn =>
      have ht' := textError?_of_subset ht (Path.splitLast_isPrefix path).subset
      have hl' : (Path.parts (Path.splitLast path).1).length < levels := by
        rw [Path.parts_splitLast] at hl
        simp [hn.2.1] at hl
        omega
      split at h
      · split at h
        · contradiction
        · exact isRefusal_of_ensureDirectory ht h
      · split at h
        · contradiction
        · exact isRefusal_of_ensureDirectory ht h
      · next hi =>
        cases h
        exact ih ht' hl' hi
    · exact isRefusal_of_ensureDirectory ht h

theorem isRefusal_of_write {content : ByteArray} (ht : textError? path = none)
    (h : write path content d = .error e d') : e.isRefusal = true := by
  rw [write_eq] at h
  split at h
  · next hr => cases h; exact isRefusal_of_resolve ht hr
  · split at h <;> cases h
    rfl

theorem isRefusal_of_read (ht : textError? path = none) (h : d.read path = .error e) :
    e.isRefusal = true := by
  rw [read_eq] at h
  split at h
  · next hr => cases h; exact isRefusal_of_resolve ht hr
  · split at h <;> cases h <;> rfl

/-- Copying fails with a refusal. -/
theorem isRefusal_of_copy {source target : Text} (hs : textError? source = none)
    (ht : textError? target = none) (h : copy source target d = .error e d') :
    e.isRefusal = true := by
  rw [copy_eq] at h
  have ht' : textError? (if d.isDirectory target then Path.join target (Path.base source)
      else target) = none := by
    split
    · exact textError?_join ht (textError?_of_subset hs (Path.base_subset source))
    · exact ht
  simp only at h
  generalize (if d.isDirectory target then Path.join target (Path.base source) else target) = file
    at h ht'
  split at h
  · cases h
    rfl
  · split at h
    · next hr =>
      cases h
      exact isRefusal_of_read hs hr
    · exact isRefusal_of_write ht' h

end Multiversion.Disk
