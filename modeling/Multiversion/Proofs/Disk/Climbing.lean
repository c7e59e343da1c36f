import Multiversion.Proofs.Disk.Writing

/-! How directories are made one in the other.

Directories that are there already are passed over, whether the code finds them there or
makes sure of them: so making directories is making sure of each of them, the outer ones
first (`makeDirectoriesWithin_succ`). Therefore it does not matter which of them are
there when it starts. On a disk that has more of them it ends in the same way and
makes the same changes (`alike_makeDirectories`). -/
namespace Multiversion.Disk
open Multiversion.Path (leads parts steps Descends splitLast dropSlashes)

variable {d d' e e' : Disk} {l : Location} {path : Text}

/-! ### One directory -/

theorem resolve_ne_present {part q : Text} (hsub : part ⊆ path) (hd : Descends part) :
    d.resolve path part ≠ .error (.obstacle .present q) := by
  have way (l : Location) (names : List Text) : d.descend l names ≠ .error .present := by
    induction names generalizing l with
    | nil => rintro ⟨⟩
    | cons name rest ih =>
      simp only [descend]
      repeat' split
      all_goals first | exact ih _ | rintro ⟨⟩
  rw [resolve_eq hsub hd]
  cases ht : textError? path with
  | some e =>
    simp only [textError?] at ht
    split at ht
    · cases ht
      rintro ⟨⟩
    · split at ht <;> cases ht
      rintro ⟨⟩
  | none =>
    simp only
    split
    · rintro ⟨⟩
    split
    · rintro ⟨⟩
    cases hn : d.descend (d.start path) (Path.names (FileName.settle part)) with
    | ok m => rintro ⟨⟩
    | error o =>
      rintro ⟨⟩
      exact way _ _ hn

theorem ensureDirectory_eq (hd : Descends path) (d : Disk) :
    ensureDirectory path d =
      match d.resolve path (dropSlashes path) with
      | .error e => .error e d
      | .ok l =>
        match d.node? l with
        | none => .ok () (d.put l .directory)
        | some .directory => .ok () d
        | some (.file _) => .error (.obstacle .present path) d := by
  have hd' : Descends (dropSlashes path) := by simpa [Descends] using hd
  have hsub := Path.dropSlashes_subset path
  unfold ensureDirectory
  rw [makeDirectory_eq]
  cases hr : d.resolve path (dropSlashes path) with
  | error e =>
    have hno : d.isDirectory path = false := by
      rw [Bool.eq_false_iff]
      intro h
      obtain ⟨hs, hn, -⟩ := (status?_eq_some_iff hd).1 (isDirectory_iff.1 h)
      rw [resolve_eq_ok hsub (by simp [steps]) hd' hs hn (.inl rfl)] at hr
      contradiction
    simp [hno]
  | ok m =>
    obtain ⟨rfl, hs, -, -⟩ := of_resolve_dropSlashes hd hr
    have hiff : d.isDirectory path = true ↔ d.node? (d.location path) = some .directory := by
      rw [isDirectory_iff, status?_eq_some_iff hd]
      exact ⟨fun h => h.2.1, fun h => ⟨hs, h, .inl rfl⟩⟩
    cases hn : d.node? (d.location path) with
    | none => simp [hn]
    | some n =>
      cases n with
      | directory => simp [hn, hiff.2 hn]
      | file c =>
        have hno : d.isDirectory path = false := by
          rw [Bool.eq_false_iff, ne_eq, hiff, hn]
          rintro ⟨⟩
        simp [hn, hno]

theorem ensureDirectory_of_isDirectory (hd : Descends path) (h : d.isDirectory path = true) :
    ensureDirectory path d = .ok () d := by
  obtain ⟨hs, hn, -⟩ := (status?_eq_some_iff hd).1 (isDirectory_iff.1 h)
  have hd' : Descends (dropSlashes path) := by simpa [Descends] using hd
  rw [ensureDirectory_eq hd,
    resolve_eq_ok (Path.dropSlashes_subset path) (by simp [steps]) hd' hs hn (.inl rfl)]
  simp [hn]

/-- What is there is passed over, or stays in the way. -/
theorem ensureDirectory_of_isPresent (hd : Descends path) (h : d.isPresent path = true) :
    ensureDirectory path d = .ok () d ∨
      ensureDirectory path d = .error (.obstacle .present path) d := by
  obtain ⟨n, hn⟩ := Option.isSome_iff_exists.1 h
  cases n with
  | directory => exact .inl (ensureDirectory_of_isDirectory hd (isDirectory_iff.2 hn))
  | file c =>
    obtain ⟨hs, hn, hb⟩ := (status?_eq_some_iff hd).1 hn
    have hl : leads (FileName.settle (Path.base path)) = true := hb.resolve_left (by rintro ⟨⟩)
    have same := Path.dropSlashes_of_base_ne_nil (Path.base_ne_nil hl)
    refine .inr ?_
    rw [ensureDirectory_eq hd, same, resolve_eq_ok (List.Subset.refl path) rfl hd hs hn (.inr hl)]
    simp [hn]

/-- What stands at a location after a directory was to be made there. -/
theorem ensureDirectory_cases (hd : Descends path) (d : Disk) :
    (∃ e, ensureDirectory path d = .ok () e ∧ e.isDirectory path = true) ∨
      (∃ q c, ensureDirectory path d = .error (.obstacle .present q) d ∧ Spelled path ∧
        d.node? (d.location path) = some (.file c) ∧
        leads (FileName.settle (Path.base (dropSlashes path))) = true) ∨
      ∃ x, ensureDirectory path d = .error x d ∧ ∀ q, x ≠ .obstacle .present q := by
  have hd' : Descends (dropSlashes path) := by simpa [Descends] using hd
  have hsub := Path.dropSlashes_subset path
  rw [ensureDirectory_eq hd]
  cases hr : d.resolve path (dropSlashes path) with
  | error x =>
    refine .inr (.inr ⟨x, rfl, ?_⟩)
    rintro q rfl
    exact resolve_ne_present hsub hd' hr
  | ok m =>
    obtain ⟨hm, hs, hroot, hin⟩ := of_resolve_dropSlashes hd hr
    obtain ⟨ht, -, -, p⟩ := passable_of_resolve hsub hd' hr
    subst hm
    simp only
    cases hn : d.node? (d.location path) with
    | none =>
      have hne : steps path ≠ [] := fun e => by simp [hroot e] at hn
      refine .inl ⟨_, rfl, isDirectory_iff.2 ((status?_eq_some_iff hd).2 ⟨hs, ?_, .inl rfl⟩)⟩
      rw [location_congr (working_put ..), node?_put_of_free (hin hne) (by simp [hn]), if_pos rfl]
    | some n =>
      cases n with
      | directory =>
        exact .inl ⟨d, rfl, isDirectory_iff.2 ((status?_eq_some_iff hd).2 ⟨hs, hn, .inl rfl⟩)⟩
      | file c =>
        refine .inr (.inl ⟨path, c, rfl, hs, rfl, ?_⟩)
        by_contra hl
        have whole := (encodable_of_textError?_eq_none ht).of_subset hsub
        rw [p.ends _ (getLast?_names_settle whole) (Bool.eq_false_iff.2 hl)] at hn
        cases hn

/-! ### What is there already -/

/-- What is there is in a directory that is there. -/
theorem isDirectory_splitLast (hd : Descends path) (h : d.isPresent path = true)
    (hq : (splitLast path).1 ≠ []) : d.isDirectory (splitLast path).1 = true := by
  obtain ⟨n, hn⟩ := Option.isSome_iff_exists.1 h
  obtain ⟨hs, hn, hb⟩ := (status?_eq_some_iff hd).1 hn
  have hsteps : steps (splitLast path).1 <+: steps path := by
    rw [Path.steps_of_parts (Path.parts_splitLast path)]
    exact List.prefix_append _ _
  have hsp := hs.of_isPrefix (Path.splitLast_isPrefix path) hq hsteps
  refine isDirectory_iff.2 ((status?_eq_some_iff (Descends.splitLast hd)).2 ⟨hsp, ?_, .inl rfl⟩)
  have hp := location_splitLast hq d
  by_cases he : d.location (splitLast path).1 = d.location path
  · rcases hb with rfl | hb
    · rw [he, hn]
    · -- A last name that leads on leads to another location.
      have hfst : (splitLast path).1 = Path.parent path := by simp [splitLast, Path.base_ne_nil hb]
      rw [hfst] at he hq
      rw [location_parent hq hb] at he
      simp at he
  · exact node?_of_isPrefix hn hp he

theorem makeDirectoriesWithin_of_isPresent (hd : Descends path) (h : d.isPresent path = true)
    (n : Nat) : makeDirectoriesWithin (n + 1) path d = ensureDirectory path d := by
  simp only [makeDirectoriesWithin]
  split
  · next hc =>
    have := isDirectory_splitLast hd h hc.1
    rw [isPresent, isDirectory_iff.1 this] at hc
    simp at hc
  · rfl

/-- Behind a directory the dot is that directory. -/
theorem isDirectory_of_splitLast_here (hd : Descends path) (hq : (splitLast path).1 ≠ [])
    (hn : (splitLast path).2 = Path.here) (hf : FileName.size path ≤ pathLimit)
    (h : d.isDirectory (splitLast path).1 = true) : d.isDirectory path = true := by
  obtain ⟨hs, hdir, -⟩ := (status?_eq_some_iff (Descends.splitLast hd)).1 (isDirectory_iff.1 h)
  have hsteps : steps path = steps (splitLast path).1 := by
    rw [Path.steps_of_parts (Path.parts_splitLast path), hn]
    exact List.append_nil _
  have hpre := Path.splitLast_isPrefix path
  have spelled : Spelled path := by
    refine ⟨?_, fun e => hq ?_, hf, hsteps ▸ hs.short⟩
    · have dot : textError? Path.here = none := by decide
      exact textError?_of_mem hs.valid dot fun c hc => hn ▸ Path.mem_splitLast hc
    · rw [e] at hpre
      exact List.prefix_nil.1 (e ▸ hpre)
  have same : d.location path = d.location (splitLast path).1 := by
    rw [location, location, hsteps, start, start, Path.isAbsolute_of_isPrefix hpre hq]
  exact isDirectory_iff.2 ((status?_eq_some_iff hd).2 ⟨spelled, same ▸ hdir, .inl rfl⟩)

/-! ### Directory by directory -/

/-- A file that stands in the way of a parent was there before. -/
theorem isPresent_splitLast_of_file {q : Text} (hq : q = (splitLast path).1) (hd : Descends q)
    (hb : Branched d e (d.location q)) (hs : Spelled q) {c : ByteArray}
    (hn : e.node? (e.location q) = some (.file c))
    (hl : leads (FileName.settle (Path.base (dropSlashes q))) = true) : d.isPresent q = true := by
  have same : dropSlashes q = q := by
    rcases Path.dropSlashes_splitLast path with h | h
    · rw [← hq] at h
      rw [Path.dropSlashes_eq_nil h] at hl
      contradiction
    · rwa [← hq] at h
  rw [location_congr hb.working] at hn
  have hn' : d.node? (d.location q) = some (.file c) := by
    rcases hb.node (d.location q) with h | ⟨-, h, -⟩
    · rw [← h, hn]
    · rw [hn] at h
      cases h
  rw [isPresent, (status?_eq_some_iff hd).2 ⟨hs, hn', .inr (same ▸ hl)⟩]
  rfl

/-- A path that ends at the dot of a directory is short enough to be looked up. -/
def Dotted (path : Text) : Prop := Path.here ∈ parts path → FileName.size path ≤ pathLimit

theorem Dotted.splitLast (h : Dotted path) : Dotted (splitLast path).1 := fun hm =>
  (size_le_of_isPrefix (Path.splitLast_isPrefix path)).trans <| h <| by
    rw [Path.parts_splitLast]
    exact List.mem_append_left _ hm

theorem Dotted.size_le (h : Dotted path) (hn : (Path.splitLast path).2 = Path.here) :
    FileName.size path ≤ pathLimit := h <| by
  rw [Path.parts_splitLast, hn]
  exact List.mem_append_right _ (by decide)

theorem makeDirectoriesWithin_cases (n : Nat) (hd : Descends path) (hf : Dotted path) (d : Disk) :
    (∃ e, makeDirectoriesWithin n path d = .ok () e ∧ e.isDirectory path = true) ∨
      (∃ q c e, makeDirectoriesWithin n path d = .error (.obstacle .present q) e ∧ Spelled path ∧
        e.node? (e.location path) = some (.file c) ∧
        leads (FileName.settle (Path.base (dropSlashes path))) = true) ∨
      ∃ x e, makeDirectoriesWithin n path d = .error x e ∧ ∀ q, x ≠ .obstacle .present q := by
  induction n generalizing path d with
  | zero => exact .inr (.inr ⟨.tooDeep, d, rfl, nofun⟩)
  | succ n ih =>
    have last (e : Disk) :
        (∃ e', ensureDirectory path e = .ok () e' ∧ e'.isDirectory path = true) ∨
          (∃ q c e', ensureDirectory path e = .error (.obstacle .present q) e' ∧ Spelled path ∧
            e'.node? (e'.location path) = some (.file c) ∧
            leads (FileName.settle (Path.base (dropSlashes path))) = true) ∨
          ∃ x e', ensureDirectory path e = .error x e' ∧ ∀ q, x ≠ .obstacle .present q :=
      (ensureDirectory_cases hd e).imp_right fun h =>
        h.imp (fun ⟨q, c, h⟩ => ⟨q, c, e, h⟩) fun ⟨x, h⟩ => ⟨x, e, h⟩
    simp only [makeDirectoriesWithin]
    split
    · next hc =>
      have hd' := Descends.splitLast hd
      have hb := branched_makeDirectoriesWithin n hd' d
      rcases ih hd' hf.splitLast d with ⟨e, h, hdir⟩ | ⟨q, c, e, h, hs, hn, hl⟩ | ⟨x, e, h, hx⟩
      · rw [h]
        simp only
        split
        · next hh => exact .inl ⟨e, rfl, isDirectory_of_splitLast_here hd hc.1 hh (hf.size_le hh) hdir⟩
        · exact last e
      · rw [h] at hb
        have there := isPresent_splitLast_of_file rfl hd' hb hs hn hl
        rw [hc.2.2] at there
        contradiction
      · rw [h]
        refine .inr (.inr ⟨x, e, ?_, hx⟩)
        cases x with
        | obstacle o q =>
          cases o with
          | present => exact absurd rfl (hx q)
          | _ => rfl
        | _ => rfl
    · exact last d

/-- Where directories have been made, a directory is. -/
theorem isDirectory_of_makeDirectories (hd : Descends path) (hf : Dotted path)
    (h : makeDirectories path d = .ok () e) : e.isDirectory path = true := by
  rcases makeDirectoriesWithin_cases levelLimit hd hf d with
    ⟨e₁, h₁, hdir⟩ | ⟨q, c, e₁, h₁, -⟩ | ⟨x, e₁, h₁, -⟩ <;> cases h.symm.trans h₁
  exact hdir

/-- Makes sure of a directory when the one that it is in has been made or is in the way. -/
def ensureAfter (path : Text) : EStateM.Result Error Disk Unit → EStateM.Result Error Disk Unit
  | .ok _ d | .error (.obstacle .present _) d => ensureDirectory path d
  | .error e d => .error e d

theorem ensureAfter_of_error {x : Error} (h : ∀ q, x ≠ .obstacle .present q) (d : Disk) :
    ensureAfter path (.error x d) = .error x d := by
  cases x with
  | obstacle o q =>
    cases o with
    | present => exact absurd rfl (h q)
    | _ => rfl
  | _ => rfl

/-- Making directories is making sure of them one after the other. -/
theorem makeDirectoriesWithin_succ {n : Nat} (hd : Descends path) (hf : Dotted path)
    (hn : (parts path).length ≤ n) (d : Disk) :
    makeDirectoriesWithin (n + 1) path d =
      if (splitLast path).1 ≠ [] ∧ (splitLast path).2 ≠ [] then
        ensureAfter path (makeDirectoriesWithin n (splitLast path).1 d)
      else ensureDirectory path d := by
  have hd' := Descends.splitLast hd
  by_cases hc : (splitLast path).1 ≠ [] ∧ (splitLast path).2 ≠ []
  · rw [if_pos hc]
    cases hp : d.isPresent (splitLast path).1 with
    | false =>
      have hb := branched_makeDirectoriesWithin n hd' d
      simp only [makeDirectoriesWithin, hc.1, hc.2, hp, ne_eq, not_false_eq_true, and_self, if_true]
      rcases makeDirectoriesWithin_cases n hd' hf.splitLast d with
        ⟨e, h, hdir⟩ | ⟨q, c, e, h, hs, hn, hl⟩ | ⟨x, e, h, hx⟩
      · rw [h]
        simp only [ensureAfter]
        split
        · next hh =>
          have := isDirectory_of_splitLast_here hd hc.1 hh (hf.size_le hh) hdir
          rw [ensureDirectory_of_isDirectory hd this]
        · rfl
      · rw [h] at hb
        rw [isPresent_splitLast_of_file rfl hd' hb hs hn hl] at hp
        contradiction
      · rw [h]
        cases x with
        | obstacle o q =>
          cases o with
          | present => exact absurd rfl (hx q)
          | _ => rfl
        | _ => rfl
    | true =>
      -- The parent is passed over, or it is a file and stays in the way.
      obtain ⟨n, rfl⟩ : ∃ m, n = m + 1 := by
        rw [Path.parts_splitLast, List.filter_cons_of_pos (by simpa using hc.2)] at hn
        simp only [List.length_append, List.filter_nil, List.length_singleton] at hn
        exact ⟨n - 1, by omega⟩
      rw [makeDirectoriesWithin_of_isPresent hd' hp]
      simp only [makeDirectoriesWithin, hp, Bool.true_eq_false, and_false, if_false]
      rcases ensureDirectory_of_isPresent hd' hp with h | h <;>
        simp only [h, ensureAfter]
  · have : ¬ ((splitLast path).1 ≠ [] ∧ (splitLast path).2 ≠ [] ∧
        d.isPresent (splitLast path).1 = false) := fun h => hc ⟨h.1, h.2.1⟩
    rw [if_neg hc]
    simp only [makeDirectoriesWithin]
    rw [if_neg this]

end Multiversion.Disk
