import Mathlib.Data.List.TakeWhile
import Multiversion.Path
import Multiversion.Proofs.Text.FileName

/-! The names that a path spells.

Slashes that meet or end a path make empty names, which lead nowhere; `parts` are the
others. A path has the parts of its parent and its own last name (`parts_parent`), and
joining puts parts behind parts (`parts_join`). What a disk follows are the `steps`:
the parts as they are read back, without the dots that stay where they are. -/
namespace Multiversion

namespace Text

theorem splitOn_append (separator : CodePoint) (s s' : Text) :
    splitOn separator (s ++ separator :: s') = splitOn separator s ++ splitOn separator s' := by
  induction s with
  | nil => simp [splitOn]
  | cons c s ih =>
    simp only [List.cons_append, splitOn, ih]
    split
    · rfl
    · obtain ⟨piece, more, e⟩ := List.exists_cons_of_ne_nil (splitOn_ne_nil separator s)
      simp [e, consFirst]

theorem splitOn_of_notMem {separator : CodePoint} {s : Text} (h : separator ∉ s) :
    splitOn separator s = [s] := by
  induction s with
  | nil => rfl
  | cons c s ih =>
    obtain ⟨hc, hs⟩ := not_or.1 (List.mem_cons.not.1 h)
    simp [splitOn, Ne.symm hc, ih hs, consFirst]

theorem notMem_of_mem_splitOn {separator : CodePoint} {s piece : Text}
    (h : piece ∈ splitOn separator s) : separator ∉ piece ∧ piece ⊆ s := by
  induction s generalizing piece with
  | nil => simp_all [splitOn]
  | cons c s ih =>
    simp only [splitOn] at h
    split at h
    · rcases List.mem_cons.1 h with rfl | h
      · simp
      · exact ⟨(ih h).1, List.Subset.trans (ih h).2 (List.subset_cons_self _ _)⟩
    · next hc =>
      obtain ⟨first, more, e⟩ := List.exists_cons_of_ne_nil (splitOn_ne_nil separator s)
      rw [e] at h
      rcases List.mem_cons.1 h with rfl | h
      · obtain ⟨hn, hsub⟩ := @ih first (by simp [e])
        exact ⟨by simp [hn, Ne.symm hc], List.cons_subset_cons _ hsub⟩
      · obtain ⟨hn, hsub⟩ := @ih piece (by simp [e, h])
        exact ⟨hn, List.Subset.trans hsub (List.subset_cons_self _ _)⟩

theorem join_cons_cons (separator piece next : Text) (more : List Text) :
    join separator (piece :: next :: more) = piece ++ (separator ++ join separator (next :: more)) := by
  simp [join, List.intercalate]

/-- What is put together holds the characters of its pieces and of the separator. -/
theorem mem_join {separator : Text} {pieces : List Text} {c : CodePoint}
    (h : c ∈ join separator pieces) : c ∈ separator ∨ ∃ piece ∈ pieces, c ∈ piece := by
  match pieces with
  | [] => cases h
  | [piece] => exact .inr ⟨piece, List.mem_cons_self, by simpa [join] using h⟩
  | piece :: next :: more =>
    rw [join_cons_cons, List.mem_append, List.mem_append] at h
    obtain h | h | h := h
    · exact .inr ⟨piece, List.mem_cons_self, h⟩
    · exact .inl h
    · obtain hc | ⟨later, hlater, hc⟩ := mem_join h
      · exact .inl hc
      · exact .inr ⟨later, List.mem_cons_of_mem _ hlater, hc⟩

/-- Pieces without separators are what their join is split into. -/
theorem splitOn_join {separator : CodePoint} {pieces : List Text} (hne : pieces ≠ [])
    (h : ∀ piece ∈ pieces, separator ∉ piece) :
    splitOn separator (join [separator] pieces) = pieces := by
  match pieces with
  | [piece] => simpa [join, List.intercalate] using splitOn_of_notMem (h piece (by simp))
  | piece :: next :: more =>
    have tail := @splitOn_join separator (next :: more) (by simp)
      fun p hp => h p (List.mem_cons_of_mem _ hp)
    rw [join_cons_cons, List.singleton_append, splitOn_append, tail,
      splitOn_of_notMem (h piece (by simp))]
    rfl

end Text

namespace Path

/-- The names of a path that are not empty. -/
def parts (path : Text) : List Text := (names path).filter (· ≠ [])

/-- The names that a disk follows: the parts as they are read back, less the dots that
stay where they are. -/
def steps (path : Text) : List Text := ((parts path).map FileName.settle).filter (· ≠ here)

/-- A name that leads on from the directory it is read in. -/
def leads (name : Text) : Bool := name ≠ [] ∧ name ≠ here

/-- No part of a path leads back up. -/
def Descends (path : Text) : Prop := up ∉ parts path

instance (path : Text) : Decidable (Descends path) := inferInstanceAs (Decidable (up ∉ parts path))

/-! ### Slashes -/

theorem isSlash_iff {c : CodePoint} : isSlash c = true ↔ c = '/' := by simp [isSlash]

theorem parts_append_slash (s s' : Text) :
    parts (s ++ CodePoint.ofChar '/' :: s') = parts s ++ parts s' := by
  simp [parts, names, Text.splitOn_append]

theorem parts_slash (s : Text) : parts (CodePoint.ofChar '/' :: s) = parts s := by
  simp [parts, names, Text.splitOn]

/-- Slashes at the front of a path are no parts of it. -/
theorem parts_slashes_append {slashes : Text} (h : slashes.all isSlash = true) (s : Text) :
    parts (slashes ++ s) = parts s := by
  induction slashes with
  | nil => rfl
  | cons c slashes ih =>
    simp only [List.all_cons, Bool.and_eq_true] at h
    obtain rfl := isSlash_iff.1 h.1
    rw [List.cons_append, parts_slash, ih h.2]

theorem parts_slashes {slashes : Text} (h : slashes.all isSlash = true) : parts slashes = [] := by
  simpa [parts, names, Text.splitOn] using parts_slashes_append h []

theorem parts_append_slashes {slashes : Text} (h : slashes.all isSlash = true) (s : Text) :
    parts (s ++ slashes) = parts s := by
  cases slashes with
  | nil => simp
  | cons c slashes =>
    simp only [List.all_cons, Bool.and_eq_true] at h
    obtain rfl := isSlash_iff.1 h.1
    rw [parts_append_slash, parts_slashes h.2, List.append_nil]

theorem parts_of_notMem {name : Text} (h : CodePoint.ofChar '/' ∉ name) :
    parts name = [name].filter (· ≠ []) := by
  rw [parts, names, Text.splitOn_of_notMem h]

theorem dropSlashes_append (s : Text) :
    ∃ slashes, s = dropSlashes s ++ slashes ∧ slashes.all isSlash = true := by
  refine ⟨(s.reverse.takeWhile isSlash).reverse, ?_, ?_⟩
  · rw [dropSlashes, ← List.reverse_append, List.takeWhile_append_dropWhile, List.reverse_reverse]
  · rw [List.all_reverse]
    exact List.all_takeWhile

@[simp] theorem parts_dropSlashes (s : Text) : parts (dropSlashes s) = parts s := by
  obtain ⟨slashes, e, h⟩ := dropSlashes_append s
  conv => rhs; rw [e, parts_append_slashes h]

theorem dropSlashes_subset (s : Text) : dropSlashes s ⊆ s := by
  obtain ⟨slashes, e, -⟩ := dropSlashes_append s
  conv => rhs; rw [e]
  exact List.subset_append_left _ _

/-! ### Parents -/

theorem slash_notMem_base (path : Text) : CodePoint.ofChar '/' ∉ base path := by
  intro h
  have := List.mem_takeWhile_imp (List.mem_reverse.1 h)
  simp [isSlash] at this

/-- A path is a front that ends at a slash, and its last name. -/
theorem front_append_base (path : Text) :
    ∃ front, path = front ++ base path ∧ (front = [] ∨ front.getLast? = some '/') ∧
      parent path = if front.all isSlash then front else dropSlashes front := by
  refine ⟨(path.reverse.dropWhile fun c => !isSlash c).reverse, ?_, ?_, rfl⟩
  · rw [base, ← List.reverse_append, List.takeWhile_append_dropWhile, List.reverse_reverse]
  · cases h : path.reverse.dropWhile fun c => !isSlash c with
    | nil => simp
    | cons c front =>
      have := List.head?_dropWhile_not (fun c => !isSlash c) path.reverse
      simp [h] at this
      simp [isSlash_iff.1 this]

/-- A path is its parent and its last name with slashes between them, unless the parent
is slashes alone or nothing. -/
theorem parent_append (path : Text) :
    ∃ slashes, path = parent path ++ (slashes ++ base path) ∧ slashes.all isSlash = true ∧
      ((parent path).all isSlash = true ∨ slashes ≠ []) := by
  obtain ⟨front, e, hend, hp⟩ := front_append_base path
  split at hp
  · next h => exact ⟨[], by rw [hp, List.nil_append]; exact e, rfl, .inl (hp ▸ h)⟩
  · next h =>
    obtain ⟨slashes, e', hs⟩ := dropSlashes_append front
    refine ⟨slashes, by rw [hp, ← List.append_assoc, ← e']; exact e, hs, .inr ?_⟩
    rintro rfl
    rw [List.append_nil] at e'
    have last : front.getLast? = some '/' := hend.resolve_left fun e => h (by rw [e]; rfl)
    rw [e', dropSlashes, List.getLast?_reverse] at last
    have := List.head?_dropWhile_not isSlash front.reverse
    rw [last] at this
    simp [isSlash] at this

/-- A path has the parts of its parent and its last name. -/
theorem parts_parent (path : Text) :
    parts path = parts (parent path) ++ [base path].filter (· ≠ []) := by
  obtain ⟨slashes, e, hs, hc⟩ := parent_append path
  have hb := parts_of_notMem (slash_notMem_base path)
  conv => lhs; rw [e]
  rcases hc with hc | hc
  · rw [parts_slashes_append hc, parts_slashes hc, parts_slashes_append hs, hb, List.nil_append]
  · obtain ⟨c, slashes, rfl⟩ := List.exists_cons_of_ne_nil hc
    simp only [List.all_cons, Bool.and_eq_true] at hs
    obtain rfl := isSlash_iff.1 hs.1
    rw [List.cons_append, parts_append_slash, parts_slashes_append hs.2, hb]

theorem parent_isPrefix (path : Text) : parent path <+: path := by
  obtain ⟨slashes, e, -⟩ := parent_append path
  exact ⟨_, e.symm⟩

theorem base_subset (path : Text) : base path ⊆ path := by
  obtain ⟨front, e, -⟩ := front_append_base path
  conv => rhs; rw [e]
  exact List.subset_append_right _ _

theorem isAbsolute_base (path : Text) : isAbsolute (base path) = false := by
  rw [Bool.eq_false_iff]
  intro h
  exact slash_notMem_base path (List.mem_of_mem_head? (by simpa [isAbsolute] using h))

theorem isAbsolute_of_isPrefix {front path : Text} (h : front <+: path) (hne : front ≠ []) :
    isAbsolute front = isAbsolute path := by
  obtain ⟨c, front, rfl⟩ := List.exists_cons_of_ne_nil hne
  obtain ⟨rest, rfl⟩ := h
  rfl

/-! ### Last names -/

/-- A last name that leads on is not empty. -/
theorem base_ne_nil {path : Text} (h : leads (FileName.settle (base path)) = true) :
    base path ≠ [] := by
  intro e
  rw [e] at h
  contradiction

theorem getLast?_names (path : Text) : (names path).getLast? = some (base path) := by
  obtain ⟨front, e, hend, -⟩ := front_append_base path
  have hb : names (base path) = [base path] := Text.splitOn_of_notMem (slash_notMem_base path)
  generalize base path = last at e hb ⊢
  subst e
  rcases hend with rfl | hend
  · rw [List.nil_append, hb, List.getLast?_singleton]
  · obtain ⟨front, rfl⟩ := List.getLast?_eq_some_iff.1 hend
    have split : names (front ++ [CodePoint.ofChar '/'] ++ last) = names front ++ names last := by
      simp [names, Text.splitOn_append]
    rw [split, hb, List.getLast?_concat]

theorem parts_splitLast (path : Text) :
    parts path = parts (splitLast path).1 ++ [(splitLast path).2].filter (· ≠ []) := by
  unfold splitLast
  split
  · next h =>
    rw [parts_parent path, h, parts_parent (parent path)]
    simp
  · exact parts_parent path

theorem splitLast_isPrefix (path : Text) : (splitLast path).1 <+: path := by
  unfold splitLast
  split
  · exact (parent_isPrefix _).trans (parent_isPrefix path)
  · exact parent_isPrefix path

theorem dropSlashes_of_base_ne_nil {path : Text} (h : base path ≠ []) : dropSlashes path = path := by
  unfold base at h
  rw [dropSlashes]
  cases hr : path.reverse with
  | nil => simp_all
  | cons c rest =>
    rw [hr, List.takeWhile_cons] at h
    have hc : isSlash c = false := by
      by_contra hc
      simp [hc] at h
    rw [List.dropWhile_cons_of_neg (by simp [hc]), ← hr, List.reverse_reverse]

theorem dropSlashes_of_getLast? {path : Text} (h : path.getLast? ≠ some '/') :
    dropSlashes path = path := by
  rw [dropSlashes]
  cases hr : path.reverse with
  | nil => rw [List.reverse_eq_nil_iff.1 hr]; rfl
  | cons c rest =>
    have hc : ¬ isSlash c = true := by
      rw [isSlash_iff]
      intro hc
      rw [← List.head?_reverse, hr, hc] at h
      exact h rfl
    rw [List.dropWhile_cons_of_neg hc, ← hr, List.reverse_reverse]

/-- A parent does not end at a slash, unless it is slashes alone. -/
theorem dropSlashes_parent (path : Text) :
    (parent path).all isSlash = true ∨ dropSlashes (parent path) = parent path := by
  obtain ⟨front, -, -, hp⟩ := front_append_base path
  split at hp
  · next h => exact .inl (hp ▸ h)
  · refine .inr ?_
    rw [hp, dropSlashes, dropSlashes, List.reverse_reverse]
    cases hr : front.reverse.dropWhile isSlash with
    | nil => rfl
    | cons c rest =>
      have hc := List.head?_dropWhile_not isSlash front.reverse
      rw [hr] at hc
      rw [List.dropWhile_cons_of_neg (by simpa using hc)]

theorem dropSlashes_eq_nil {s : Text} (h : s.all isSlash = true) : dropSlashes s = [] := by
  rw [dropSlashes, List.reverse_eq_nil_iff, List.dropWhile_eq_nil_iff]
  intro c hc
  exact List.all_eq_true.1 h c (List.mem_reverse.1 hc)

theorem splitLast_snd (path : Text) : (splitLast path).2 = base (dropSlashes path) := by
  unfold splitLast
  split
  · next h =>
    obtain ⟨front, e, -, hp⟩ := front_append_base path
    rw [h, List.append_nil] at e
    subst e
    split at hp
    · next hs => rw [hp, h, dropSlashes_eq_nil hs]; rfl
    · rw [hp]
  · next h => rw [dropSlashes_of_base_ne_nil h]

theorem dropSlashes_eq_nil_of_base {s : Text} (h : base (dropSlashes s) = []) :
    dropSlashes s = [] := by
  unfold base at h
  unfold dropSlashes at h ⊢
  rw [List.reverse_reverse] at h
  cases hr : s.reverse.dropWhile isSlash with
  | nil => rfl
  | cons c rest =>
    have hc := List.head?_dropWhile_not isSlash s.reverse
    rw [hr] at hc
    rw [hr, List.takeWhile_cons_of_pos (by simpa using hc)] at h
    simp at h

theorem dropSlashes_splitLast (path : Text) :
    (splitLast path).1.all isSlash = true ∨ dropSlashes (splitLast path).1 = (splitLast path).1 := by
  unfold splitLast
  split <;> exact dropSlashes_parent _

theorem mem_splitLast {path : Text} {c : CodePoint} (h : c ∈ path) :
    c ∈ (splitLast path).1 ∨ c ∈ (splitLast path).2 ∨ c = '/' := by
  have up {s : Text} (h : c ∈ s) : c ∈ parent s ∨ c ∈ base s ∨ c = '/' := by
    obtain ⟨slashes, e, hs, -⟩ := parent_append s
    rw [e, List.mem_append, List.mem_append] at h
    rcases h with h | h | h
    · exact .inl h
    · exact .inr (.inr (isSlash_iff.1 (List.all_eq_true.1 hs c h)))
    · exact .inr (.inl h)
  unfold splitLast
  split
  · next hb =>
    rcases up h with h | h | h
    · exact up h
    · rw [hb] at h
      contradiction
    · exact .inr (.inr h)
  · exact up h

/-! ### Joining -/

theorem parts_join {path more : Text} (hp : path ≠ []) (hm : isAbsolute more = false) :
    parts (join path more) = parts path ++ parts more := by
  have bare : path.isEmpty = false := by simpa using hp
  rw [join, if_neg (by simp [hm])]
  split
  · next h =>
    simp only [bare, Bool.false_eq_true, false_or] at h
    obtain ⟨front, rfl⟩ := List.getLast?_eq_some_iff.1 h
    have slash := parts_append_slash front []
    rw [show parts [] = [] from rfl, List.append_nil] at slash
    rw [slash, List.append_assoc, List.singleton_append, parts_append_slash]
  · rw [List.append_assoc]
    exact parts_append_slash path more

theorem mem_join {path more : Text} {c : CodePoint} (h : c ∈ join path more) :
    c ∈ path ∨ c ∈ more ∨ c = '/' := by
  unfold join at h
  split at h
  · exact .inr (.inl h)
  · split at h
    · rcases List.mem_append.1 h with h | h
      · exact .inl h
      · exact .inr (.inl h)
    · rcases List.mem_append.1 h with h | h
      · rcases List.mem_append.1 h with h | h
        · exact .inl h
        · exact .inr (.inr (List.mem_singleton.1 h))
      · exact .inr (.inl h)

theorem isPrefix_join {path more : Text} (hm : isAbsolute more = false) :
    path <+: join path more := by
  rw [join, if_neg (by simp [hm])]
  split
  · exact List.prefix_append _ _
  · rw [List.append_assoc]
    exact List.prefix_append _ _

theorem base_join {path more : Text} (hp : path ≠ []) (hm : isAbsolute more = false) :
    base (join path more) = base more := by
  have last (front : Text) : base (front ++ CodePoint.ofChar '/' :: more) = base more := by
    have h := getLast?_names (front ++ CodePoint.ofChar '/' :: more)
    rw [names, Text.splitOn_append, List.getLast?_append_of_ne_nil _ (Text.splitOn_ne_nil _ _)] at h
    exact Option.some.inj (h.symm.trans (getLast?_names more))
  have bare : path.isEmpty = false := by simpa using hp
  rw [join, if_neg (by simp [hm])]
  split
  · next h =>
    simp only [bare, Bool.false_eq_true, false_or] at h
    obtain ⟨front, rfl⟩ := List.getLast?_eq_some_iff.1 h
    rw [List.append_assoc]
    exact last front
  · rw [List.append_assoc]
    exact last path

theorem parent_ne_nil {path : Text} (h : CodePoint.ofChar '/' ∈ path) : parent path ≠ [] := by
  obtain ⟨front, e, -, hp⟩ := front_append_base path
  have hs : CodePoint.ofChar '/' ∈ front := by
    rw [e] at h
    exact (List.mem_append.1 h).resolve_right (e ▸ slash_notMem_base path)
  rw [hp]
  split
  · exact List.ne_nil_of_mem hs
  · next hall =>
    intro hnil
    obtain ⟨slashes, e', hs'⟩ := dropSlashes_append front
    rw [hnil, List.nil_append] at e'
    exact hall (e' ▸ hs')

theorem slash_mem_join {path more : Text} (hp : path ≠ []) (hm : isAbsolute more = false) :
    CodePoint.ofChar '/' ∈ join path more := by
  have bare : path.isEmpty = false := by simpa using hp
  rw [join, if_neg (by simp [hm])]
  split
  · next h =>
    simp only [bare, Bool.false_eq_true, false_or] at h
    exact List.mem_append_left _ (List.mem_of_getLast? h)
  · exact List.mem_append_left _ (List.mem_append_right _ (List.mem_singleton.2 rfl))

/-- A longer path from the same directory is a longer text. -/
theorem join_isPrefix_join {path more more' : Text} (h : more <+: more')
    (hm : isAbsolute more = false) (hm' : isAbsolute more' = false) :
    join path more <+: join path more' := by
  simp only [join, hm, hm', Bool.false_eq_true, if_false]
  split <;> exact (List.prefix_append_right_inj _).2 h

/-! ### Steps -/

theorem steps_of_parts {path front : Text} {more : List Text}
    (h : parts path = parts front ++ more) :
    steps path = steps front ++ (more.map FileName.settle).filter (· ≠ here) := by
  simp [steps, h]

/-- What is not taken apart into a parent and a name has no steps in front of the last one. -/
theorem steps_splitLast_eq_nil {path : Text}
    (h : ¬ ((splitLast path).1 ≠ [] ∧ (splitLast path).2 ≠ [])) : steps (splitLast path).1 = [] := by
  by_cases hq : (splitLast path).1 = []
  · rw [hq]
    rfl
  · have hn : base (dropSlashes path) = [] := by
      rw [← splitLast_snd]
      by_contra hn
      exact h ⟨hq, hn⟩
    have all := parts_splitLast path
    rw [← parts_dropSlashes path, dropSlashes_eq_nil_of_base hn] at all
    have := (List.append_eq_nil_iff.1 all.symm).1
    rw [steps, this]
    rfl

theorem steps_join {path more : Text} (hp : path ≠ []) (hm : isAbsolute more = false) :
    steps (join path more) = steps path ++ steps more := steps_of_parts (parts_join hp hm)

theorem mem_names {path name : Text} (h : name ∈ names path) :
    CodePoint.ofChar '/' ∉ name ∧ name ⊆ path := Text.notMem_of_mem_splitOn h

/-- Reading a path back goes name by name. -/
theorem names_settle {path : Text} (h : FileName.Encodable path) :
    names (FileName.settle path) = (names path).map FileName.settle := by
  conv => lhs; rw [← Text.join_splitOn '/' path, FileName.settle_join]
  refine Text.splitOn_join (by simpa using Text.splitOn_ne_nil _ _) ?_
  simp only [List.mem_map, forall_exists_index, and_imp, forall_apply_eq_imp_iff₂]
  intro name hn
  obtain ⟨hs, hsub⟩ := mem_names hn
  exact FileName.slash_notMem_settle (h.of_subset hsub) hs

/-- What a disk follows is what is left of the names as they are read back. -/
theorem filter_names_settle {path : Text} (h : FileName.Encodable path) :
    (names (FileName.settle path)).filter leads = steps path := by
  rw [names_settle h, steps, parts, List.filter_map, List.filter_map, List.filter_filter]
  congr 1
  refine List.filter_congr fun name hn => ?_
  have whole := h.of_subset (mem_names hn).2
  have empty : FileName.settle name = [] ↔ name = [] :=
    ⟨fun e => FileName.eq_of_settle_eq whole e (by simp), fun e => by rw [e]; rfl⟩
  simp [leads, empty, Bool.and_comm]

/-- The names that lead to where the last one is looked for. -/
theorem filter_dropLast_names_settle {path : Text} (h : FileName.Encodable path) :
    (names (FileName.settle (dropSlashes path))).dropLast.filter leads = steps (splitLast path).1 := by
  have whole := h.of_subset (dropSlashes_subset path)
  have last : (names (FileName.settle (dropSlashes path))).getLast? =
      some (FileName.settle (splitLast path).2) := by
    rw [names_settle whole, List.getLast?_map, getLast?_names, splitLast_snd, Option.map_some]
  obtain ⟨front, e⟩ := List.getLast?_eq_some_iff.1 last
  rw [e, List.dropLast_concat]
  have all := filter_names_settle whole
  rw [e, List.filter_append, steps, parts_dropSlashes, ← steps,
    steps_of_parts (parts_splitLast path)] at all
  have tail : (([(splitLast path).2].filter (· ≠ [])).map FileName.settle).filter (· ≠ here) =
      [FileName.settle (splitLast path).2].filter leads := by
    by_cases hn : (splitLast path).2 = []
    · rw [hn]; rfl
    · have part : (splitLast path).2 ⊆ path := by
        rw [splitLast_snd]
        exact List.Subset.trans (base_subset _) (dropSlashes_subset path)
      have hn' : FileName.settle (splitLast path).2 ≠ [] := fun e =>
        hn (FileName.eq_of_settle_eq (h.of_subset part) e (by simp))
      rw [List.filter_cons_of_pos (by simpa using hn)]
      simp only [List.map_cons, List.filter_nil, List.map_nil]
      exact List.filter_congr fun n hm => by simp [List.mem_singleton.1 hm, leads, hn']
  rw [tail] at all
  exact (List.append_cancel_right all)

theorem Descends.up_notMem {path : Text} (h : Descends path) (he : FileName.Encodable path) :
    up ∉ names (FileName.settle path) := by
  rw [names_settle he, List.mem_map]
  rintro ⟨name, hn, e⟩
  obtain rfl := FileName.eq_of_settle_eq (he.of_subset (mem_names hn).2) e (by decide)
  exact h (List.mem_filter.2 ⟨hn, by decide⟩)

/-! ### Relative paths -/

/-- The path of names that are not empty and hold no slashes has these names for parts. -/
theorem parts_joined {l : List Text} (h : ∀ n ∈ l, n ≠ [] ∧ CodePoint.ofChar '/' ∉ n) :
    parts (Text.join ['/'] l) = l := by
  by_cases hl : l = []
  · subst hl
    rfl
  · rw [parts, names, Text.splitOn_join hl fun n hn => (h n hn).2]
    exact List.filter_eq_self.2 fun n hn => by simpa using (h n hn).1

theorem isAbsolute_joined {l : List Text} (h : ∀ n ∈ l, n ≠ [] ∧ CodePoint.ofChar '/' ∉ n) :
    isAbsolute (Text.join ['/'] l) = false := by
  match l with
  | [] => rfl
  | name :: more =>
    obtain ⟨hne, hs⟩ := h name (by simp)
    obtain ⟨c, rest, rfl⟩ := List.exists_cons_of_ne_nil hne
    have hc : c ≠ '/' := fun e => hs (by simp [e])
    cases more <;> simpa [Text.join, List.intercalate, isAbsolute] using hc

theorem join_concat_isPrefix (l : List Text) (name : Text) :
    Text.join ['/'] l <+: Text.join ['/'] (l ++ [name]) := by
  match l with
  | [] => exact List.nil_prefix
  | [first] => exact ⟨CodePoint.ofChar '/' :: name, by simp [Text.join, List.intercalate]⟩
  | first :: next :: more =>
    obtain ⟨rest, h⟩ := join_concat_isPrefix (next :: more) name
    refine ⟨rest, ?_⟩
    simp only [Text.join, List.intercalate, List.cons_append, List.intersperse_cons_cons,
      List.flatten_cons] at h ⊢
    rw [← h]
    simp

theorem base_joined {l : List Text} (h : ∀ n ∈ l, n ≠ [] ∧ CodePoint.ofChar '/' ∉ n) (hl : l ≠ []) :
    base (Text.join ['/'] l) = l.getLast hl := by
  have last := getLast?_names (Text.join ['/'] l)
  rw [names, Text.splitOn_join hl fun n hn => (h n hn).2, List.getLast?_eq_some_getLast hl] at last
  exact (Option.some.inj last).symm

end Path

end Multiversion
