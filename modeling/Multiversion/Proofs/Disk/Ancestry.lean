import Multiversion.Proofs.Disk.Refusal

/-! Writing a file at the end of any path.

A path may lead back on its way, through two dots. It then passes directories that are not
above the place it leads to, and those are made too where nothing is. `Walk` is the way of
names through the directories of a disk, `climb` the location it comes to, and `OnWay` the
locations of the fronts of a path.

`Paved` is what making directories leaves behind: directories on the way of the path where
nothing was, also when it fails half-way (`paved_makeDirectories`). `Stored` is what a file
leaves behind that has been written with the directories it needs (`stored_of_install`): it
can be read back, and nothing else has changed. -/
namespace Multiversion.Disk
open Multiversion.Path (leads steps)

/-! ### The way of names -/

/-- The location behind one more name. Two dots lead back, at the root nowhere. -/
def climbName (l : Location) (name : Text) : Location :=
  if name = Path.up then l.dropLast else l ++ [name]

/-- The location that names lead to. -/
def climb (l : Location) (names : List Text) : Location := names.foldl climbName l

/-- The names lead from one location to the other, through directories. -/
inductive Walk (d : Disk) : Location → List Text → Location → Prop
  | done {l} : Walk d l [] l
  | stay {l m name rest} : d.node? l = some .directory → leads name = false →
      Walk d l rest m → Walk d l (name :: rest) m
  | back {l m rest} : d.node? l = some .directory → Walk d l.dropLast rest m →
      Walk d l (Path.up :: rest) m
  | down {l m name rest} : d.node? l = some .directory → leads name = true → name ≠ Path.up →
      FileName.size name ≤ nameLimit → Walk d (l ++ [name]) rest m → Walk d l (name :: rest) m

variable {d d' d'' : Disk} {l m : Location} {names : List Text} {path : Text}

theorem Walk.eq_climb (h : Walk d l names m) : m = climb l (names.filter leads) := by
  induction h with
  | done => rfl
  | stay _ hn _ ih => rw [List.filter_cons_of_neg (by simp [hn]), ih]
  | back _ _ ih =>
    rw [List.filter_cons_of_pos (by decide), ih]
    rfl
  | down _ hn hup _ _ ih =>
    rw [List.filter_cons_of_pos hn, ih, climb, climb, List.foldl_cons, climbName, if_neg hup]

/-- A way is still one where there are more directories. -/
theorem Walk.mono (h : Walk d l names m)
    (hd : ∀ k, d.node? k = some .directory → d'.node? k = some .directory) :
    Walk d' l names m := by
  induction h with
  | done => exact .done
  | stay hl hn _ ih => exact .stay (hd _ hl) hn ih
  | back hl _ ih => exact .back (hd _ hl) ih
  | down hl hn hup hs _ ih => exact .down (hd _ hl) hn hup hs ih

theorem node?_dropLast (h : d.node? l = some .directory) :
    d.node? l.dropLast = some .directory := by
  by_cases hl : l = []
  · rw [hl]
    rfl
  · refine node?_of_isPrefix h (List.dropLast_prefix l) fun e => hl ?_
    have hlength := congrArg List.length e
    rw [List.length_dropLast] at hlength
    exact List.eq_nil_of_length_eq_zero (by omega)

/-- A way ends at a directory, or in one. -/
theorem Walk.ends (h : Walk d l names m) (hne : names ≠ []) :
    d.node? m = some .directory ∨ m ≠ [] ∧ d.node? m.dropLast = some .directory := by
  induction h with
  | done => exact absurd rfl hne
  | @stay l m name rest hl _ hrest ih =>
    by_cases hnil : rest = []
    · subst hnil
      cases hrest
      exact .inl hl
    · exact ih hnil
  | @back l m rest hl hrest ih =>
    by_cases hnil : rest = []
    · subst hnil
      cases hrest
      exact .inl (node?_dropLast hl)
    · exact ih hnil
  | @down l m name rest hl _ _ _ hrest ih =>
    by_cases hnil : rest = []
    · subst hnil
      cases hrest
      exact .inr ⟨by simp, by rwa [List.dropLast_concat]⟩
    · exact ih hnil

/-! ### Following names -/

theorem walk_of_follow {p q : Place} (hp : p.here = d.tree.at? p.location)
    (h : d.follow p names = .ok q) : Walk d p.location names q.location := by
  induction names generalizing p with
  | nil =>
    cases h
    exact .done
  | cons name rest ih =>
    simp only [follow, List.foldlM_cons] at h
    cases he : d.enter p name with
    | error o =>
      rw [he] at h
      cases h
    | ok p' =>
      rw [he] at h
      have hrest := ih (here_enter hp he) h
      unfold enter at he
      split at he
      · cases he
      · cases he
      next children hc =>
      have hl : d.node? p.location = some .directory := by
        rw [node?_eq, ← hp, hc]
        rfl
      split at he
      · next hstay =>
        cases he
        refine .stay hl ?_ hrest
        simpa [leads, ← or_iff_not_imp_left] using hstay
      next hleads =>
      split at he
      · next hup =>
        cases he
        rw [hup]
        refine .back hl ?_
        rwa [show p.location.dropLast = p.way.tail.reverse by
          rw [Place.location, List.dropLast_reverse]]
      next hup =>
      split at he
      · cases he
      next hshort =>
      cases he
      refine .down hl ?_ hup (Nat.le_of_not_lt hshort) ?_
      · simpa [leads, not_or] using hleads
      · simpa [Place.location] using hrest

theorem follow_of_enter {p q : Place} {name : Text} {rest : List Text}
    (hq : d.enter p name = .ok q) (h : ∃ q', d.follow q rest = .ok q' ∧ q'.location = m) :
    ∃ q', d.follow p (name :: rest) = .ok q' ∧ q'.location = m := by
  obtain ⟨q', hfollow, hlocation⟩ := h
  refine ⟨q', ?_, hlocation⟩
  rw [follow, List.foldlM_cons, hq]
  exact hfollow

theorem exists_children {p : Place} (hp : p.here = d.tree.at? p.location)
    (h : d.node? p.location = some .directory) :
    ∃ children, p.here = some (.directory children) := by
  rw [node?_eq, ← hp] at h
  obtain ⟨t, ht, hnode⟩ := Option.map_eq_some_iff.1 h
  cases t with
  | file _ => cases hnode
  | directory children => exact ⟨children, ht⟩

theorem follow_of_walk (h : Walk d l names m) {p : Place} (hp : p.here = d.tree.at? p.location)
    (hl : p.location = l) : ∃ q, d.follow p names = .ok q ∧ q.location = m := by
  induction h generalizing p with
  | done => exact ⟨p, rfl, hl⟩
  | @stay l m name rest hdir hn _ ih =>
    obtain ⟨children, hc⟩ := exists_children hp (hl ▸ hdir)
    have he : d.enter p name = .ok p := by
      rw [enter, hc]
      exact if_pos (by simpa [leads, ← or_iff_not_imp_left] using hn)
    exact follow_of_enter he (ih hp hl)
  | back hdir _ ih =>
    obtain ⟨children, hc⟩ := exists_children hp (hl ▸ hdir)
    have he : d.enter p Path.up = .ok ⟨p.way.tail, d.tree.at? p.way.tail.reverse⟩ := by
      rw [enter, hc]
      rfl
    refine follow_of_enter he (ih rfl ?_)
    rw [← hl, Place.location, Place.location, List.dropLast_reverse]
  | @down l m name rest hdir hn hup hs _ ih =>
    obtain ⟨children, hc⟩ := exists_children hp (hl ▸ hdir)
    have he : d.enter p name = .ok ⟨name :: p.way, Dictionary.find? name children⟩ := by
      have hn' : ¬ (name = [] ∨ name = Path.here) := by simpa [leads, not_or] using hn
      rw [enter, hc]
      simp only [hn', hup, if_false, Nat.not_lt.2 hs]
    refine follow_of_enter he (ih (here_enter hp he) ?_)
    simp [Place.location, ← hl]

/-! ### Paths -/

theorem here_origin (d : Disk) (path : Text) :
    (d.origin path).here = d.tree.at? (d.origin path).location ∧
      (d.origin path).location = d.start path := by
  unfold origin start
  split <;> simp [Place.location, Tree.at?]

/-- A path that leads somewhere, whatever names it has. -/
theorem resolve_eq_ok_iff {part : Text} : d.resolve path part = .ok m ↔
    textError? path = none ∧ path ≠ [] ∧ FileName.size path ≤ pathLimit ∧
      Walk d (d.start path) (Path.names (FileName.settle part)) m := by
  obtain ⟨hreal, hfirst⟩ := here_origin d path
  unfold resolve place
  cases ht : textError? path with
  | some e => simp [Except.map]
  | none =>
    simp only [locatePart, true_and]
    by_cases hne : path = []
    · simp [hne, Except.map, Except.mapError]
    by_cases hf : pathLimit < FileName.size path
    · simp [hne, hf, Except.map, Except.mapError, Nat.not_le.2 hf]
    rw [if_neg hne, if_neg hf]
    constructor
    · intro h
      cases hfollow : d.follow (d.origin path) (Path.names (FileName.settle part)) with
      | error o =>
        rw [hfollow] at h
        cases h
      | ok q =>
        rw [hfollow] at h
        cases h
        exact ⟨hne, Nat.le_of_not_lt hf, hfirst ▸ walk_of_follow hreal hfollow⟩
    · intro h
      obtain ⟨q, hfollow, rfl⟩ := follow_of_walk h.2.2 hreal hfirst
      rw [hfollow]
      rfl

/-- The location that a path leads to, back and forth. -/
def goal (d : Disk) (path : Text) : Location := climb (d.start path) (steps path)

theorem goal_of_resolve {part : Text} (hsub : part ⊆ path) (hsteps : steps part = steps path)
    (h : d.resolve path part = .ok m) : m = d.goal path := by
  obtain ⟨ht, -, -, hwalk⟩ := resolve_eq_ok_iff.1 h
  have whole := (encodable_of_textError?_eq_none ht).of_subset hsub
  rw [hwalk.eq_climb, Path.filter_names_settle whole, hsteps, goal]

/-- The place for something new is at the goal of its path, and in a directory if it is none
itself. -/
theorem goal_of_resolve_dropSlashes (h : d.resolve path (Path.dropSlashes path) = .ok m) :
    m = d.goal path ∧ (d.node? m ≠ some .directory → d.node? m.dropLast = some .directory) := by
  obtain ⟨-, -, -, hwalk⟩ := resolve_eq_ok_iff.1 h
  refine ⟨goal_of_resolve (Path.dropSlashes_subset path) (by simp [steps]) h, fun hfree => ?_⟩
  rcases hwalk.ends (Text.splitOn_ne_nil _ _) with hdir | ⟨-, hin⟩
  · exact absurd hdir hfree
  · exact hin

/-! ### Directories -/

/-- The location of a front of a path. -/
def OnWay (d : Disk) (path : Text) (k : Location) : Prop :=
  ∃ names, names <+: steps path ∧ k = climb (d.start path) names

/-- A disk with directories where nothing was, on the way of a path. -/
structure Paved (d d' : Disk) (path : Text) : Prop where
  working : d'.working = d.working
  node : ∀ k, d'.node? k = d.node? k ∨
    d.node? k = none ∧ d'.node? k = some .directory ∧ OnWay d path k

theorem start_congr (hw : d'.working = d.working) (path : Text) : d'.start path = d.start path := by
  rw [start, start, hw]

theorem Paved.refl (d : Disk) (path : Text) : Paved d d path := ⟨rfl, fun _ => .inl rfl⟩

theorem onWay_congr (hw : d'.working = d.working) {k : Location} (h : OnWay d' path k) :
    OnWay d path k := by
  rwa [OnWay, start_congr hw] at h

/-- Directories that are new behind others on the way were nowhere before. -/
theorem Paved.node_trans (h : Paved d d' path) {k : Location} {n : Option Node}
    (h' : n = d'.node? k ∨ d'.node? k = none ∧ n = some .directory ∧ OnWay d' path k) :
    n = d.node? k ∨ d.node? k = none ∧ n = some .directory ∧ OnWay d path k := by
  rcases h.node k with hsame | ⟨hnone, hdir, hway⟩
  · rw [← hsame]
    exact h'.imp_right fun ⟨hnone', hdir', hway'⟩ => ⟨hnone', hdir', onWay_congr h.working hway'⟩
  · rcases h' with hsame' | ⟨hnone', -⟩
    · exact .inr ⟨hnone, hsame'.trans hdir, hway⟩
    · rw [hdir] at hnone'
      cases hnone'

theorem Paved.trans (h : Paved d d' path) (h' : Paved d' d'' path) : Paved d d'' path where
  working := h'.working.trans h.working
  node k := h.node_trans (h'.node k)

theorem Paved.mono {front : Text} (h : Paved d d' front) (hsteps : steps front <+: steps path)
    (hstart : d.start front = d.start path) : Paved d d' path where
  working := h.working
  node k := by
    refine (h.node k).imp_right fun ⟨hnone, hdir, names, hnames, hk⟩ => ⟨hnone, hdir, names, ?_, ?_⟩
    · exact hnames.trans hsteps
    · rw [hk, hstart]

theorem Paved.directory {k : Location} (h : Paved d d' path) (hk : d.node? k = some .directory) :
    d'.node? k = some .directory := by
  rcases h.node k with hsame | ⟨hnone, -⟩
  · rw [hsame, hk]
  · rw [hk] at hnone
    cases hnone

/-- No file is lost and none is new. -/
theorem Paved.file_iff {k : Location} (h : Paved d d' path) (content : ByteArray) :
    d'.node? k = some (.file content) ↔ d.node? k = some (.file content) := by
  rcases h.node k with hsame | ⟨hnone, hdir, -⟩
  · rw [hsame]
  · rw [hnone, hdir]
    simp

theorem start_of_isPrefix {front : Text} (h : front <+: path) (hne : front ≠ []) :
    d.start front = d.start path := by
  rw [start, start, Path.isAbsolute_of_isPrefix h hne]

theorem Paved.splitLast (hne : (Path.splitLast path).1 ≠ [])
    (h : Paved d d' (Path.splitLast path).1) : Paved d d' path := by
  refine h.mono ?_ (start_of_isPrefix (Path.splitLast_isPrefix path) hne)
  rw [Path.steps_of_parts (Path.parts_splitLast path)]
  exact List.prefix_append _ _

theorem paved_makeDirectory (path : Text) (d : Disk) :
    Paved d (leftBy (makeDirectory path d)) path := by
  rw [makeDirectory_eq]
  cases hr : d.resolve path (Path.dropSlashes path) with
  | error e => exact .refl d path
  | ok m =>
    obtain ⟨hm, hin⟩ := goal_of_resolve_dropSlashes hr
    cases hn : d.node? m with
    | some n =>
      simp only [hn]
      exact .refl d path
    | none =>
      have hfree : d.node? m ≠ some .directory := by
        rw [hn]
        nofun
      simp only [hn, leftBy_ok]
      refine ⟨working_put .., fun k => ?_⟩
      rw [node?_put_of_free (hin hfree) hfree]
      by_cases hk : k = m
      · rw [if_pos hk, hk]
        exact .inr ⟨hn, rfl, steps path, List.prefix_refl _, hm⟩
      · exact .inl (if_neg hk)

theorem paved_ensureDirectory (path : Text) (d : Disk) :
    Paved d (leftBy (ensureDirectory path d)) path := by
  have h := paved_makeDirectory path d
  unfold ensureDirectory
  cases hm : makeDirectory path d with
  | ok u d' =>
    rw [hm] at h
    exact h
  | error e d' =>
    rw [hm] at h
    simp only
    split <;> exact h

theorem paved_makeDirectoriesWithin (n : Nat) (path : Text) (d : Disk) :
    Paved d (leftBy (makeDirectoriesWithin n path d)) path := by
  induction n generalizing path d with
  | zero => exact .refl d path
  | succ n ih =>
    simp only [makeDirectoriesWithin]
    split
    · next hc =>
      have inner := Paved.splitLast hc.1 (ih (Path.splitLast path).1 d)
      have last {d' : Disk} (h : Paved d d' path) :
          Paved d (leftBy (if (Path.splitLast path).2 = Path.here then .ok () d'
            else ensureDirectory path d')) path := by
        split
        · exact h
        · exact h.trans (paved_ensureDirectory path d')
      cases hm : makeDirectoriesWithin n (Path.splitLast path).1 d with
      | ok u d' =>
        rw [hm] at inner
        exact last inner
      | error e d' =>
        rw [hm] at inner
        split
        · next e' => cases e'; exact last inner
        · next e' => cases e'
        · next e' => cases e'; exact inner
    · exact paved_ensureDirectory path d

/-- Making directories leaves behind some of those on the way, whether it fails or not. -/
theorem paved_makeDirectories (path : Text) (d : Disk) :
    Paved d (leftBy (makeDirectories path d)) path :=
  paved_makeDirectoriesWithin levelLimit path d

/-- A path that a disk can be given meets a refusal, or asks for too many directories at
once, and then none is made. -/
theorem makeDirectoriesWithin_error {n : Nat} {e : Error} (ht : textError? path = none)
    (h : makeDirectoriesWithin n path d = .error e d') :
    e.isRefusal = true ∨ e = .tooDeep ∧ d' = d := by
  induction n generalizing path d d' e with
  | zero =>
    cases h
    exact .inr ⟨rfl, rfl⟩
  | succ n ih =>
    simp only [makeDirectoriesWithin] at h
    split at h
    · have ht' := textError?_of_subset ht (Path.splitLast_isPrefix path).subset
      split at h
      · split at h
        · cases h
        · exact .inl (isRefusal_of_ensureDirectory ht h)
      · split at h
        · cases h
        · exact .inl (isRefusal_of_ensureDirectory ht h)
      · next hm =>
        cases h
        exact ih ht' hm
    · exact .inl (isRefusal_of_ensureDirectory ht h)

/-! ### Files -/

/-- A disk with a file at the goal of a path, where no directory was, and with directories on
the way of its parent where nothing was. -/
structure Stored (d d' : Disk) (path : Text) (content : ByteArray) : Prop where
  working : d'.working = d.working
  read : d'.read path = .ok content
  free : d.node? (d.goal path) ≠ some .directory
  file : d'.node? (d.goal path) = some (.file content)
  node : ∀ k, k ≠ d.goal path → d'.node? k = d.node? k ∨
    d.node? k = none ∧ d'.node? k = some .directory ∧ OnWay d (Path.parent path) k

/-- Writing a file puts it at the goal of its path, or changes nothing. What was written is
read back through the same path. -/
theorem write_stored (path : Text) (content : ByteArray) (d : Disk) :
    (∃ e, write path content d = .error e d) ∨
      ∃ d', write path content d = .ok () d' ∧ Stored d d' path content := by
  rw [write_eq]
  cases hr : d.resolve path (Path.dropSlashes path) with
  | error e => exact .inl ⟨e, rfl⟩
  | ok m =>
    obtain ⟨hm, hin⟩ := goal_of_resolve_dropSlashes hr
    simp only
    split
    · exact .inl ⟨_, rfl⟩
    · next hc =>
      obtain ⟨hfree, hslash⟩ := not_or.1 hc
      have hnode := node?_put_of_free (hin hfree) hfree (.file content)
      have hsame : Path.dropSlashes path = path := Path.dropSlashes_of_getLast? hslash
      refine .inr ⟨_, rfl, working_put .., ?_, hm ▸ hfree, ?_, fun k hk => .inl ?_⟩
      · -- The directories on the way are still there, so the path leads where it led.
        obtain ⟨ht, hne, hf, hwalk⟩ := resolve_eq_ok_iff.1 hr
        have hwalk' : Walk (d.put m (.file content)) (d.start path)
            (Path.names (FileName.settle path)) m := by
          rw [hsame] at hwalk
          refine hwalk.mono fun k hk => ?_
          have hne : k ≠ m := fun e => hfree (e ▸ hk)
          rw [hnode, if_neg hne, hk]
        rw [← start_congr (working_put ..)] at hwalk'
        rw [read_eq, resolve_eq_ok_iff.2 ⟨ht, hne, hf, hwalk'⟩]
        simp only [hnode, if_true]
      · rw [← hm, hnode, if_pos rfl]
      · rw [hnode, if_neg (hm ▸ hk)]

theorem Stored.of_paved {content : ByteArray} (h : Paved d d' (Path.parent path))
    (h' : Stored d' d'' path content) : Stored d d'' path content := by
  have hgoal : d'.goal path = d.goal path := by rw [goal, goal, start_congr h.working]
  refine ⟨h'.working.trans h.working, h'.read, fun hdir => ?_, hgoal ▸ h'.file, fun k hk => ?_⟩
  · exact h'.free (hgoal ▸ h.directory hdir)
  · exact h.node_trans (h'.node k (hgoal ▸ hk))

theorem install_eq_write (hp : Path.parent path = []) (content : ByteArray) (d : Disk) :
    install path content d = write path content d := by
  simp only [install, hp, ne_eq, not_true_eq_false, if_false]

/-- Installing a file stores it, or makes some of the directories and fails. -/
theorem install_stored (path : Text) (content : ByteArray) (d : Disk) :
    (∃ d', install path content d = .ok () d' ∧ Stored d d' path content) ∨
      ∃ e d', install path content d = .error e d' ∧ Paved d d' (Path.parent path) := by
  by_cases hp : Path.parent path = []
  · rw [install_eq_write hp]
    rcases write_stored path content d with ⟨e, h⟩ | ⟨d', h, hs⟩
    · exact .inr ⟨e, d, h, .refl d _⟩
    · exact .inl ⟨d', h, hs⟩
  · have hpaved := paved_makeDirectories (Path.parent path) d
    rw [install_eq hp]
    cases hm : makeDirectories (Path.parent path) d with
    | error e d₁ =>
      rw [hm, leftBy_error] at hpaved
      exact .inr ⟨e, d₁, rfl, hpaved⟩
    | ok u d₁ =>
      rw [hm, leftBy_ok] at hpaved
      simp only
      rcases write_stored path content d₁ with ⟨e, h⟩ | ⟨d', h, hs⟩
      · exact .inr ⟨e, d₁, h, hpaved⟩
      · exact .inl ⟨d', h, hs.of_paved hpaved⟩

theorem stored_of_install {content : ByteArray} (h : install path content d = .ok () d') :
    Stored d d' path content := by
  rcases install_stored path content d with ⟨d'', hinstall, hstored⟩ | ⟨e, d'', hinstall, -⟩
  · rw [h] at hinstall
    cases hinstall
    exact hstored
  · rw [h] at hinstall
    cases hinstall

theorem paved_of_install {content : ByteArray} {e : Error}
    (h : install path content d = .error e d') : Paved d d' (Path.parent path) := by
  rcases install_stored path content d with ⟨d'', hinstall, -⟩ | ⟨e', d'', hinstall, hpaved⟩
  · rw [h] at hinstall
    cases hinstall
  · rw [h] at hinstall
    cases hinstall
    exact hpaved

/-- A path that a disk can be given meets a refusal, or nothing changes. -/
theorem install_error {content : ByteArray} {e : Error} (ht : textError? path = none)
    (h : install path content d = .error e d') : e.isRefusal = true ∨ d' = d := by
  by_cases hp : Path.parent path = []
  · rw [install_eq_write hp] at h
    exact .inl (isRefusal_of_write ht h)
  · rw [install_eq hp] at h
    split at h
    · exact .inl (isRefusal_of_write ht h)
    · next hm =>
      cases h
      have ht' := textError?_of_subset ht (Path.parent_isPrefix path).subset
      rcases makeDirectoriesWithin_error ht' hm with hrefusal | ⟨-, hsame⟩
      · exact .inl hrefusal
      · exact .inr hsame

end Multiversion.Disk
