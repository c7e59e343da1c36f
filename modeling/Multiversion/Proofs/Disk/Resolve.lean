import Multiversion.Disk
import Multiversion.Proofs.Action
import Multiversion.Proofs.Text.Path

/-! Where a path leads.

A path without two dots leads to the location of its steps, whatever the disk: the
disk only decides whether it gets there. `descend` says so on the nodes of the disk
alone, so that two disks with the same nodes on the way give a path the same answer
(`descend_congr`), and every operation is said once more in these terms
(`status?_eq`, `read_eq`, `makeDirectory_eq`, `write_eq`). What is at a location is
found through every path that spells it (`status?_eq_some_iff`). -/
namespace Multiversion.Disk
open Multiversion.Path (leads steps Descends)

/-! ### The way down -/

/-- The location that names lead to from a directory, none of them being two dots. -/
def descend (d : Disk) (l : Location) : List Text → Except Obstacle Location
  | [] => .ok l
  | name :: rest =>
    match d.node? l with
    | none => .error .missing
    | some (.file _) => .error .notDirectory
    | some .directory =>
      if leads name then
        if nameLimit < FileName.size name then .error .nameTooLong
        else descend d (l ++ [name]) rest
      else descend d l rest

theorem node?_eq (d : Disk) (l : Location) : d.node? l = (d.tree.at? l).map Tree.node := rfl

theorem follow_eq {d : Disk} {p : Place} {names : List Text}
    (hp : p.here = d.tree.at? p.location) (hup : Path.up ∉ names) :
    (d.follow p names).map Place.location = d.descend p.location names := by
  induction names generalizing p with
  | nil => rfl
  | cons name rest ih =>
    obtain ⟨hname, hrest⟩ := not_or.1 (List.mem_cons.not.1 hup)
    have next {q : Place} (hq : d.enter p name = .ok q) :
        (d.follow p (name :: rest)).map Place.location = d.descend q.location rest := by
      rw [← ih (here_enter hp hq) hrest]
      simp [follow, hq, bind, Except.bind]
    have stop {o : Obstacle} (ho : d.enter p name = .error o) :
        (d.follow p (name :: rest)).map Place.location = .error o := by
      simp [follow, ho, bind, Except.bind, Except.map]
    rw [descend, node?_eq, ← hp]
    cases hh : p.here with
    | none => exact stop (by simp [enter, hh])
    | some t =>
      cases t with
      | file content => exact stop (by simp [enter, hh])
      | directory children =>
        simp only [Option.map_some, Tree.node]
        by_cases hl : leads name = true
        · have hl' : ¬ (name = [] ∨ name = Path.here) := by simpa [leads, not_or] using hl
          rw [if_pos hl]
          split
          · next long => exact stop (by simp [enter, hh, hl', Ne.symm hname, long])
          · next short =>
            rw [next (q := ⟨name :: p.way, Dictionary.find? name children⟩)
              (by simp [enter, hh, hl', Ne.symm hname, short])]
            simp [Place.location]
        · have hl' : name = [] ∨ name = Path.here := by
            simpa [leads, ← or_iff_not_imp_left] using hl
          rw [if_neg hl, next (q := p) (by simp [enter, hh, hl'])]

variable {d d' : Disk} {l m : Location} {names : List Text}

/-- What has something below it is a directory. -/
theorem node?_of_isPrefix {n : Node} (h : d.node? m = some n) (hl : l <+: m) (hne : l ≠ m) :
    d.node? l = some .directory := by
  obtain ⟨rest, rfl⟩ := hl
  cases rest with
  | nil => simp at hne
  | cons name rest => exact Tree.node?_of_append h

/-- What is passed on the way down to a location. -/
structure Passable (d : Disk) (l : Location) (names : List Text) (m : Location) : Prop where
  eq : m = l ++ names.filter leads
  short : ∀ n ∈ names.filter leads, FileName.size n ≤ nameLimit
  /-- The end of the way is in a directory. -/
  directory : m ≠ l → d.node? m.dropLast = some .directory
  /-- It is one, if the last name asks for one. -/
  ends : ∀ n, names.getLast? = some n → leads n = false → d.node? m = some .directory

theorem passable_of_descend (h : d.descend l names = .ok m) : Passable d l names m := by
  induction names generalizing l with
  | nil =>
    cases h
    exact ⟨by simp, by simp, fun hne => absurd rfl hne, by simp⟩
  | cons name rest ih =>
    simp only [descend] at h
    split at h
    · contradiction
    · contradiction
    next hl =>
    split at h
    · next hn =>
      split at h
      · contradiction
      next hs =>
      have p := ih h
      refine ⟨by simp [p.eq, hn], ?_, fun _ => ?_, fun n hlast hnl => ?_⟩
      · rw [List.filter_cons_of_pos hn, List.forall_mem_cons]
        exact ⟨Nat.le_of_not_lt hs, p.short⟩
      · by_cases hm : m = l ++ [name]
        · rw [hm, List.dropLast_concat, hl]
        · exact p.directory hm
      · cases rest with
        | nil =>
          cases hlast
          exact absurd hn (Bool.eq_false_iff.1 hnl)
        | cons next more => exact p.ends n hlast hnl
    · next hn =>
      have p := ih h
      refine ⟨by simp [p.eq, hn], ?_, p.directory, fun n hlast hnl => ?_⟩
      · rw [List.filter_cons_of_neg hn]
        exact p.short
      · cases rest with
        | nil =>
          cases h
          exact hl
        | cons next more => exact p.ends n hlast hnl

/-- Names lead to what is there, if they are short enough and the last one asks for no
directory where there is none. -/
theorem descend_of_node {n : Node} (h : d.node? (l ++ names.filter leads) = some n)
    (hs : ∀ n ∈ names.filter leads, FileName.size n ≤ nameLimit)
    (hend : n = .directory ∨ ∀ name, names.getLast? = some name → leads name = true) :
    d.descend l names = .ok (l ++ names.filter leads) := by
  induction names generalizing l with
  | nil => simp [descend]
  | cons name rest ih =>
    have hl : d.node? l = some .directory := by
      by_cases hf : (name :: rest).filter leads = []
      · rw [hf, List.append_nil] at h
        rcases hend with rfl | hend
        · exact h
        · have hlast := List.getLast?_eq_some_getLast (List.cons_ne_nil name rest)
          exact absurd (hend _ hlast) (List.filter_eq_nil_iff.1 hf _ (List.mem_of_getLast? hlast))
      · exact node?_of_isPrefix h (List.prefix_append _ _) (by simpa using hf)
    have hend' : n = .directory ∨ ∀ name, rest.getLast? = some name → leads name = true := by
      cases rest with
      | nil => exact .inr (by simp)
      | cons next more => exact hend
    simp only [descend, hl]
    split
    · next hn =>
      have e : l ++ name :: rest.filter leads = l ++ [name] ++ rest.filter leads := by simp
      rw [List.filter_cons_of_pos hn, e] at h ⊢
      rw [List.filter_cons_of_pos hn, List.forall_mem_cons] at hs
      rw [if_neg (Nat.not_lt.2 hs.1)]
      exact ih h hs.2 hend'
    · next hn =>
      rw [List.filter_cons_of_neg hn] at h hs ⊢
      exact ih h hs hend'

/-- The way is found alike on two disks with the same nodes on it. The end of it is not looked
at. -/
theorem descend_congr
    (h : ∀ k, l <+: k → k <+: l ++ names.dropLast.filter leads → d.node? k = d'.node? k) :
    d.descend l names = d'.descend l names := by
  induction names generalizing l with
  | nil => rfl
  | cons name rest ih =>
    simp only [descend, h l (List.prefix_refl _) (List.prefix_append _ _)]
    cases rest with
    | nil => simp only [descend]
    | cons next more =>
      rw [List.dropLast_cons_cons] at h
      cases hn : leads name with
      | true =>
        rw [List.filter_cons_of_pos hn, List.append_cons] at h
        simp only [if_true, ih fun k hk => h k ((List.prefix_append _ _).trans hk)]
      | false =>
        rw [List.filter_cons_of_neg (by simp [hn])] at h
        simp only [Bool.false_eq_true, if_false, ih h]

/-! ### Paths -/

/-- The location that a path starts at. -/
def start (d : Disk) (path : Text) : Location := if Path.isAbsolute path then [] else d.working

/-- The location that a path spells. -/
def location (d : Disk) (path : Text) : Location := d.start path ++ steps path

/-- The location that some of a path leads to. -/
def resolve (d : Disk) (path part : Text) : Except Error Location :=
  (place path (d.locatePart path part)).map Place.location

/-- A path that a disk can be given, and that fits one. -/
structure Spelled (path : Text) : Prop where
  valid : textError? path = none
  ne_nil : path ≠ []
  fits : FileName.size path ≤ pathLimit
  short : ∀ n ∈ steps path, FileName.size n ≤ nameLimit

theorem textError?_eq_none_iff {path : Text} :
    textError? path = none ↔ FileName.Encodable path ∧ CodePoint.ofChar '\x00' ∉ path := by
  unfold textError? FileName.Encodable
  cases FileName.unencodable? path <;> simp

theorem encodable_of_textError?_eq_none {path : Text} (h : textError? path = none) :
    FileName.Encodable path := (textError?_eq_none_iff.1 h).1

theorem textError?_of_subset {part path : Text} (h : textError? path = none)
    (hsub : part ⊆ path) : textError? part = none := by
  obtain ⟨he, hn⟩ := textError?_eq_none_iff.1 h
  exact textError?_eq_none_iff.2 ⟨he.of_subset hsub, fun hm => hn (hsub hm)⟩

theorem size_le_of_isPrefix {front path : Text} (h : front <+: path) :
    FileName.size front ≤ FileName.size path := by
  obtain ⟨rest, rfl⟩ := h
  simp [FileName.size]

theorem Spelled.of_isPrefix {front path : Text} (h : Spelled path) (hp : front <+: path)
    (hne : front ≠ []) (hs : steps front <+: steps path) : Spelled front where
  valid := textError?_of_subset h.valid hp.subset
  ne_nil := hne
  fits := (size_le_of_isPrefix hp).trans h.fits
  short n hn := h.short n (hs.subset hn)

theorem textError?_of_mem {s s' path : Text} (h : textError? s = none)
    (h' : textError? s' = none) (hm : ∀ c ∈ path, c ∈ s ∨ c ∈ s' ∨ c = '/') :
    textError? path = none := by
  obtain ⟨he, hn⟩ := textError?_eq_none_iff.1 h
  obtain ⟨he', hn'⟩ := textError?_eq_none_iff.1 h'
  rw [FileName.encodable_iff] at he he'
  refine textError?_eq_none_iff.2 ⟨FileName.encodable_iff.2 fun c hc => ?_, fun hc => ?_⟩
  · rcases hm c hc with hc | hc | rfl
    · exact he c hc
    · exact he' c hc
    · simp
  · rcases hm _ hc with hc | hc | hc
    · exact hn hc
    · exact hn' hc
    · exact absurd hc (by decide)

theorem textError?_join {path more : Text} (h : textError? path = none)
    (h' : textError? more = none) : textError? (Path.join path more) = none :=
  textError?_of_mem h h' fun _ hc => Path.mem_join hc

/-- A path leads down from its start, whatever the text of it. -/
theorem resolve_eq {path part : Text} (hsub : part ⊆ path) (hd : Descends part) :
    d.resolve path part =
      match textError? path with
      | some e => .error e
      | none =>
        if path = [] then .error (.obstacle .missing path)
        else if pathLimit < FileName.size path then .error (.obstacle .nameTooLong path)
        else (d.descend (d.start path) (Path.names (FileName.settle part))).mapError
          (.obstacle · path) := by
  unfold resolve place
  cases ht : textError? path with
  | some e => rfl
  | none =>
    have whole := (encodable_of_textError?_eq_none ht).of_subset hsub
    have real : (d.origin path).here = d.tree.at? (d.origin path).location := by
      unfold origin
      split <;> simp [Place.location, Tree.at?]
    have first : (d.origin path).location = d.start path := by
      unfold origin start
      split <;> simp [Place.location]
    simp only [locatePart]
    split
    · rfl
    split
    · rfl
    rw [← first, ← follow_eq real (hd.up_notMem whole)]
    cases d.follow (d.origin path) (Path.names (FileName.settle part)) <;> rfl

/-- Where a path leads to is the location that it spells. -/
theorem passable_of_resolve {path part : Text} (hsub : part ⊆ path) (hd : Descends part)
    (h : d.resolve path part = .ok m) :
    textError? path = none ∧ path ≠ [] ∧ FileName.size path ≤ pathLimit ∧
      Passable d (d.start path) (Path.names (FileName.settle part)) m := by
  rw [resolve_eq hsub hd] at h
  split at h
  · contradiction
  next ht =>
  split at h
  · contradiction
  next hne =>
  split at h
  · contradiction
  next hf =>
  refine ⟨ht, hne, Nat.le_of_not_lt hf, passable_of_descend ?_⟩
  cases hm : d.descend (d.start path) (Path.names (FileName.settle part)) with
  | error o => rw [hm] at h; contradiction
  | ok m' => rw [hm] at h; cases h; rfl

/-- Two disks with the same nodes on the way of a path resolve it alike. -/
theorem resolve_congr {path part : Text} (hsub : part ⊆ path) (hd : Descends part)
    (hw : d.working = d'.working)
    (h : FileName.Encodable path → ∀ k, d.start path <+: k →
      k <+: d.start path ++ (Path.names (FileName.settle part)).dropLast.filter leads →
        d.node? k = d'.node? k) :
    d.resolve path part = d'.resolve path part := by
  have same : d.start path = d'.start path := by simp [start, hw]
  rw [resolve_eq hsub hd, resolve_eq hsub hd]
  cases ht : textError? path with
  | some e => rfl
  | none => rw [← same, descend_congr (h (encodable_of_textError?_eq_none ht))]

/-! ### Operations -/

theorem here_of_place {path part : Text} {p : Place}
    (h : place path (d.locatePart path part) = .ok p) : p.here = d.tree.at? p.location := by
  unfold place at h
  split at h
  · contradiction
  cases hl : d.locatePart path part with
  | error o => rw [hl] at h; contradiction
  | ok q =>
    rw [hl] at h
    cases h
    unfold locatePart at hl
    split at hl
    · contradiction
    split at hl
    · contradiction
    refine here_follow ?_ hl
    unfold origin
    split <;> simp [Place.location, Tree.at?]

theorem node?_of_place {path part : Text} {p : Place}
    (h : place path (d.locatePart path part) = .ok p) : p.node? = d.node? p.location := by
  rw [Place.node?, here_of_place h, node?_eq]

theorem status?_eq (d : Disk) (path : Text) :
    d.status? path = match d.resolve path path with
      | .ok l => d.node? l
      | .error _ => none := by
  unfold status? resolve locate
  cases h : place path (d.locatePart path path) with
  | error e => rfl
  | ok p => exact node?_of_place h

theorem read_eq (d : Disk) (path : Text) :
    d.read path = match d.resolve path path with
      | .error e => .error e
      | .ok l => match d.node? l with
        | none => .error (.obstacle .missing path)
        | some .directory => .error (.obstacle .isDirectory path)
        | some (.file content) => .ok content := by
  unfold read resolve locate
  cases h : place path (d.locatePart path path) with
  | error e => rfl
  | ok p =>
    have hn := node?_of_place h
    simp only [bind, Except.bind, Except.map, ← hn, Place.node?]
    cases p.here with
    | none => rfl
    | some t => cases t <;> rfl

theorem makeDirectory_eq (d : Disk) (path : Text) :
    makeDirectory path d = match d.resolve path (Path.dropSlashes path) with
      | .error e => .error e d
      | .ok l => match d.node? l with
        | some _ => .error (.obstacle .present path) d
        | none => .ok () (d.put l .directory) := by
  unfold resolve
  simp only [makeDirectory, locateNew, bind, EStateM.bind, get, getThe, MonadStateOf.get, get_eq]
  cases h : place path (d.locatePart path (Path.dropSlashes path)) with
  | error e => rfl
  | ok p =>
    have hn := node?_of_place h
    simp only [Except.map, ← hn, Place.node?]
    cases p.here <;> rfl

theorem write_eq (d : Disk) (path : Text) (content : ByteArray) :
    write path content d = match d.resolve path (Path.dropSlashes path) with
      | .error e => .error e d
      | .ok l =>
        if d.node? l = some .directory ∨ path.getLast? = some '/' then
          .error (.obstacle .isDirectory path) d
        else .ok () (d.put l (.file content)) := by
  unfold resolve
  simp only [write, locateNew, bind, EStateM.bind, get, getThe, MonadStateOf.get, get_eq]
  cases h : place path (d.locatePart path (Path.dropSlashes path)) with
  | error e => rfl
  | ok p =>
    have hn := node?_of_place h
    simp only [Except.map, ← hn]
    split <;> rfl

theorem isSamePlace_eq (d : Disk) (path path' : Text) :
    d.isSamePlace path path' = match d.resolve path path, d.resolve path' path' with
      | .ok l, .ok l' => (d.node? l).isSome && l = l'
      | _, _ => false := by
  unfold isSamePlace resolve locate
  cases h : place path (d.locatePart path path) with
  | error e => rfl
  | ok p =>
    cases h' : place path' (d.locatePart path' path') with
    | error e => rfl
    | ok p' =>
      have hn : p.here.isSome = (d.node? p.location).isSome := by
        rw [← node?_of_place h, Place.node?, Option.isSome_map]
      simp [Except.map, hn, Place.location]

/-! ### What a path finds -/

theorem getLast?_names_settle {path : Text} (h : FileName.Encodable path) :
    (Path.names (FileName.settle path)).getLast? = some (FileName.settle (Path.base path)) := by
  rw [Path.names_settle h, List.getLast?_map, Path.getLast?_names, Option.map_some]

theorem isDirectory_iff {path : Text} :
    d.isDirectory path = true ↔ d.status? path = some .directory := by simp [isDirectory]

theorem location_of_resolve {path : Text} (hd : Descends path)
    (h : d.resolve path path = .ok m) : m = d.location path := by
  obtain ⟨ht, -, -, p⟩ := passable_of_resolve (List.Subset.refl path) hd h
  rw [p.eq, Path.filter_names_settle (encodable_of_textError?_eq_none ht), location]

/-- A path that spells a location leads there, if something is there. -/
theorem resolve_eq_ok {path part : Text} (hsub : part ⊆ path) (hsteps : steps part = steps path)
    (hd : Descends part) (hs : Spelled path) {n : Node} (hn : d.node? (d.location path) = some n)
    (hend : n = .directory ∨ leads (FileName.settle (Path.base part)) = true) :
    d.resolve path part = .ok (d.location path) := by
  have whole := (encodable_of_textError?_eq_none hs.valid).of_subset hsub
  have hnames := (Path.filter_names_settle whole).trans hsteps
  have found : d.descend (d.start path) (Path.names (FileName.settle part)) =
      .ok (d.location path) := by
    rw [location, ← hnames] at hn ⊢
    refine descend_of_node hn (hnames ▸ hs.short) (hend.imp_right fun h name hlast => ?_)
    rw [getLast?_names_settle whole] at hlast
    cases hlast
    exact h
  rw [resolve_eq hsub hd, hs.valid]
  simp only [hs.ne_nil, if_false, Nat.not_lt.2 hs.fits, found]
  rfl

/-- What is at a location is found through every path that spells it, if a path with a
dot or a slash at its end is given to a directory only. -/
theorem status?_eq_some_iff {path : Text} (hd : Descends path) {n : Node} :
    d.status? path = some n ↔
      Spelled path ∧ d.node? (d.location path) = some n ∧
        (n = .directory ∨ leads (FileName.settle (Path.base path)) = true) := by
  have hsub : path ⊆ path := List.Subset.refl path
  rw [status?_eq]
  constructor
  · intro h
    cases hr : d.resolve path path with
    | error e => rw [hr] at h; contradiction
    | ok m =>
      rw [hr] at h
      obtain ⟨ht, hne, hf, p⟩ := passable_of_resolve hsub hd hr
      have whole := encodable_of_textError?_eq_none ht
      have hsteps := Path.filter_names_settle whole
      obtain rfl := location_of_resolve hd hr
      refine ⟨⟨ht, hne, hf, fun n hn => p.short n (hsteps ▸ hn)⟩, h, ?_⟩
      cases hl : leads (FileName.settle (Path.base path)) with
      | true => exact .inr rfl
      | false =>
        have := p.ends _ (getLast?_names_settle whole) hl
        exact .inl (Option.some.inj (h.symm.trans this))
  · rintro ⟨hs, hn, hend⟩
    rw [resolve_eq_ok hsub rfl hd hs hn hend]
    exact hn

theorem read_eq_ok_iff {path : Text} {content : ByteArray} :
    d.read path = .ok content ↔ d.status? path = some (.file content) := by
  rw [read_eq, status?_eq]
  cases d.resolve path path with
  | error e => simp
  | ok l =>
    cases hn : d.node? l with
    | none => simp [hn]
    | some n => cases n <;> simp [hn]

/-- Where a path leads depends on the directory that relative paths start at alone. -/
theorem location_congr (hw : d'.working = d.working) (path : Text) :
    d'.location path = d.location path := by
  simp [location, start, hw]

/-- What a path finds depends on the node at its location alone. -/
theorem status?_congr {path : Text} (hd : Descends path) (hw : d.working = d'.working)
    (h : d.node? (d.location path) = d'.node? (d.location path)) :
    d.status? path = d'.status? path := by
  ext n
  rw [status?_eq_some_iff hd, status?_eq_some_iff hd, h, location_congr hw]

/-- The place for something new is at the location that its path spells, in a directory
that is there. -/
theorem of_resolve_dropSlashes {path : Text} (hd : Descends path)
    (h : d.resolve path (Path.dropSlashes path) = .ok m) :
    m = d.location path ∧ Spelled path ∧
      (steps path = [] → d.node? m = some .directory) ∧
      (steps path ≠ [] → d.node? m.dropLast = some .directory) := by
  have hsub := Path.dropSlashes_subset path
  have hsame : steps (Path.dropSlashes path) = steps path := by simp [steps]
  have hd' : Descends (Path.dropSlashes path) := by simpa [Descends] using hd
  obtain ⟨ht, hne, hf, p⟩ := passable_of_resolve hsub hd' h
  have whole := (encodable_of_textError?_eq_none ht).of_subset hsub
  have hsteps := Path.filter_names_settle whole
  have hm : m = d.location path := by rw [p.eq, hsteps, hsame, location]
  refine ⟨hm, ⟨ht, hne, hf, fun n hn => p.short n (hsteps ▸ hsame ▸ hn)⟩, fun he => ?_, fun he => ?_⟩
  · refine p.ends _ (getLast?_names_settle whole) ?_
    have hnone : leads _ ≠ true := List.filter_eq_nil_iff.1 (hsteps.trans (hsame.trans he)) _
      (List.mem_of_getLast? (getLast?_names_settle whole))
    exact Bool.eq_false_iff.2 hnone
  · refine p.directory fun e => he ?_
    rw [p.eq, hsteps, hsame] at e
    simpa using e

end Multiversion.Disk
