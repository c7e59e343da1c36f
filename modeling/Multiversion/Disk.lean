import Multiversion.Path
import Multiversion.Text.FileName
import Multiversion.Tree

/-! Files and directories.

A disk is a directory tree and the directory that relative paths start at. A path
leads to a place name by name, and every name but the last must be that of a
directory; names and paths have as many bytes as a disk allows. The operations are
actions that fail with the reason and the path they were given; what they wrote
before stands. `here_of_locate` says that the place of a path is a location of the
tree, and `node?_put`, `node?_clear` and `node?_erase` say what writing changes. -/
namespace Multiversion

/-- Why an operation on a path is refused. -/
inductive Obstacle where
  | missing
  | present
  | notDirectory
  | isDirectory
  | invalid
  | nameTooLong
  | notEmpty
deriving DecidableEq, Repr

/-- The number and the wording of a refusal. -/
def Obstacle.describe : Obstacle → Nat × Text
  | missing => (2, "No such file or directory".toText)
  | present => (17, "File exists".toText)
  | notDirectory => (20, "Not a directory".toText)
  | isDirectory => (21, "Is a directory".toText)
  | invalid => (22, "Invalid argument".toText)
  | nameTooLong => (36, "File name too long".toText)
  | notEmpty => (39, "Directory not empty".toText)

/-- A directory tree, and the directory that relative paths start at. -/
structure Disk where
  /-- What the root holds. -/
  root : List (Text × Tree)
  working : Location

namespace Disk

/-- What stops an operation. -/
inductive Error where
  /-- The path does not lead to what the operation needs. -/
  | obstacle (reason : Obstacle) (path : Text)
  /-- A file is to be copied onto itself. -/
  | sameFile (source target : Text)
  /-- The path holds a null character, which no path can. -/
  | nullCharacter
  /-- The path, or the text to be written, holds halves of surrogate pairs, which no
  file can. -/
  | unencodable (halves : Utf8.Unencodable)
  /-- More directories are to be made on the way than can be. -/
  | tooDeep
deriving DecidableEq, Repr

/-- The wording of an error. -/
def Error.message : Error → Text
  | obstacle reason path =>
    let (number, wording) := reason.describe
    "[Errno ".toText ++ Literal.ofNat number ++ "] ".toText ++ wording ++ ": ".toText ++
      Text.quoted path
  | sameFile source target =>
    Text.quoted source ++ " and ".toText ++ Text.quoted target ++
      " are the same file".toText
  | nullCharacter => "embedded null byte".toText
  | unencodable halves => halves.message
  | tooDeep => "maximum recursion depth exceeded".toText

/-- The disk itself refuses the operation. Other errors come from paths and texts
that no disk can be given. -/
def Error.isRefusal : Error → Bool
  | obstacle _ _ => true
  | sameFile _ _ => true
  | _ => false

/-- An action on the disk. What it has written stands also when it fails. -/
abbrev Action := EStateM Error Disk

/-- The directories on the way down to a location, and nothing else. -/
def branch : Location → List (Text × Tree)
  | [] => []
  | name :: rest => [(name, .directory (branch rest))]

/-- A disk with nothing but the directory that relative paths start at. -/
def fresh (working : Location) : Disk := ⟨branch working, working⟩

/-! ### Places -/

/-- The tree of the disk. -/
def tree (d : Disk) : Tree := .directory d.root

/-- What is at a location. -/
def node? (d : Disk) (l : Location) : Option Node := d.tree.node? l

/-- A place that a path leads to, where something may be. -/
structure Place where
  /-- The names on the way from the root, the last one first. -/
  way : List Text
  here : Option Tree

/-- The location of a place. -/
def Place.location (p : Place) : Location := p.way.reverse

/-- The kind of what is at a place. -/
def Place.node? (p : Place) : Option Node := p.here.map Tree.node

/-- How many bytes a name may have. -/
def nameLimit : Nat := 255

/-- How many bytes a path may have. -/
def pathLimit : Nat := 4095

/-- The place that a name leads to. -/
def enter (d : Disk) (p : Place) (name : Text) : Except Obstacle Place :=
  match p.here with
  | none => .error .missing
  | some (.file _) => .error .notDirectory
  | some (.directory children) =>
    if name = [] ∨ name = Path.here then .ok p
    else if name = Path.up then .ok ⟨p.way.tail, d.tree.at? p.way.tail.reverse⟩
    else if nameLimit < FileName.size name then .error .nameTooLong
    else .ok ⟨name :: p.way, Dictionary.find? name children⟩

/-- The place that names lead to, one after the other. -/
def follow (d : Disk) (p : Place) (names : List Text) : Except Obstacle Place :=
  names.foldlM d.enter p

/-- Where a path starts. -/
def origin (d : Disk) (path : Text) : Place :=
  if Path.isAbsolute path then ⟨[], some d.tree⟩
  else ⟨d.working.reverse, d.tree.at? d.working⟩

/-- The place that some of a path leads to. It is all of the path that must not be
empty or too long. -/
def locatePart (d : Disk) (path part : Text) : Except Obstacle Place :=
  if path = [] then .error .missing
  else if pathLimit < FileName.size path then .error .nameTooLong
  else d.follow (d.origin path) (Path.names (FileName.settle part))

/-- The place of a path. -/
def locate (d : Disk) (path : Text) : Except Obstacle Place := d.locatePart path path

/-- The place where a path would put something new: slashes at its end do not
count. -/
def locateNew (d : Disk) (path : Text) : Except Obstacle Place :=
  d.locatePart path (Path.dropSlashes path)

/-- What is wrong with the text of a path, whatever the disk. -/
def textError? (path : Text) : Option Error :=
  match FileName.unencodable? path with
  | some halves => some (.unencodable halves)
  | none => if path.contains '\x00' then some .nullCharacter else none

/-- A place that was looked for, given the path for which it was. -/
def place (path : Text) (located : Except Obstacle Place) : Except Error Place :=
  match textError? path with
  | some e => .error e
  | none => located.mapError fun reason => .obstacle reason path

/-! ### Looking -/

/-- What a path leads to. -/
def status? (d : Disk) (path : Text) : Option Node :=
  match place path (d.locate path) with
  | .ok p => p.node?
  | .error _ => none

/-- Something is there. -/
def isPresent (d : Disk) (path : Text) : Bool := (d.status? path).isSome

/-- A directory is there. -/
def isDirectory (d : Disk) (path : Text) : Bool := d.status? path = some .directory

/-- The content of a file. -/
def read (d : Disk) (path : Text) : Except Error ByteArray := do
  let p ← place path (d.locate path)
  match p.here with
  | none => .error (.obstacle .missing path)
  | some (.directory _) => .error (.obstacle .isDirectory path)
  | some (.file content) => .ok content

/-- The path of what is at a location below the directory of a path. -/
def pathBelow (path : Text) (l : Location) : Text := Path.join path (Text.join ['/'] l)

/-- The directory of a location below the directory of a path can be looked into. -/
def isReachable (path : Text) (l : Location) : Bool :=
  l = [] || FileName.size (pathBelow path l) ≤ pathLimit

/-- The files below a directory, as paths from there, in the order of their
characters. There are none if there is no directory. -/
def files (d : Disk) (path : Text) : List Text :=
  match place path (d.locate path) with
  | .ok ⟨_, some (.directory children)⟩ =>
    let found := (Tree.directory children).entries.filterMap fun (l, node) =>
      if node ≠ .directory ∧ isReachable path l.dropLast then some (Text.join ['/'] l) else none
    found.mergeSort fun a b => a ≤ b
  | _ => []

/-! ### Writing -/

/-- The disk with another tree. The root stays a directory. -/
def withTree (d : Disk) : Tree → Disk
  | .directory children => { d with root := children }
  | .file _ => d

/-- The disk with something new or changed at a location. -/
def put (d : Disk) (l : Location) (node : Node) : Disk :=
  d.withTree (d.tree.put l (.ofNode node))

/-- Writes a file, which may be there already. Its directory must be. -/
def write (path : Text) (content : ByteArray) : Action Unit := do
  let d ← get
  match place path (d.locateNew path) with
  | .error e => throw e
  | .ok p =>
    if p.node? = some .directory ∨ path.getLast? = some '/' then
      throw (.obstacle .isDirectory path)
    else set (d.put p.location (.file content))

/-- Writes a text into a file. One that has no bytes leaves the file empty. -/
def writeText (path text : Text) : Action Unit :=
  match Utf8.encode text with
  | .ok content => write path content
  | .error halves => do
    write path .empty
    throw (.unencodable halves)

/-- Makes a directory where nothing is. -/
def makeDirectory (path : Text) : Action Unit := do
  let d ← get
  match place path (d.locateNew path) with
  | .error e => throw e
  | .ok p =>
    match p.here with
    | some _ => throw (.obstacle .present path)
    | none => set (d.put p.location .directory)

/-- Makes a directory unless it is there already. -/
def ensureDirectory (path : Text) : Action Unit := fun d =>
  match makeDirectory path d with
  | .ok _ d' => .ok () d'
  | .error e d' => if d'.isDirectory path then .ok () d' else .error e d'

/-- Makes a directory and the directories on the way to it, as far as they are
missing, if they are at most so many. What stands in the way is found out by the
directory that needs it. -/
def makeDirectoriesWithin : Nat → Text → Action Unit
  | 0, _ => throw .tooDeep
  | levels + 1, path => fun d =>
    let (parent, name) := Path.splitLast path
    if parent ≠ [] ∧ name ≠ [] ∧ d.isPresent parent = false then
      match makeDirectoriesWithin levels parent d with
      | .error (.obstacle .present _) d' | .ok _ d' =>
        if name = Path.here then .ok () d' else ensureDirectory path d'
      | .error e d' => .error e d'
    else ensureDirectory path d

/-- How many directories can be made at once, one in the other. -/
def levelLimit : Nat := 990

/-- Makes a directory and the directories on the way to it. -/
def makeDirectories (path : Text) : Action Unit := makeDirectoriesWithin levelLimit path

/-- Both paths lead to the same place, and something is there. -/
def isSamePlace (d : Disk) (path path' : Text) : Bool :=
  match place path (d.locate path), place path' (d.locate path') with
  | .ok p, .ok p' => p.here.isSome && p.way = p'.way
  | _, _ => false

/-- Copies a file to a place, or into the directory that is there. -/
def copy (source target : Text) : Action Unit := do
  let d ← get
  let target := if d.isDirectory target then Path.join target (Path.base source) else target
  if d.isSamePlace source target then throw (.sameFile source target)
  match d.read source with
  | .error e => throw e
  | .ok content => write target content

/-- The disk with nothing below the directory at a location. -/
def clear (d : Disk) (l : Location) : Disk := d.put l .directory

/-- The disk with nothing at a location. -/
def erase (d : Disk) (l : Location) : Disk := d.withTree (d.tree.erase l)

/-- Removes a directory and all that is below it. A directory that the path names
by dots is emptied and stays. -/
def removeTree (path : Text) : Action Unit := do
  let d ← get
  match place path (d.locate path) with
  | .error e => throw e
  | .ok p =>
    let emptied := d.clear p.location
    set emptied
    match place path (emptied.locateNew path) with
    | .error e => throw e
    | .ok p =>
      let last := Path.base (Path.dropSlashes path)
      if last = Path.here then throw (.obstacle .invalid path)
      else if last = Path.up ∨ p.way = [] then throw (.obstacle .notEmpty path)
      else set (emptied.erase p.location)

/-! ### Lemmas -/

@[simp] theorem node?_nil (d : Disk) : d.node? [] = some .directory := rfl

theorem here_enter {d : Disk} {p q : Place} {name : Text} (hp : p.here = d.tree.at? p.location)
    (h : d.enter p name = .ok q) : q.here = d.tree.at? q.location := by
  unfold enter at h
  split at h
  · contradiction
  · contradiction
  · next children hc =>
    split at h
    · cases h; exact hp
    · split at h
      · cases h; rfl
      · split at h
        · contradiction
        · cases h
          rw [hp] at hc
          simp only [Place.location] at hc
          simp [Place.location, Tree.at?_append, hc, Tree.at?, Tree.child?]

theorem here_follow {d : Disk} {p q : Place} {names : List Text}
    (hp : p.here = d.tree.at? p.location) (h : d.follow p names = .ok q) :
    q.here = d.tree.at? q.location := by
  induction names generalizing p with
  | nil => cases h; exact hp
  | cons name rest ih =>
    simp only [follow, List.foldlM_cons] at h
    cases he : d.enter p name with
    | error e => rw [he] at h; contradiction
    | ok p' => rw [he] at h; exact ih (here_enter hp he) h

/-- What is at the place of a path is what the tree holds at its location. -/
theorem here_of_locate {d : Disk} {path : Text} {p : Place} (h : d.locate path = .ok p) :
    p.here = d.tree.at? p.location := by
  unfold locate locatePart at h
  split at h
  · contradiction
  · split at h
    · contradiction
    · refine here_follow ?_ h
      unfold origin
      split <;> simp [Place.location, Tree.at?]

/-- Only what is at or below the location that is written changes. -/
theorem node?_put {d : Disk} {l : Location} (hl : l ≠ [])
    (hp : d.node? l.dropLast = some .directory) (node : Node) (l' : Location) :
    (d.put l node).node? l' =
      if l' = l then some node else if l <+: l' then none else d.node? l' := by
  obtain ⟨name, rest, rfl⟩ := List.exists_cons_of_ne_nil hl
  have step := Tree.node?_put (.ofNode node) hl hp l'
  have folder : ∃ children, d.tree.put (name :: rest) (.ofNode node) = .directory children := by
    simp only [tree, Tree.put]
    split
    · exact ⟨_, rfl⟩
    · split <;> exact ⟨_, rfl⟩
  obtain ⟨children, hc⟩ := folder
  rw [hc] at step
  simp only [node?, put, hc, withTree]
  show Tree.node? l' (.directory children) = _
  rw [step]
  by_cases h : name :: rest <+: l'
  · obtain ⟨more, rfl⟩ := h
    simp [Tree.node?_ofNode]
  · have hne : l' ≠ name :: rest := fun e => h (e ▸ List.prefix_refl _)
    simp [h, hne]

/-- What is strictly below the directory that is cleared is gone, and nothing else
changes. -/
theorem node?_clear {d : Disk} {l : Location} (h : d.node? l = some .directory)
    (l' : Location) :
    (d.clear l).node? l' = if l' ≠ l ∧ l <+: l' then none else d.node? l' := by
  cases l with
  | nil =>
    simp only [clear, put, Tree.put, Tree.ofNode, withTree, node?, tree]
    cases l' with
    | nil => simp [Tree.node]
    | cons name rest => simp [Tree.node?_cons, Tree.child?, Dictionary.find?]
  | cons name rest =>
    have hp : d.node? (name :: rest).dropLast = some .directory := by
      obtain ⟨last, e⟩ : ∃ last, name :: rest = (name :: rest).dropLast ++ [last] :=
        ⟨_, (List.dropLast_concat_getLast (by simp)).symm⟩
      rw [e] at h
      exact Tree.node?_of_append h
    rw [clear, node?_put (by simp) hp]
    by_cases he : l' = name :: rest <;> simp [he, h]

/-- What is at or below the location that is erased is gone, and nothing else
changes. -/
theorem node?_erase {l : Location} (hl : l ≠ []) (d : Disk) (l' : Location) :
    (d.erase l).node? l' = if l <+: l' then none else d.node? l' := by
  have step := Tree.node?_erase hl d.tree l'
  have folder : ∃ children, d.tree.erase l = .directory children := by
    obtain ⟨name, rest, rfl⟩ := List.exists_cons_of_ne_nil hl
    cases rest with
    | nil => exact ⟨_, rfl⟩
    | cons next more =>
      simp only [tree, Tree.erase]
      split <;> exact ⟨_, rfl⟩
  obtain ⟨children, hc⟩ := folder
  rw [hc] at step
  simp only [node?, erase, hc, withTree]
  exact step

end Disk

end Multiversion
