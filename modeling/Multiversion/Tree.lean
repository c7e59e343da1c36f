import Multiversion.Dictionary
import Multiversion.Text.CodePoint

/-! Directory trees.

A tree is a file, or a directory with trees by name. A location is the list of names
on the way down from the root of a tree; `at?` follows it, and `node?` says whether a
file or a directory is there. What writing and erasing do is said through `node?`:
`node?_put` and `node?_erase` change what is at or below one location, and nothing
else. Everything with something below it is a directory (`node?_of_append`). -/
namespace Multiversion

/-- The names on the way from the root. -/
abbrev Location := List Text

/-- What is at a location. -/
inductive Node where
  | directory
  | file (content : ByteArray)

/-- Files are the same if their contents are. -/
instance : DecidableEq Node
  | .directory, .directory => isTrue rfl
  | .directory, .file _ => isFalse nofun
  | .file _, .directory => isFalse nofun
  | .file a, .file b =>
    match ByteArray.instDecidableEq a b with
    | isTrue h => isTrue (congrArg Node.file h)
    | isFalse h => isFalse fun e => h (Node.file.inj e)

/-- A file, or a directory with what it holds. -/
inductive Tree where
  | file (content : ByteArray)
  | directory (children : List (Text × Tree))

namespace Tree

/-- The kind of a tree, and the content if it is a file. -/
def node : Tree → Node
  | file content => .file content
  | directory _ => .directory

/-- A tree of one node. -/
def ofNode : Node → Tree
  | .file content => file content
  | .directory => directory []

/-- What a tree holds under a name. -/
def child? (name : Text) : Tree → Option Tree
  | file _ => none
  | directory children => Dictionary.find? name children

/-- What is at a location. -/
def at? : Location → Tree → Option Tree
  | [], t => some t
  | name :: rest, t => (t.child? name).bind (at? rest)

/-- Whether a file or a directory is at a location. -/
def node? (l : Location) (t : Tree) : Option Node := (t.at? l).map node

/-- The tree with something new at a location. The directory of the location must be
there. -/
def put : Location → Tree → Tree → Tree
  | [], _, new => new
  | _ :: _, file content, _ => file content
  | name :: rest, directory children, new =>
    match Dictionary.find? name children with
    | some t => directory (Dictionary.put name (put rest t new) children)
    | none =>
      if rest = [] then directory (Dictionary.put name new children) else directory children

/-- The tree with nothing at a location. -/
def erase : Location → Tree → Tree
  | [], t => t
  | _ :: _, file content => file content
  | [name], directory children => directory (children.filter fun c => c.1 ≠ name)
  | name :: next :: rest, directory children =>
    match Dictionary.find? name children with
    | some t => directory (Dictionary.put name (erase (next :: rest) t) children)
    | none => directory children

mutual

/-- Everything in a tree with its location, a directory before what it holds. -/
def entries : Tree → List (Location × Node)
  | file content => [([], .file content)]
  | directory children => ([], .directory) :: entriesOf children

/-- Everything in the trees that a directory holds. -/
def entriesOf : List (Text × Tree) → List (Location × Node)
  | [] => []
  | (name, t) :: rest => (t.entries.map fun (l, node) => (name :: l, node)) ++ entriesOf rest

end

/-! ### Lemmas -/

@[simp] theorem node_ofNode (node : Node) : (ofNode node).node = node := by cases node <;> rfl

@[simp] theorem node?_nil (t : Tree) : t.node? [] = some t.node := rfl

theorem node?_cons (name : Text) (rest : Location) (t : Tree) :
    t.node? (name :: rest) = (t.child? name).bind (node? rest) := by
  cases h : t.child? name <;> simp [node?, at?, h]

theorem at?_append (l rest : Location) (t : Tree) :
    t.at? (l ++ rest) = (t.at? l).bind (at? rest) := by
  induction l generalizing t with
  | nil => rfl
  | cons name l ih =>
    cases h : t.child? name with
    | none => simp [at?, h]
    | some c => simp [at?, h, ih]

/-- A tree of one node holds nothing. -/
theorem node?_ofNode (node : Node) (l : Location) :
    (ofNode node).node? l = if l = [] then some node else none := by
  cases l with
  | nil => simp
  | cons name rest => cases node <;> simp [node?_cons, ofNode, child?, Dictionary.find?]

/-- What holds something is a directory. -/
theorem node?_of_append {l : Location} {name : Text} {rest : Location} {t : Tree} {node : Node}
    (h : t.node? (l ++ name :: rest) = some node) : t.node? l = some .directory := by
  simp only [node?, at?_append, Option.map_eq_some_iff, Option.bind_eq_some_iff] at h
  obtain ⟨_, ⟨c, hc, hrest⟩, -⟩ := h
  cases c with
  | file _ => simp [at?, child?] at hrest
  | directory _ => simp [node?, hc, Tree.node]

/-- What is put at a location is there with all that it holds, and nothing changes
elsewhere. -/
theorem node?_put (new : Tree) {l : Location} (hl : l ≠ []) {t : Tree}
    (hp : t.node? l.dropLast = some .directory) (l' : Location) :
    (t.put l new).node? l' =
      if l <+: l' then new.node? (l'.drop l.length) else t.node? l' := by
  induction l generalizing t l' with
  | nil => contradiction
  | cons name rest ih =>
    cases t with
    | file _ => cases rest <;> simp [node?, at?, child?, node] at hp
    | directory children =>
      cases l' with
      | nil =>
        have outside : ¬ name :: rest <+: [] := by simp
        simp only [put, node?_nil, outside, if_false]
        split
        · rfl
        · split <;> rfl
      | cons name' rest' =>
        cases hc : Dictionary.find? name children with
        | none =>
          cases rest with
          | cons next more =>
            simp [node?_cons, child?, hc] at hp
          | nil =>
            by_cases hn : name = name'
            · subst hn
              simp [put, hc, node?_cons, child?, Dictionary.find?_put]
            · have hn' : ¬ name' = name := fun e => hn e.symm
              simp [put, hc, node?_cons, child?, Dictionary.find?_put, hn, hn']
        | some c =>
          by_cases hn : name = name'
          · subst hn
            cases rest with
            | nil => simp [put, hc, node?_cons, child?, Dictionary.find?_put]
            | cons next more =>
              have hp' : c.node? (next :: more).dropLast = some .directory := by
                simpa [node?_cons, child?, hc] using hp
              have step := ih (by simp) hp' rest'
              simp only [put, hc, node?_cons, child?, Dictionary.find?_put, if_true,
                Option.bind_some, step, List.cons_prefix_cons, true_and, List.length_cons,
                List.drop_succ_cons]
          · have hn' : ¬ name' = name := fun e => hn e.symm
            simp [put, hc, node?_cons, child?, Dictionary.find?_put, hn, hn']

/-- What is erased is gone with all that it held, and nothing changes elsewhere. -/
theorem node?_erase {l : Location} (hl : l ≠ []) (t : Tree) (l' : Location) :
    (t.erase l).node? l' = if l <+: l' then none else t.node? l' := by
  induction l generalizing t l' with
  | nil => contradiction
  | cons name rest ih =>
    cases t with
    | file _ =>
      cases l' with
      | nil => cases rest <;> simp [erase]
      | cons name' rest' => cases rest <;> simp [erase, node?_cons, child?]
    | directory children =>
      cases rest with
      | nil =>
        cases l' with
        | nil => simp [erase, node]
        | cons name' rest' =>
          have found := Dictionary.find?_filter (fun n => decide (n ≠ name)) name' children
          by_cases hn : name = name'
          · simp_all [erase, node?_cons, child?]
          · have hn' : ¬ name' = name := fun e => hn e.symm
            simp_all [erase, node?_cons, child?]
      | cons next more =>
        cases hc : Dictionary.find? name children with
        | none =>
          cases l' with
          | nil => simp [erase, hc, node]
          | cons name' rest' =>
            by_cases hn : name = name'
            · subst hn
              simp [erase, hc, node?_cons, child?]
            · simp [erase, hc, hn]
        | some c =>
          cases l' with
          | nil => simp [erase, hc, node]
          | cons name' rest' =>
            by_cases hn : name = name'
            · subst hn
              have step := ih (by simp) c rest'
              simp only [erase, hc, node?_cons, child?, Dictionary.find?_put, if_true,
                Option.bind_some, step, List.cons_prefix_cons, true_and]
            · have hn' : ¬ name' = name := fun e => hn e.symm
              simp [erase, hc, node?_cons, child?, Dictionary.find?_put, hn, hn']

end Tree

end Multiversion
