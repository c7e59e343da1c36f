import Multiversion.Proofs.Source.Recognition

/-! Texts as trees of blocks.

A body is a list of items: lines that are not structural, lines that switch
remapping, and chains. A chain is an `if` or `ifdef` with a body, any number of
`elseif` with a body, at most one `else` with a body, and an `endif`. Lines carry
the proof that they are of the kind their place asks for, so a tree is the grammar
of well-nested texts: a text is well nested when it is the lines of a tree
(`WellNested`). -/
namespace Multiversion.Layout
open Source (Line)

/-- A line of one of some kinds. -/
structure LineOf (k : Keywords) (kinds : List LineKind) where
  line : Line
  fits : Source.kind k line.remapped.text ∈ kinds

namespace LineOf
variable {k : Keywords} {kinds : List LineKind} (l : LineOf k kinds)

/-- The text that directs. -/
def text : Text := l.line.remapped.text

/-- The kind of the line. -/
def kind : LineKind := Source.kind k l.text

/-- What follows the token. -/
def argument : Text := (Source.directive k l.text).argument

/-- The spaces the line starts with. -/
def indent : Nat := Text.indentation l.text

/-- A line whose directive is known. -/
def ofDirective {k : Keywords} {kinds : List LineKind} {line : Line} {kind : LineKind}
    {argument : Text} (hd : Source.directive k line.remapped.text = ⟨kind, argument⟩)
    (hk : kind ∈ kinds) : LineOf k kinds :=
  ⟨line, by
    rw [Source.kind, hd]
    exact hk⟩

theorem directive_eq : Source.directive k l.line.remapped.text = ⟨l.kind, l.argument⟩ := rfl

theorem kind_of_singleton {k : Keywords} {kind : LineKind} (l : LineOf k [kind]) :
    l.kind = kind := List.mem_singleton.1 l.fits

theorem kind_of_pair {k : Keywords} {a b : LineKind} (l : LineOf k [a, b]) :
    l.kind = a ∨ l.kind = b :=
  (List.mem_cons.1 l.fits).imp_right List.mem_singleton.1

end LineOf

mutual

/-- The items between two directives of a chain, or of a whole text. -/
inductive Body (k : Keywords) where
  | nil
  | line (line : LineOf k [.eval, .plain]) (rest : Body k)
  | toggle (line : LineOf k [.disableRemap, .enableRemap]) (rest : Body k)
  | chain (head : LineOf k [.ifHolds, .ifDefined]) (body : Body k) (more : Branches k)
      (rest : Body k)

/-- What follows the first branch of a chain, up to its end. -/
inductive Branches (k : Keywords) where
  | endIf (close : LineOf k [.endIf])
  | otherwise (head : LineOf k [.otherwise]) (body : Body k) (close : LineOf k [.endIf])
  | elseIf (head : LineOf k [.elseIf]) (body : Body k) (more : Branches k)

end

variable {k : Keywords}

mutual

/-- The lines of a body. -/
def Body.lines : Body k → List Line
  | .nil => []
  | .line l rest => l.line :: rest.lines
  | .toggle l rest => l.line :: rest.lines
  | .chain head body more rest => head.line :: (body.lines ++ (more.lines ++ rest.lines))

/-- The lines of the branches that follow, with the `endif`. -/
def Branches.lines : Branches k → List Line
  | .endIf close => [close.line]
  | .otherwise head body close => head.line :: (body.lines ++ [close.line])
  | .elseIf head body more => head.line :: (body.lines ++ more.lines)

end

/-- The lines are those of a tree. -/
def WellNested (k : Keywords) (lines : List Line) : Prop := ∃ b : Body k, b.lines = lines

/-- The items of two bodies, one after the other. -/
def Body.append : Body k → Body k → Body k
  | .nil, c => c
  | .line l rest, c => .line l (rest.append c)
  | .toggle l rest, c => .toggle l (rest.append c)
  | .chain head body more rest, c => .chain head body more (rest.append c)

@[simp] theorem Body.lines_append : (b c : Body k) → (b.append c).lines = b.lines ++ c.lines
  | .nil, c => rfl
  | .line l rest, c => by simp [Body.append, Body.lines, lines_append rest c]
  | .toggle l rest, c => by simp [Body.append, Body.lines, lines_append rest c]
  | .chain head body more rest, c => by
    simp [Body.append, Body.lines, lines_append rest c]

end Multiversion.Layout
