import Multiversion.Text.CodePoint

/-! How text is taken apart.

Everything the library reads or prints is a `Text`, a list of code points, so
lengths, columns and indentation count code points. The splitting
functions return at least one piece, and `join` puts the pieces of `splitOn` back
together; `after?` reads a token off the front, and `eraseFirst` removes the
first place where a token stands. -/
namespace Multiversion.Text

/-! ### Blank characters -/

/-- White space: the ASCII controls that separate text and lines, the space, and
the spaces and separators of Unicode. The zero-width characters are not blank. -/
def isBlankChar (c : CodePoint) : Bool :=
  let n := c.toNat
  (9 ≤ n && n ≤ 13) || (28 ≤ n && n ≤ 32) || n == 0x85 || n == 0xA0 || n == 0x1680 ||
    (0x2000 ≤ n && n ≤ 0x200A) || n == 0x2028 || n == 0x2029 || n == 0x202F || n == 0x205F ||
    n == 0x3000

/-- Only white space, or nothing at all. -/
def isBlank (s : Text) : Bool := s.all isBlankChar

/-- The text without the white space at its front. -/
def stripFront (s : Text) : Text := s.dropWhile isBlankChar

/-- The text without the white space at its end. -/
def stripBack (s : Text) : Text := (s.reverse.dropWhile isBlankChar).reverse

/-- The text without the white space at either end. -/
def strip (s : Text) : Text := stripBack (stripFront s)

/-- How many spaces a line starts with. Other white space does not indent. -/
def indentation (s : Text) : Nat := (s.takeWhile fun (c : CodePoint) => c == ' ').length

/-- So many spaces. -/
def spaces (n : Nat) : Text := List.replicate n ' '

/-! ### Splitting and joining -/

/-- Puts a character in front of the first piece. -/
def consFirst (c : CodePoint) : List Text → List Text
  | [] => [[c]]
  | piece :: rest => (c :: piece) :: rest

/-- The pieces between the separators. -/
def splitOn (separator : CodePoint) : Text → List Text
  | [] => [[]]
  | c :: rest =>
    if c = separator then [] :: splitOn separator rest
    else consFirst c (splitOn separator rest)

/-- The pieces between the places where a character stands twice in a row, read
from the front. -/
def splitDoubled (mark : CodePoint) : Text → List Text
  | [] => [[]]
  | [c] => [[c]]
  | a :: b :: rest =>
    if a = mark ∧ b = mark then [] :: splitDoubled mark rest
    else consFirst a (splitDoubled mark (b :: rest))

/-- The two sides of the first separator. -/
def cut? (separator : CodePoint) : Text → Option (Text × Text)
  | [] => none
  | c :: rest =>
    if c = separator then some ([], rest)
    else (cut? separator rest).map fun (before, behind) => (c :: before, behind)

/-- The pieces in order, with the separator between neighbours. -/
def join (separator : Text) (pieces : List Text) : Text := List.intercalate separator pieces

/-! ### Tokens -/

/-- What follows a token at the front of the text, if the token stands there. -/
def after? : Text → Text → Option Text
  | [], s => some s
  | _ :: _, [] => none
  | t :: token, c :: s => if t = c then after? token s else none

/-- The text less one space at its front, if it has one. -/
def dropSpace : Text → Text
  | [] => []
  | c :: rest => if c = ' ' then rest else c :: rest

/-- The text without the first place where the token stands, and without one
space right behind it. -/
def eraseFirst (token : Text) : Text → Text
  | [] => []
  | c :: rest =>
    match after? token (c :: rest) with
    | some behind => dropSpace behind
    | none => c :: eraseFirst token rest

/-! ### Lemmas -/

theorem after?_eq_some_iff {token s behind : Text} :
    after? token s = some behind ↔ s = token ++ behind := by
  induction token generalizing s with
  | nil => simp [after?]
  | cons t token ih =>
    cases s with
    | nil => simp [after?]
    | cons c s => by_cases h : t = c <;> simp [after?, h, ih, eq_comm]

theorem length_stripFront_le (s : Text) : (stripFront s).length ≤ s.length :=
  List.Sublist.length_le (List.dropWhile_sublist _)

theorem length_strip_le (s : Text) : (strip s).length ≤ s.length := by
  have h := List.Sublist.length_le (List.dropWhile_sublist isBlankChar (l := (stripFront s).reverse))
  have h' := length_stripFront_le s
  simp only [strip, stripBack, List.length_reverse] at h ⊢
  omega

theorem consFirst_ne_nil (c : CodePoint) (pieces : List Text) : consFirst c pieces ≠ [] := by
  cases pieces <;> simp [consFirst]

theorem splitOn_ne_nil (separator : CodePoint) (s : Text) : splitOn separator s ≠ [] := by
  cases s with
  | nil => simp [splitOn]
  | cons c rest =>
    simp only [splitOn]
    split
    · simp
    · exact consFirst_ne_nil _ _

theorem join_consFirst (separator : Text) (c : CodePoint) {pieces : List Text} (h : pieces ≠ []) :
    join separator (consFirst c pieces) = c :: join separator pieces := by
  match pieces with
  | [] => exact absurd rfl h
  | [piece] => simp [consFirst, join, List.intercalate]
  | piece :: next :: more => simp [consFirst, join, List.intercalate]

/-- The pieces of a text put together again are the text. -/
theorem join_splitOn (separator : CodePoint) (s : Text) :
    join [separator] (splitOn separator s) = s := by
  induction s with
  | nil => rfl
  | cons c rest ih =>
    simp only [splitOn]
    split
    · next h =>
      subst h
      cases hp : splitOn c rest with
      | nil => exact absurd hp (splitOn_ne_nil _ _)
      | cons piece more =>
        rw [hp] at ih
        simp only [join, List.intercalate] at ih ⊢
        simp [ih]
    · rw [join_consFirst _ _ (splitOn_ne_nil _ _), ih]

theorem splitDoubled_ne_nil (mark : CodePoint) (s : Text) : splitDoubled mark s ≠ [] := by
  match s with
  | [] => simp [splitDoubled]
  | [c] => simp [splitDoubled]
  | a :: b :: rest =>
    simp only [splitDoubled]
    split
    · simp
    · exact consFirst_ne_nil _ _

/-- The pieces of a split at doubled marks hold all characters but two for each
place where it was split. -/
theorem length_flatten_splitDoubled (mark : CodePoint) (s : Text) :
    (splitDoubled mark s).flatten.length + 2 * (splitDoubled mark s).length = s.length + 2 := by
  fun_induction splitDoubled mark s with
  | case1 => rfl
  | case2 c => rfl
  | case3 a b rest h ih => simp only [List.flatten_cons, List.nil_append, List.length_cons] at ih ⊢; omega
  | case4 a b rest h ih =>
    have hne := splitDoubled_ne_nil mark (b :: rest)
    cases hp : splitDoubled mark (b :: rest) with
    | nil => exact absurd hp hne
    | cons piece more =>
      rw [hp] at ih
      simp only [consFirst, List.flatten_cons, List.length_append, List.length_cons] at ih ⊢
      omega

/-- A piece of a text that was split at all is shorter than the text. -/
theorem length_lt_of_mem_splitDoubled {mark : CodePoint} {s piece : Text}
    (hm : piece ∈ splitDoubled mark s) (hs : 1 < (splitDoubled mark s).length) :
    piece.length < s.length := by
  have h := length_flatten_splitDoubled mark s
  have hle := (List.sublist_flatten_of_mem hm).length_le
  omega

end Multiversion.Text
