import Multiversion.Text.Basic

/-! Paths as they are written.

A path is text in which slashes stand between names. Joining and taking apart is
done on the text alone, so that messages show a path as it was given. -/
namespace Multiversion.Path

/-- The character between names. -/
def isSlash (c : CodePoint) : Bool := c == '/'

/-- The name of the directory itself. -/
def here : Text := ".".toText

/-- The name of the directory that a directory is in. -/
def up : Text := "..".toText

/-- Starts at the root. -/
def isAbsolute (path : Text) : Bool := path.head? = some '/'

/-- The second path as seen from the first one. -/
def join (path more : Text) : Text :=
  if isAbsolute more then more
  else if path.isEmpty ∨ path.getLast? = some '/' then path ++ more
  else path ++ "/".toText ++ more

/-- The text less the slashes at its end. -/
def dropSlashes (path : Text) : Text := (path.reverse.dropWhile isSlash).reverse

/-- The last name of a path: what stands behind the last slash. -/
def base (path : Text) : Text := (path.reverse.takeWhile fun c => !isSlash c).reverse

/-- What stands in front of the last name, without the slashes between them unless
nothing else is left. -/
def parent (path : Text) : Text :=
  let front := (path.reverse.dropWhile fun c => !isSlash c).reverse
  if front.all isSlash then front else dropSlashes front

/-- A path as the last name and what stands in front of it, slashes at its end left
out. -/
def splitLast (path : Text) : Text × Text :=
  if base path = [] then (parent (parent path), base (parent path))
  else (parent path, base path)

/-- The names of a path. A name may be empty, where slashes meet or end the path. -/
def names (path : Text) : List Text := Text.splitOn '/' path

/-- The names after one more is read, the last one first: a dot stays where it is,
and two dots go back to where the last name started. At the root they stay; a
relative path keeps them. -/
def normalStep (absolute : Bool) (read : List Text) (name : Text) : List Text :=
  if name = [] ∨ name = here then read
  else if name = up then
    match read with
    | [] => if absolute then [] else [name]
    | last :: before => if last = up then name :: read else before
  else name :: read

/-- How many slashes an absolute path keeps at its front: exactly two count as a
root of their own. -/
def rootSlashes (path : Text) : Text :=
  match path.takeWhile isSlash with
  | [] => []
  | [_, _] => "//".toText
  | _ => "/".toText

/-- The shortest text for the same path, as far as the text alone can tell. -/
def normalize (path : Text) : Text :=
  let root := rootSlashes path
  let kept := ((names path).foldl (normalStep (isAbsolute path)) []).reverse
  match root ++ Text.join ['/'] kept with
  | [] => here
  | text => text

/-- The path as seen from the root, when relative paths start at a directory. -/
def absolute (directory path : Text) : Text := normalize (join directory path)

end Multiversion.Path
