import Multiversion.Dictionary
import Multiversion.Literal
import Multiversion.Text.Quoted

/-! Variable environments.

An environment binds names to integers, in the order in which the names came.
Messages show the whole environment. -/
namespace Multiversion

/-- The variables that conditions can name. -/
abbrev Environment := Dictionary Text Int

namespace Environment

/-- One binding as messages show it. -/
def showBinding (binding : Text × Int) : Text :=
  Text.quoted binding.1 ++ ": ".toText ++ Literal.ofInt binding.2

/-- The environment as messages show it: the quoted names with their values, in
braces. -/
def display (env : Environment) : Text :=
  "\x7b".toText ++ Text.join ", ".toText (env.entries.map showBinding) ++ "\x7d".toText

end Environment

end Multiversion
