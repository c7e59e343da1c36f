import Multiversion.Dictionary
import Multiversion.Text.Basic

/-! Keyword sets.

The lines of a file are directed by eight tokens, chosen to be comments in the
language of the file. A keyword set gives the tokens; two sets have names, and a
map from suffixes to sets says which one a file uses: that of the longest suffix
its name ends with (`SuffixMap.keywordsFor`). -/
namespace Multiversion

/-- The tokens of one family of files. -/
structure Keywords where
  disableRemap : Text
  enableRemap : Text
  ifHolds : Text
  ifDefined : Text
  elseIf : Text
  otherwise : Text
  endIf : Text
  eval : Text
deriving DecidableEq, Repr

namespace Keywords

/-- Tokens that are line comments of two slashes. -/
def standard : Keywords where
  disableRemap := "//#disable-remap".toText
  enableRemap := "//#enable-remap".toText
  ifHolds := "//#if".toText
  ifDefined := "//#ifdef".toText
  elseIf := "//#elseif".toText
  otherwise := "//#else".toText
  endIf := "//#endif".toText
  eval := "//$$".toText

/-- Tokens that are line comments of a number sign. -/
def cfg : Keywords where
  disableRemap := "##disable-remap".toText
  enableRemap := "##enable-remap".toText
  ifHolds := "##if".toText
  ifDefined := "##ifdef".toText
  elseIf := "##elseif".toText
  otherwise := "##else".toText
  endIf := "##endif".toText
  eval := "#$$".toText

/-- The keyword sets that have a name. -/
def profiles : List (Text × Keywords) :=
  [("default".toText, standard), ("cfg".toText, cfg)]

/-- The keyword set of a name, in upper or lower case. -/
def profile? (name : Text) : Option Keywords :=
  profiles.lookup (name.map CodePoint.toLower)

/-- The names of the eight fields in configurations. -/
def fieldNames : List Text :=
  ["disableRemap".toText, "enableRemap".toText, "if".toText, "ifdef".toText, "elseif".toText,
    "else".toText, "endif".toText, "eval".toText]

/-- The tokens in the order of the field names. -/
def tokens (k : Keywords) : List Text :=
  [k.disableRemap, k.enableRemap, k.ifHolds, k.ifDefined, k.elseIf, k.otherwise, k.endIf, k.eval]

/-- The tokens by field name. -/
def toFields (k : Keywords) : List (Text × Text) := fieldNames.zip k.tokens

/-- The keyword set of eight tokens in the order of the field names. -/
def ofTokens? : List Text → Option Keywords
  | [disableRemap, enableRemap, ifHolds, ifDefined, elseIf, otherwise, endIf, eval] =>
    some ⟨disableRemap, enableRemap, ifHolds, ifDefined, elseIf, otherwise, endIf, eval⟩
  | _ => none

/-- The keyword set whose tokens a look-up gives by field name, or else the names
it gives no token for. -/
def ofFields (token? : Text → Option Text) : Except (List Text) Keywords :=
  match ofTokens? (fieldNames.filterMap token?) with
  | some k => .ok k
  | none => .error (fieldNames.filter fun name => (token? name).isNone)

end Keywords

/-- Keyword sets by the suffix of the file names that use them. -/
abbrev SuffixMap := Dictionary Text Keywords

namespace SuffixMap

/-- The suffixes that are known from the start. -/
def standard : SuffixMap :=
  Dictionary.ofList <|
    ([".java", ".kt", ".kts", ".gradle", ".groovy", ".scala"].map
      fun suffix => (suffix.toText, Keywords.standard)) ++
    ([".json", ".mcmeta", ".cfg", ".properties", ".toml", ".yml", ".yaml"].map
      fun suffix => (suffix.toText, Keywords.cfg))

/-- The better of the best suffix so far and the next one, for a file name. -/
def better (name : Text) (best : Option (Text × Keywords)) (next : Text × Keywords) :
    Option (Text × Keywords) :=
  if next.1.isSuffixOf name then
    match best with
    | none => some next
    | some (suffix, keywords) =>
      if suffix.length < next.1.length then some next else some (suffix, keywords)
  else best

/-- The keyword set of the longest suffix that a file name ends with. -/
def keywordsFor (map : SuffixMap) (name : Text) : Option Keywords :=
  (map.entries.foldl (better name) none).map Prod.snd

end SuffixMap

end Multiversion
