import Multiversion.Decimal.Shortest
import Multiversion.Text.Quoted

/-! JSON values.

An object holds its members in the order in which their keys first came, each key
once. `display` is the form in which messages show a value. -/
namespace Multiversion

/-- A JSON value. Numbers with a fraction or an exponent are floating-point. -/
inductive Json where
  | null
  | bool (value : Bool)
  | integer (value : Int)
  | float (value : Binary64)
  | string (text : Text)
  | array (items : List Json)
  | object (members : List (Text × Json))

namespace Json

/-- The value of a member, the first of its key. -/
def member? (key : Text) : List (Text × Json) → Option Json
  | [] => none
  | (k, value) :: rest => if k = key then some value else member? key rest

/-- The members after one more: a key that is there keeps its place. -/
def putMember (key : Text) (value : Json) : List (Text × Json) → List (Text × Json)
  | [] => [(key, value)]
  | (k, v) :: rest =>
    if k = key then (k, value) :: rest else (k, v) :: putMember key value rest

/-- The value is nothing, zero, or empty. -/
def isFalsy : Json → Bool
  | null => true
  | bool value => !value
  | integer value => value = 0
  | float value => value.isZero
  | string text => text.isEmpty
  | array items => items.isEmpty
  | object members => members.isEmpty

/-- What kind of value it is. -/
def typeName : Json → Text
  | null => "NoneType".toText
  | bool _ => "bool".toText
  | integer _ => "int".toText
  | float _ => "float".toText
  | string _ => "str".toText
  | array _ => "list".toText
  | object _ => "dict".toText

/-- The text of a truth value in messages. -/
def showBool (value : Bool) : Text := if value then "True".toText else "False".toText

/-- A floating-point number in messages. -/
def showFloat (value : Binary64) : Text := value.text "nan".toText "inf".toText

mutual

/-- A value as messages show it. -/
def display : Json → Text
  | null => "None".toText
  | bool value => showBool value
  | integer value => Literal.ofInt value
  | float value => showFloat value
  | string text => Text.quoted text
  | array items => "[".toText ++ Text.join ", ".toText (displayItems items) ++ "]".toText
  | object members => "\x7b".toText ++ Text.join ", ".toText (displayMembers members) ++ "\x7d".toText

/-- Items as messages show them. -/
def displayItems : List Json → List Text
  | [] => []
  | item :: rest => display item :: displayItems rest

/-- Members as messages show them. -/
def displayMembers : List (Text × Json) → List Text
  | [] => []
  | (key, value) :: rest =>
    (Text.quoted key ++ ": ".toText ++ display value) :: displayMembers rest

end

/-- The text that a value stands for: that of a string is the string. -/
def asText : Json → Text
  | string text => text
  | value => display value

end Json

end Multiversion
