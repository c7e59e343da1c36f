import Multiversion.Json.Basic

/-! Reading JSON.

The whole text must be one value. What numbers may look like is fixed: no leading
zeros, digits on both sides of a point. Beyond the standard, `NaN` and the
infinities are read as floating-point numbers. An integer may have as many digits
as a literal, and arrays and objects may stand in each other to a fixed depth. The
first fault from the front counts. -/
namespace Multiversion.Json

/-- What holds other values. -/
inductive Container where
  | array
  | object
deriving DecidableEq, Repr

/-- Why a text is no value. -/
inductive Fault where
  | malformed
  /-- An array or object stands in too many others. -/
  | tooDeep (container : Container)
deriving DecidableEq, Repr

/-- How many arrays and objects may stand in each other. -/
def depthLimit : Nat := 990

/-- The name of a kind of container. -/
def Container.name : Container → Text
  | array => "array".toText
  | object => "object".toText

/-- The white space that may stand between tokens. -/
def isSpace (c : CodePoint) : Bool := c == ' ' || c == '\t' || c == '\n' || c == '\r'

/-- The text without white space at its front. -/
def skipSpace (s : Text) : Text := s.dropWhile isSpace

/-- What follows a character that stands at the front of a text, behind white space
at most. -/
def next? (c : CodePoint) (s : Text) : Option Text :=
  match skipSpace s with
  | [] => none
  | d :: rest => if d = c then some rest else none

/-- The value of a hexadecimal digit. -/
def hexValue? (c : CodePoint) : Option Nat :=
  let n := c.toNat
  if c.isDigit then some (n - 48)
  else if 97 ≤ n ∧ n ≤ 102 then some (n - 87)
  else if 65 ≤ n ∧ n ≤ 70 then some (n - 55)
  else none

/-- The code point of a UTF-16 unit in four hexadecimal digits. -/
def unit? (a b c d : CodePoint) : Option CodePoint := do
  let a ← hexValue? a
  let b ← hexValue? b
  let c ← hexValue? c
  let d ← hexValue? d
  pure (.ofNat (((a * 16 + b) * 16 + c) * 16 + d))

/-- The code point of a surrogate pair. -/
def ofPair (high low : CodePoint) : CodePoint :=
  .ofNat (0x10000 + (high.toNat - 0xD800) * 0x400 + (low.toNat - 0xDC00))

/-- The character that a letter behind a backslash stands for. -/
def shortEscape? (c : CodePoint) : Option CodePoint :=
  ("\"\\/bfnrt".toText.zip "\"\\/\x08\x0c\n\r\t".toText).lookup c

/-- A character in front of a string that has been read. -/
def consRead (c : CodePoint) (read : Option (Text × Text)) : Option (Text × Text) :=
  read.map fun (s, rest) => (c :: s, rest)

/-- The string behind a quote, and what follows its closing quote. A high and a low
half that are escaped one after the other are one character; a half alone stays. -/
def readString : Text → Option (Text × Text)
  | [] => none
  | c :: rest =>
    if c = '"' then some ([], rest)
    else if c = '\\' then
      match rest with
      | [] => none
      | e :: rest =>
        if e = 'u' then
          match rest with
          | a :: b :: c :: d :: rest =>
            match unit? a b c d with
            | none => none
            | some unit =>
              match rest with
              | x :: y :: a :: b :: c :: d :: rest' =>
                match unit? a b c d with
                | some low =>
                  if unit.isHighHalf ∧ x = '\\' ∧ y = 'u' ∧ low.isLowHalf then
                    consRead (ofPair unit low) (readString rest')
                  else consRead unit (readString (x :: y :: a :: b :: c :: d :: rest'))
                | none => consRead unit (readString (x :: y :: a :: b :: c :: d :: rest'))
              | rest => consRead unit (readString rest)
          | _ => none
        else
          match shortEscape? e with
          | some c => consRead c (readString rest)
          | none => none
    else if c.toNat < 0x20 then none
    else consRead c (readString rest)

/-- The digits at the front of a text, and what follows them. -/
def spanDigits (s : Text) : Text × Text := (s.takeWhile CodePoint.isDigit, s.dropWhile CodePoint.isDigit)

/-- The digits of an integer without leading zeros, and what follows them. -/
def readWhole (s : Text) : Option (Text × Text) :=
  match s with
  | [] => none
  | c :: rest =>
    if c = '0' then some ([c], rest)
    else if c.isDigit then some (spanDigits s)
    else none

/-- The digits behind a point, if there are any, and what follows them. -/
def readFraction (s : Text) : Text × Text :=
  match s with
  | [] => ([], s)
  | c :: rest =>
    if c = '.' then
      match spanDigits rest with
      | ([], _) => ([], s)
      | found => found
    else ([], s)

/-- The exponent, if there is one, and what follows it. -/
def readExponent (s : Text) : Option Int × Text :=
  match s with
  | [] => (none, s)
  | c :: rest =>
    if c = 'e' ∨ c = 'E' then
      let (negative, rest) := Literal.sign rest
      match spanDigits rest with
      | ([], _) => (none, s)
      | (digits, behind) =>
        let n : Int := Literal.value digits
        (some (if negative then -n else n), behind)
    else (none, s)

/-- A number, and what follows it. -/
def readNumber (s : Text) : Option (Json × Text) :=
  let (negative, unsigned) := match Text.after? ['-'] s with
    | some rest => (true, rest)
    | none => (false, s)
  match readWhole unsigned with
  | none => none
  | some (whole, rest) =>
    let (fraction, rest) := readFraction rest
    match fraction, readExponent rest with
    | [], (none, _) =>
      if whole.length ≤ Literal.digitLimit then
        let n : Int := Literal.value whole
        some (.integer (if negative then -n else n), rest)
      else none
    | fraction, (exponent, rest) =>
      some (.float (.ofDecimal negative (whole ++ fraction)
        (exponent.getD 0 - fraction.length)), rest)

/-- The words that are values. -/
def words : List (Text × Json) :=
  [("null".toText, .null), ("true".toText, .bool true), ("false".toText, .bool false),
    ("NaN".toText, .float .notANumber), ("Infinity".toText, .float (.infinity false)),
    ("-Infinity".toText, .float (.infinity true))]

/-- The first of some words that a text starts with, and what follows it. -/
def readWord (s : Text) : List (Text × Json) → Option (Json × Text)
  | [] => none
  | (word, value) :: more =>
    match Text.after? word s with
    | some rest => some (value, rest)
    | none => readWord s more

/-- What has been read, or a fault if nothing could be read. -/
def orMalformed {α : Type} : Option α → Except Fault α
  | some found => .ok found
  | none => .error .malformed

mutual

/-- A value at the front of a text, and what follows it. It stands in so many
containers. The fuel bounds the tokens. -/
def readValue : Nat → Nat → Text → Except Fault (Json × Text)
  | 0, _, _ => .error .malformed
  | _ + 1, _, [] => .error .malformed
  | fuel + 1, depth, c :: rest =>
    if c = '"' then
      orMalformed <| (readString rest).map fun (text, rest) => (.string text, rest)
    else if c = '\x7b' then
      if depth < depthLimit then
        match next? '\x7d' rest with
        | some rest => .ok (.object [], rest)
        | none =>
          (readMembers fuel (depth + 1) [] (skipSpace rest)).map
            fun (members, rest) => (.object members, rest)
      else .error (.tooDeep .object)
    else if c = '[' then
      if depth < depthLimit then
        match next? ']' rest with
        | some rest => .ok (.array [], rest)
        | none =>
          (readItems fuel (depth + 1) (skipSpace rest)).map
            fun (items, rest) => (.array items, rest)
      else .error (.tooDeep .array)
    else
      match readWord (c :: rest) words with
      | some found => .ok found
      | none => orMalformed (readNumber (c :: rest))

/-- The items of an array up to its end, and what follows it. -/
def readItems : Nat → Nat → Text → Except Fault (List Json × Text)
  | 0, _, _ => .error .malformed
  | fuel + 1, depth, s =>
    match readValue fuel depth s with
    | .error fault => .error fault
    | .ok (item, rest) =>
      match next? ']' rest with
      | some rest => .ok ([item], rest)
      | none =>
        match next? ',' rest with
        | none => .error .malformed
        | some rest =>
          (readItems fuel depth (skipSpace rest)).map fun (items, rest) => (item :: items, rest)

/-- The members of an object up to its end, behind those that have been read, and
what follows it. -/
def readMembers :
    Nat → Nat → List (Text × Json) → Text → Except Fault (List (Text × Json) × Text)
  | 0, _, _, _ => .error .malformed
  | fuel + 1, depth, read, s =>
    match ((next? '"' s).bind readString).bind fun (key, rest) =>
        (next? ':' rest).map fun rest => (key, skipSpace rest) with
    | none => .error .malformed
    | some (key, rest) =>
      match readValue fuel depth rest with
      | .error fault => .error fault
      | .ok (value, rest) =>
        match next? '\x7d' rest with
        | some rest => .ok (putMember key value read, rest)
        | none =>
          match next? ',' rest with
          | none => .error .malformed
          | some rest => readMembers fuel depth (putMember key value read) (skipSpace rest)

end

/-- The value that a text stands for. -/
def ofText (s : Text) : Except Fault Json :=
  match readValue (2 * s.length + 2) 0 (skipSpace s) with
  | .error fault => .error fault
  | .ok (value, rest) => if skipSpace rest = [] then .ok value else .error .malformed

end Multiversion.Json
