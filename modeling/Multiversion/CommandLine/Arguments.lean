import Multiversion.CommandLine.Usage
import Multiversion.Literal
import Multiversion.Text.Digit
import Multiversion.Text.Quoted

/-! The arguments of the program.

An argument is an option, a value, or the separator behind which everything is a
value. An option may be shortened to any beginning that fits no other one, and its
value is the next argument or stands behind an equals sign. A separator behind an
equals sign takes the value back. Both positional arguments are taken from the first
values that no option takes; values that come later are not recognized. -/
namespace Multiversion.CommandLine

/-- The options. -/
inductive Flag where
  | help
  | overwrites
  | config
  | define
  | keywords
  | remap
  | jobs
  | noClean
  | report
deriving DecidableEq, Repr

namespace Flag

/-- The spellings of the options, in the order in which they are declared. -/
def spellings : List (Text × Flag) :=
  [("-h".toText, help), ("--help".toText, help), ("--overwrites".toText, overwrites),
    ("--config".toText, config), ("--define".toText, define), ("--keywords".toText, keywords),
    ("--remap".toText, remap), ("--jobs".toText, jobs), ("--no-clean".toText, noClean),
    ("--report".toText, report)]

/-- An option with all its spellings. -/
def name (flag : Flag) : Text :=
  Text.join ['/'] ((spellings.filter fun s => s.2 = flag).map Prod.fst)

/-- The option is followed by a value. -/
def takesValue : Flag → Bool
  | help => false
  | noClean => false
  | _ => true

end Flag

/-- What the program was asked to do. -/
structure Arguments where
  source : Option Text
  generated : Option Text
  overwrites : Option Text
  config : Option Text
  define : Option Text
  /-- One for each time the option is given. -/
  keywords : List (Option Text)
  remap : Option Text
  /-- How many files are worked on at a time. -/
  jobs : Option Int
  noClean : Bool
  report : Option Text
deriving DecidableEq, Repr

/-- Nothing in particular. -/
def Arguments.fresh : Arguments :=
  ⟨none, none, none, none, none, [], none, some 1, false, none⟩

/-- What can be wrong with the arguments. -/
inductive Refusal where
  /-- A shortened option fits several. -/
  | ambiguous (option : Text) (spellings : List Text)
  /-- The value of an option is missing. -/
  | missingValue (flag : Flag)
  /-- An option that takes no value has one. -/
  | ignoredValue (flag : Flag) (value : Text)
  /-- The value of an option is no integer. -/
  | notInteger (flag : Flag) (value : Text)
  /-- Arguments that are neither known options nor taken as values. -/
  | unrecognized (arguments : List Text)
deriving DecidableEq, Repr

/-- The wording of a refusal. -/
def Refusal.message : Refusal → Text
  | ambiguous option spellings =>
    "ambiguous option: ".toText ++ option ++ " could match ".toText ++
      Text.join ", ".toText spellings
  | missingValue flag => about flag ++ "expected one argument".toText
  | ignoredValue flag value =>
    about flag ++ "ignored explicit argument ".toText ++ Text.quoted value
  | notInteger flag value => about flag ++ "invalid int value: ".toText ++ Text.quoted value
  | unrecognized arguments => "unrecognized arguments: ".toText ++ Text.join " ".toText arguments
where
  about (flag : Flag) : Text := "argument ".toText ++ flag.name ++ ": ".toText

/-- What the arguments come to. -/
inductive Request where
  | help
  | run (arguments : Arguments)
deriving DecidableEq, Repr

/-! ### Kinds of arguments -/

/-- What stands behind the spelling of an option in the same argument. -/
inductive Attached where
  | nothing
  /-- What follows an equals sign. -/
  | behindEquals (value : Text)
  /-- What follows an option of one letter, an equals sign left out. -/
  | behindLetter (value : Text)
deriving DecidableEq, Repr

/-- An argument by what it is. -/
inductive Token where
  | separator
  | value (text : Text)
  | option (flag : Flag) (attached : Attached)
  /-- An argument that looks like an option and is none. -/
  | unknown (text : Text)
deriving DecidableEq, Repr

/-- The argument behind which all are values. -/
def separatorText : Text := "--".toText

/-- The argument as it was given, for those that are not options. -/
def Token.text : Token → Text
  | separator => separatorText
  | value text => text
  | unknown text => text
  | option flag _ => flag.name

/-- The argument is an option or looks like one. -/
def Token.isOption : Token → Bool
  | option _ _ => true
  | unknown _ => true
  | _ => false

/-- The options that an argument which starts with a dash can stand for, with what
is attached. -/
def candidates (argument : Text) : List (Text × Flag × Attached) :=
  if separatorText.isPrefixOf argument then
    let (beginning, attached) := match Text.cut? '=' argument with
      | some (beginning, value) => (beginning, Attached.behindEquals value)
      | none => (argument, Attached.nothing)
    Flag.spellings.filterMap fun (spelling, flag) =>
      if beginning.isPrefixOf spelling then some (spelling, flag, attached) else none
  else
    Flag.spellings.filterMap fun (spelling, flag) =>
      if spelling = argument.take 2 then some (spelling, flag, .behindLetter (argument.drop 2))
      else if argument.isPrefixOf spelling then some (spelling, flag, .nothing)
      else none

/-- Digits of any script, and at least one. -/
def isDigits (s : Text) : Bool := !s.isEmpty && s.all Text.isAnyDigit

/-- A negative number, which is a value although it starts with a dash. A line feed
may end it. -/
def isNegativeNumber (argument : Text) : Bool :=
  let text := if argument.getLast? = some '\n' then argument.dropLast else argument
  match Text.after? "-".toText text with
  | none => false
  | some number =>
    match Text.cut? '.' number with
    | none => isDigits number
    | some (whole, fraction) => whole.all Text.isAnyDigit && isDigits fraction

/-- An argument in front of the separator by what it is. -/
def classify (argument : Text) : Except Refusal Token :=
  if argument.head? ≠ some '-' then .ok (.value argument)
  else
    match Flag.spellings.lookup argument with
    | some flag => .ok (.option flag .nothing)
    | none =>
      if argument.length = 1 then .ok (.value argument)
      else
        let exact := (Text.cut? '=' argument).bind fun (spelling, value) =>
          (Flag.spellings.lookup spelling).map fun flag =>
            Token.option flag
              (if spelling.length = 2 then .behindLetter value else .behindEquals value)
        match exact with
        | some token => .ok token
        | none =>
          match candidates argument with
          | [(_, flag, attached)] => .ok (.option flag attached)
          | [] =>
            if isNegativeNumber argument || argument.contains ' ' then .ok (.value argument)
            else .ok (.unknown argument)
          | several => .error (.ambiguous argument (several.map fun c => c.1))

/-- All arguments by what they are. -/
def tokenize : List Text → Except Refusal (List Token)
  | [] => .ok []
  | argument :: rest =>
    if argument = separatorText then .ok (.separator :: rest.map .value)
    else do
      let token ← classify argument
      let tokens ← tokenize rest
      pure (token :: tokens)

/-! ### Values -/

/-- Digits with single underscores between them. -/
def isGroupedDigits : Text → Bool
  | [] => false
  | [c] => Text.isAnyDigit c
  | c :: d :: rest =>
    Text.isAnyDigit c &&
      (if d = '_' then isGroupedDigits rest else isGroupedDigits (d :: rest))

/-- The white space that may stand around an integer. The separators among the
ASCII controls do not count. -/
def isIntegerSpace (c : CodePoint) : Bool :=
  if c.toNat < 0x7F then c == ' ' || (9 ≤ c.toNat && c.toNat ≤ 13) else Text.isBlankChar c

/-- The integer that a text stands for: digits of any script, with a sign in front,
single underscores between them and white space around them. -/
def integer? (s : Text) : Option Int :=
  let front := s.dropWhile isIntegerSpace
  let (negative, grouped) := Literal.sign (front.reverse.dropWhile isIntegerSpace).reverse
  let digits := grouped.filterMap Text.digitValue?
  if isGroupedDigits grouped && digits.length ≤ Literal.digitLimit then
    let n := digits.foldl (fun (n : Nat) digit => 10 * n + digit) 0
    some (if negative then -(n : Int) else n)
  else none

/-- The arguments after an option is given a value, or its value is taken back. -/
def assign (a : Arguments) (flag : Flag) (value : Option Text) : Except Refusal Arguments :=
  match flag with
  | .overwrites => .ok { a with overwrites := value }
  | .config => .ok { a with config := value }
  | .define => .ok { a with define := value }
  | .keywords => .ok { a with keywords := a.keywords ++ [value] }
  | .remap => .ok { a with remap := value }
  | .report => .ok { a with report := value }
  | .jobs =>
    match value with
    | none => .ok { a with jobs := none }
    | some text =>
      match integer? text with
      | some n => .ok { a with jobs := some n }
      | none => .error (.notInteger flag text)
  | .noClean => .ok { a with noClean := true }
  | .help => .ok a

/-- The value behind an equals sign. A separator is none. -/
def attachedValue (text : Text) : Option Text := if text = separatorText then none else some text

/-! ### Positional arguments -/

/-- The values at the front that make up one positional argument, and what follows
them: at most one value, with separators around it. -/
def takePositional (tokens : List Token) : List Text × List Token :=
  match tokens.dropWhile (· = .separator) with
  | .value text :: rest =>
    ((tokens.takeWhile (· = .separator)).map Token.text ++
        text :: (rest.takeWhile (· = .separator)).map Token.text,
      rest.dropWhile (· = .separator))
  | rest => ((tokens.takeWhile (· = .separator)).map Token.text, rest)

/-- The positional argument among its values: the first separator is left out. -/
def positional (values : List Text) : Option Text := (values.erase separatorText).head?

/-- Takes both positional arguments. -/
def takePositionals (a : Arguments) (tokens : List Token) : Arguments × List Token :=
  let (first, rest) := takePositional tokens
  let (second, rest) := takePositional rest
  ({ a with source := positional first, generated := positional second }, rest)

/-! ### The whole line -/

/-- The letters behind an option of one letter that mean nothing. All of them must
ask for help, and there must be one. -/
def ignoredLetters : Text → Option Text
  | [] => some []
  | [c] => if c = 'h' then none else some [c]
  | c :: rest => if c = 'h' then ignoredLetters rest else some (c :: rest)

/-- The text behind the option that asks for help which means nothing. -/
def ignoredByHelp : Attached → Option Text
  | .nothing => none
  | .behindEquals value => some value
  | .behindLetter value => ignoredLetters value

/-- One positional argument is taken from the front. -/
theorem length_takePositional_le (tokens : List Token) :
    (takePositional tokens).2.length ≤ tokens.length := by
  have h := (List.dropWhile_sublist (l := tokens) (· = Token.separator)).length_le
  unfold takePositional
  split
  · next text rest e =>
    have h' := (List.dropWhile_sublist (l := rest) (· = Token.separator)).length_le
    simp only [e, List.length_cons] at h
    exact Nat.le_trans h' (Nat.le_of_succ_le h)
  · exact h

/-- Both positional arguments are taken from the front. -/
theorem length_takePositionals_le (a : Arguments) (tokens : List Token) :
    (takePositionals a tokens).2.length ≤ tokens.length :=
  Nat.le_trans (length_takePositional_le _) (length_takePositional_le _)

/-- Reads the arguments from the front. The positional arguments may still be
pending, and `extra` holds what was not recognized so far. -/
def readTokens (pending : Bool) (extra : List Text) (a : Arguments) :
    List Token → Except Refusal Request
  | [] => if extra = [] then .ok (.run a) else .error (.unrecognized extra)
  | .unknown text :: rest => readTokens pending (extra ++ [text]) a rest
  | .option flag attached :: rest =>
    if flag = .help then
      match ignoredByHelp attached with
      | some value => .error (.ignoredValue flag value)
      | none => .ok .help
    else
      match attached, flag.takesValue, rest with
      | .behindEquals value, true, rest => do
        let a ← assign a flag (attachedValue value)
        readTokens pending extra a rest
      | .behindEquals value, false, _ => .error (.ignoredValue flag value)
      | _, true, .value value :: rest => do
        let a ← assign a flag (some value)
        readTokens pending extra a rest
      | _, true, _ => .error (.missingValue flag)
      | _, false, rest => do
        let a ← assign a flag none
        readTokens pending extra a rest
  | token :: rest =>
    if pending then
      readTokens false extra (takePositionals a (token :: rest)).1
        (takePositionals a (token :: rest)).2
    else readTokens pending (extra ++ [token.text]) a rest
termination_by tokens => 2 * tokens.length + pending.toNat
decreasing_by
  all_goals grind [length_takePositionals_le]

/-- What the arguments come to. -/
def read (arguments : List Text) : Except Refusal Request := do
  let tokens ← tokenize arguments
  readTokens true [] .fresh tokens

end Multiversion.CommandLine
