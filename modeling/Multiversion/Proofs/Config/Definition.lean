import Multiversion.Config
import Multiversion.Proofs.Condition.Comparison

/-! One literal, one number.

A definition on the command line and a file with that definition alone do the same to a
configuration (`parseDefines_definition`, `load_definition`): what a variable is bound to
does not depend on where its value was written. A condition reads a literal as the number
that a definition would bind (`evaluate_literal`), so a variable compares with literals as
the literal it was defined by does. -/
namespace Multiversion

namespace Text

theorem cut?_append {separator : CodePoint} {before : Text} (h : separator ∉ before)
    (behind : Text) : cut? separator (before ++ separator :: behind) = some (before, behind) := by
  induction before with
  | nil => simp [cut?]
  | cons c before ih =>
    obtain ⟨hc, hbefore⟩ := not_or.1 (List.mem_cons.not.1 h)
    rw [List.cons_append, cut?, if_neg (Ne.symm hc), ih hbefore]
    rfl

end Text

namespace Config
open Comparison (isMark Side)

/-- A name that a variable can have in every condition: no literal, nothing that would be
stripped, and nothing that definitions or conditions are taken apart at. -/
structure IsName (name : Text) : Prop where
  stripped : Text.strip name = name
  foreign : name.all Literal.isLiteralChar = false
  comma : CodePoint.ofChar ',' ∉ name
  unmarked : ∀ c ∈ name, isMark c = false
  line : CodePoint.ofChar '\n' ∉ name
  bars : ¬ "||".toText <:+: name
  ampersands : ¬ "&&".toText <:+: name

namespace IsName
variable {name : Text}

theorem nonempty (h : IsName name) : name ≠ [] := by
  rintro rfl
  cases h.foreign

/-- A name can be a side of a comparison. -/
theorem side (h : IsName name) : Side name :=
  ⟨h.nonempty, h.unmarked, h.line, h.bars, h.ampersands⟩

end IsName

/-! ### Where a definition stands -/

/-- On the command line. -/
theorem parseDefines_definition {name text : Text} (hname : IsName name)
    (hstrip : Text.strip text = text) (hcomma : CodePoint.ofChar ',' ∉ text) :
    parseDefines (name ++ CodePoint.ofChar '=' :: text) = define name (.string text) := by
  -- The text may hold an equals sign, but the first one is that of the definition.
  have hequals : CodePoint.ofChar '=' ∉ name := by
    intro hmem
    have hmark := hname.unmarked _ hmem
    contradiction
  have hone : CodePoint.ofChar ',' ∉ name ++ CodePoint.ofChar '=' :: text := by
    simp only [List.mem_append, List.mem_cons, not_or]
    exact ⟨hname.comma, by decide, hcomma⟩
  have htrimmed : Text.strip (name ++ CodePoint.ofChar '=' :: text) =
      name ++ CodePoint.ofChar '=' :: text :=
    Text.strip_append_cons hname.stripped hname.nonempty (by decide) hstrip
  have hdefine : parseDefine (name ++ CodePoint.ofChar '=' :: text) =
      define name (.string text) := by
    rw [parseDefine]
    simp only [htrimmed, Text.cut?_append hequals, hname.stripped, hstrip]
    rw [if_neg (by simp)]
  calc parseDefines (name ++ CodePoint.ofChar '=' :: text)
    _ = [name ++ CodePoint.ofChar '=' :: text].forM parseDefine := by
      rw [parseDefines, Text.splitOn_of_notMem hone]
    _ = define name (.string text) := by
      rw [List.forM, hdefine]
      exact bind_pure_unit

/-- In a file that says nothing else. -/
theorem load_definition {d : Disk} {path : Text} {content : ByteArray} {source name : Text}
    {value : Json} (hread : d.read path = .ok content) (hdecode : Utf8.decode content = .ok source)
    (hjson : Json.ofText source = .ok (.object [("vars".toText, .object [(name, value)])])) :
    load d path = define name value := by
  have hobject : readObject d path = .ok [("vars".toText, .object [(name, value)])] := by
    simp only [readObject, hread, hdecode, hjson]
  calc load d path
    _ = (define name value >>= fun _ => pure ()) >>= fun _ => pure () := by
      rw [load, hobject]
      rfl
    _ = define name value := by rw [bind_pure_unit, bind_pure_unit]

/-! ### What a definition and a condition make of a literal -/

theorem define_of_read {name text : Text} {n : Int} (h : Literal.read text = .ok (some n))
    (c : Config) : define name (.string text) c =
      .ok () { c with environment := c.environment.insert name n } := by
  have hvalue : parseValue name (.string text) = .ok n := by
    simp only [parseValue, Json.asText, h]
  rw [define, hvalue]
  rfl

theorem define_of_read_none {name text : Text} (h : Literal.read text = .ok none) (c : Config) :
    define name (.string text) c = .error (.problem (.notLiteral name (.string text))) c := by
  have hvalue : parseValue name (.string text) =
      .error (.problem (.notLiteral name (.string text))) := by
    simp only [parseValue, Json.asText, h]
  rw [define, hvalue]
  rfl

theorem read_of_parseValue {name text : Text} {n : Int}
    (h : parseValue name (.string text) = .ok n) : Literal.read text = .ok (some n) := by
  simp only [parseValue, Json.asText] at h
  cases hread : Literal.read text with
  | error o => simp [hread] at h
  | ok value => cases value <;> simp_all

/-- A condition reads a literal as the number that a definition binds. -/
theorem evaluate_literal {name : Text} (hname : IsName name) {env : Environment} {n : Int}
    (hbound : env.get? name = some n) (henv : ∀ key ∈ env.keys, ∀ c ∈ key, isMark c = false)
    {literal : Text} {m : Int} (hliteral : Literal.read literal = .ok (some m))
    (operator : Comparison) :
    Condition.evaluate env
        (name ++ " ".toText ++ operator.symbol ++ " ".toText ++ literal) =
      .ok (operator.holds n m) := by
  -- The operator in it keeps the whole condition from being a name.
  obtain ⟨mark, hmem, hmark⟩ := Comparison.exists_mark_mem_symbol operator
  have hwhole : env.get? (name ++ " ".toText ++ operator.symbol ++ " ".toText ++ literal) = none :=
    Condition.get?_of_mark (by simp [hmem]) hmark henv
  obtain ⟨hne, hchars⟩ := Literal.literalChars_of_read hliteral
  rw [Condition.evaluate_spaced hname.side (Side.of_literalChars hne hchars) hname.stripped
    (Literal.strip_of_read hliteral) operator hwhole,
    Condition.valueOf_of_bound hname.foreign hbound, Condition.valueOf_of_read hliteral]
  rfl

/-- A literal stands for one number wherever it is written. A definition on the command line
and a file with that definition alone are refused alike or bind the name to the same number,
and in a condition the name then compares with every literal as that number does. -/
theorem parseDefines_and_load {name text : Text} (hname : IsName name)
    (hstrip : Text.strip text = text) (hcomma : CodePoint.ofChar ',' ∉ text)
    (hlimit : Literal.WithinLimit text) {d : Disk} {path : Text} {content : ByteArray}
    {source : Text} (hread : d.read path = .ok content)
    (hdecode : Utf8.decode content = .ok source)
    (hjson : Json.ofText source =
      .ok (.object [("vars".toText, .object [(name, .string text)])])) (c c' : Config) :
    (∃ p, parseDefines (name ++ CodePoint.ofChar '=' :: text) c = .error (.problem p) c ∧
      load d path c' = .error (.problem p) c') ∨
    ∃ n,
      parseDefines (name ++ CodePoint.ofChar '=' :: text) c =
        .ok () { c with environment := c.environment.insert name n } ∧
      load d path c' = .ok () { c' with environment := c'.environment.insert name n } ∧
      ∀ env : Environment, env.get? name = some n →
        (∀ key ∈ env.keys, ∀ char ∈ key, isMark char = false) →
        (∀ (literal : Text) (m : Int), parseValue name (.string literal) = .ok m →
          ∀ operator : Comparison,
            Condition.evaluate env
                (name ++ " ".toText ++ operator.symbol ++ " ".toText ++ literal) =
              .ok (operator.holds n m)) ∧
        Condition.evaluate env
            (name ++ " ".toText ++ Comparison.equal.symbol ++ " ".toText ++ text) = .ok true := by
  -- Both ways in are one action, so what the text reads as decides for both.
  rw [parseDefines_definition hname hstrip hcomma, load_definition hread hdecode hjson]
  cases hvalue : Literal.read text with
  | error o => exact absurd hvalue (Literal.read_ne_error hlimit o)
  | ok value =>
    cases value with
    | none =>
      exact .inl ⟨_, define_of_read_none hvalue c, define_of_read_none hvalue c'⟩
    | some n =>
      refine .inr ⟨n, define_of_read hvalue c, define_of_read hvalue c', ?_⟩
      intro env hbound henv
      refine ⟨fun literal m hliteral operator => ?_, ?_⟩
      · exact evaluate_literal hname hbound henv (read_of_parseValue hliteral) operator
      · rw [evaluate_literal hname hbound henv hvalue, Comparison.holds]
        simp

/-- A file that defines one version. -/
def versionSource : Text := "\x7b\"vars\": \x7b\"MC\": \"1.16.5\"\x7d\x7d".toText

/-- A disk with that file. -/
def versionDisk : Disk :=
  ⟨[("c.json".toText,
    .file (String.ofList (versionSource.filterMap CodePoint.toChar?)).toUTF8)], []⟩

/-- `1.16.5` is one number on both ways in, and it is below `1.16.10`. -/
theorem parseDefines_and_load_version : ∃ n,
    parseDefines "MC=1.16.5".toText fresh =
      .ok () { fresh with environment := fresh.environment.insert "MC".toText n } ∧
    load versionDisk "c.json".toText fresh =
      .ok () { fresh with environment := fresh.environment.insert "MC".toText n } ∧
    Condition.evaluate (fresh.environment.insert "MC".toText n) "MC == 1.16.5".toText = .ok true ∧
    Condition.evaluate (fresh.environment.insert "MC".toText n) "MC < 1.16.10".toText =
      .ok (decide (n < 11610)) := by
  have hname : IsName "MC".toText :=
    ⟨by decide, by decide, by decide, by decide, by decide, by decide, by decide⟩
  have hdecode : Utf8.decode (String.ofList (versionSource.filterMap CodePoint.toChar?)).toUTF8 =
      .ok versionSource := by
    refine Utf8.decode_of_encode ?_
    rw [Utf8.encode, show Utf8.unencodableFrom (fun _ => false) 0 versionSource = none by decide]
  have hjson : Json.ofText versionSource = .ok (.object
      [("vars".toText, .object [("MC".toText, .string "1.16.5".toText)])]) := by
    cbv
  have hvalue : Literal.read "1.16.5".toText = .ok (some 11605) := rfl
  have hread : versionDisk.read "c.json".toText =
      .ok (String.ofList (versionSource.filterMap CodePoint.toChar?)).toUTF8 := rfl
  obtain ⟨p, hrefused, -⟩ | ⟨n, hparse, hload, hreads⟩ :=
    parseDefines_and_load hname (by decide) (by decide) (fun _ => by decide) hread hdecode hjson
      fresh fresh
  · rw [parseDefines_definition hname (by decide) (by decide), define_of_read hvalue] at hrefused
    injection hrefused
  · obtain ⟨hliterals, hsame⟩ := hreads (fresh.environment.insert "MC".toText n)
      (by rw [Dictionary.get?_insert, if_pos rfl])
      (by
        rw [Dictionary.keys_insert]
        intro key hkey
        obtain rfl := List.mem_singleton.1 hkey
        exact hname.unmarked)
    exact ⟨n, hparse, hload, hsame, hliterals "1.16.10".toText 11610 rfl .below⟩

end Config
end Multiversion
