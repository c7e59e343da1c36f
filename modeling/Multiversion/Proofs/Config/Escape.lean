import Multiversion.Config
import Multiversion.Proofs.Action
import Multiversion.Proofs.Literal.Normal

/-! What is wrong with a configuration is reported as a problem.

Options and files can be wrong in many ways, and each of them is a `Problem` with its own
wording, whatever value stands in whatever place. Three causes are not: a literal with more
digits than may be read, overwrites that are no path, and a file whose values stand too deep
in each other. `DefinitionEscape` and `LoadEscape` say where they stand, and
`filling_ends` that nothing else comes out of filling a configuration. An assignment of a
keyword set has no such cause at all.

An error says what it is about: `Raises` follows it through the steps of an action. -/
namespace Multiversion.Config

/-! ### Errors of an action -/

/-- Whatever stops an action is such an error. -/
def Raises (escapes : Error → Prop) (x : Action Unit) : Prop :=
  ∀ c e c', x c = .error e c' → escapes e

section Raises
variable {escapes : Error → Prop}

theorem raises_throw {e : Error} (h : escapes e) : Raises escapes (throw e) := by
  intro c e' c' hx
  cases hx
  exact h

theorem raises_modify (f : Config → Config) : Raises escapes (modify f) := by
  intro c e c' hx
  cases hx

theorem Raises.bind {x y : Action Unit} (hx : Raises escapes x) (hy : Raises escapes y) :
    Raises escapes (x >>= fun _ => y) := by
  intro c e c' h
  simp only [Bind.bind, EStateM.bind] at h
  split at h
  · exact hy _ e c' h
  · next he =>
    cases h
    exact hx c e _ he

theorem Raises.forM {α : Type} {f : α → Action Unit} {items : List α}
    (h : ∀ item ∈ items, Raises escapes (f item)) : Raises escapes (items.forM f) := by
  induction items with
  | nil =>
    intro c e c' hx
    cases hx
  | cons item rest ih =>
    have hrest := ih fun item hmem => h item (List.mem_cons_of_mem _ hmem)
    intro c e c' hx
    rw [forM_cons_eq] at hx
    split at hx
    · exact hrest _ e c' hx
    · next he =>
      cases hx
      exact h item List.mem_cons_self c e _ he

end Raises

/-! ### Values -/

/-- What stands for nothing, an array or an object in messages is no literal. -/
theorem asText_foreign {value : Json} (hbool : ∀ b, value ≠ .bool b)
    (hinteger : ∀ n, value ≠ .integer n) (hfloat : ∀ x, value ≠ .float x)
    (htext : ∀ text, value ≠ .string text) :
    value.asText.all Literal.isLiteralChar = false := by
  cases value with
  | null => decide
  | bool b => exact absurd rfl (hbool b)
  | integer n => exact absurd rfl (hinteger n)
  | float x => exact absurd rfl (hfloat x)
  | string text => exact absurd rfl (htext text)
  | array items =>
    rw [show (Json.array items).asText = "[".toText ++ (Text.join ", ".toText
      (Json.displayItems items) ++ "]".toText) by simp [Json.asText, Json.display]]
    rfl
  | object members =>
    rw [show (Json.object members).asText = "\x7b".toText ++ (Text.join ", ".toText
      (Json.displayMembers members) ++ "\x7d".toText) by simp [Json.asText, Json.display]]
    rfl

/-- Only a text stands for a literal that is too long: numbers are not read again, and what
else is shown holds other characters than literals. -/
theorem parseValue_error {name : Text} {value : Json} {e : Error}
    (h : parseValue name value = .error e) :
    (∃ p, e = .problem p) ∨
      ∃ text o, value = .string text ∧ Literal.read text = .error o ∧ e = .overlong o := by
  by_cases htext : ∃ text, value = .string text
  · obtain ⟨text, rfl⟩ := htext
    simp only [parseValue, Json.asText] at h
    rcases hread : Literal.read text with o | _ | n
    · rw [hread] at h
      cases h
      exact .inr ⟨text, o, rfl, hread, rfl⟩
    · rw [hread] at h
      cases h
      exact .inl ⟨_, rfl⟩
    · rw [hread] at h
      cases h
  · simp only [parseValue] at h
    split at h
    · cases h
    · cases h
    · cases h
      exact .inl ⟨_, rfl⟩
    · next hbool hinteger hfloat =>
      rw [Literal.read_of_foreign (asText_foreign hbool hinteger hfloat fun text h =>
        htext ⟨text, h⟩)] at h
      cases h
      exact .inl ⟨_, rfl⟩

theorem raises_define {escapes : Error → Prop} {name : Text} {value : Json}
    (hproblem : ∀ p, escapes (.problem p))
    (hoverlong : ∀ text o, value = .string text → Literal.read text = .error o →
      escapes (.overlong o)) : Raises escapes (define name value) := by
  rw [define]
  cases h : parseValue name value with
  | ok n => exact raises_modify _
  | error e =>
    apply raises_throw
    rcases parseValue_error h with ⟨p, rfl⟩ | ⟨text, o, hvalue, hread, rfl⟩
    · exact hproblem p
    · exact hoverlong text o hvalue hread

/-- A keyword set that cannot be had is a problem, whatever stands in its place. -/
theorem parseProfile_error {value : Json} {e : Error} (h : parseProfile value = .error e) :
    ∃ p, e = .problem p := by
  cases value with
  | string name =>
    rw [parseProfile] at h
    split at h
    · cases h
    · cases h
      exact ⟨_, rfl⟩
  | object members =>
    rw [parseProfile] at h
    split at h
    · cases h
    · cases h
      exact ⟨_, rfl⟩
  | _ =>
    cases h
    exact ⟨_, rfl⟩

theorem raises_assign {escapes : Error → Prop} (hproblem : ∀ p, escapes (.problem p))
    (suffix : Text) (value : Json) : Raises escapes (assign suffix value) := by
  rw [assign]
  cases h : parseProfile value with
  | ok k => exact raises_modify _
  | error e =>
    obtain ⟨p, rfl⟩ := parseProfile_error h
    exact raises_throw (hproblem p)

/-! ### Options -/

/-- What escapes from definitions: one of them gives a name a literal with more digits than
may be read. -/
inductive DefinitionEscape (definitions : Text) : Error → Prop
  | overlong {definition name value : Text} {o : Overlong} :
      definition ∈ Text.splitOn ',' definitions →
      Text.cut? '=' (Text.strip definition) = some (name, value) →
      Literal.read (Text.strip value) = .error o → Literal.digitLimit < o.digits →
      DefinitionEscape definitions (.overlong o)

theorem raises_parseDefines (definitions : Text) :
    Raises (fun e => (∃ p, e = .problem p) ∨ DefinitionEscape definitions e)
      (parseDefines definitions) := by
  refine .forM fun definition hmem => ?_
  simp only [parseDefine]
  split
  · intro c e c' h
    cases h
  · split
    · next name value hcut =>
      refine raises_define (fun p => .inl ⟨p, rfl⟩) fun text o htext hread => .inr ?_
      cases htext
      exact .overlong hmem hcut hread (Literal.digitLimit_lt_of_read hread)
    · refine raises_define (fun p => .inl ⟨p, rfl⟩) fun text o htext => ?_
      cases htext

theorem raises_parseKeywords (option : Option Text) :
    Raises (fun e => ∃ p, e = .problem p) (parseKeywords option) := by
  rw [parseKeywords]
  split
  · exact raises_throw ⟨_, rfl⟩
  · exact raises_assign (fun p => ⟨p, rfl⟩) _ _

/-! ### Files -/

theorem objectSection_error {name : Section} {path : Text} {data : List (Text × Json)} {e : Error}
    (h : objectSection name path data = .error e) : ∃ p, e = .problem p := by
  rw [objectSection] at h
  split at h
  · cases h
  · cases h
  · cases h
    exact ⟨_, rfl⟩

theorem member?_of_objectSection {name : Section} {path : Text} {data members : List (Text × Json)}
    (h : objectSection name path data = .ok members) :
    members = [] ∨ Json.member? name.key data = some (.object members) := by
  rw [objectSection] at h
  split at h
  · cases h
    exact .inl rfl
  · next hmember =>
    cases h
    exact .inr hmember
  · cases h

theorem listSection_error {name : Section} {path : Text} {data : List (Text × Json)} {e : Error}
    (h : listSection name path data = .error e) : ∃ p, e = .problem p := by
  rw [listSection] at h
  split at h
  · cases h
  · cases h
  · cases h
    exact ⟨_, rfl⟩

theorem member?_of_listSection {name : Section} {path : Text} {data : List (Text × Json)}
    {items : List Json} (h : listSection name path data = .ok items) :
    items = [] ∨ Json.member? name.key data = some (.array items) := by
  rw [listSection] at h
  split at h
  · cases h
    exact .inl rfl
  · next hmember =>
    cases h
    exact .inr hmember
  · cases h

/-- An entry whose overwrites are neither missing nor empty nor a text. -/
structure BadOverwrites (entry value : Json) : Prop where
  stands : ∃ members source generated, entry = .object members ∧
    Json.member? "source".toText members = some (.string source) ∧
    Json.member? "generated".toText members = some (.string generated) ∧
    Json.member? "overwrites".toText members = some value
  truthy : value.isFalsy = false
  notText : ∀ text, value ≠ .string text

theorem parseEntry_error {path directory : Text} {entry : Json} {e : Error}
    (h : parseEntry path directory entry = .error e) :
    (∃ p, e = .problem p) ∨ ∃ value, BadOverwrites entry value ∧ e = .notPath value := by
  cases entry with
  | object members =>
    simp only [parseEntry] at h
    split at h
    · next source generated hsource hgenerated =>
      split at h
      · cases h
      · cases h
      · next hempty htext =>
        split at h
        · cases h
        · next hfalsy =>
          cases h
          refine .inr ⟨_, ⟨⟨members, source, generated, rfl, hsource, hgenerated, ?_⟩,
            Bool.of_not_eq_true hfalsy, htext⟩, rfl⟩
          cases hmember : Json.member? "overwrites".toText members with
          | some value => rfl
          | none =>
            rw [hmember] at hfalsy
            exact absurd rfl hfalsy
    · cases h
      exact .inl ⟨_, rfl⟩
  | _ =>
    cases h
    exact .inl ⟨_, rfl⟩

example : parseEntry "c.json".toText "/".toText (.object [("source".toText, .string "s".toText),
    ("generated".toText, .string "g".toText), ("overwrites".toText, .integer 5)]) =
      .error (.notPath (.integer 5)) := rfl

/-- What escapes from a file: its values stand too deep in each other, or a variable is given
a literal with more digits than may be read, or the overwrites of an entry are no path. -/
inductive LoadEscape (d : Disk) (path : Text) : Error → Prop
  | tooDeep {content : ByteArray} {text : Text} {container : Json.Container} :
      d.read path = .ok content → Utf8.decode content = .ok text →
      Json.ofText text = .error (.tooDeep container) → LoadEscape d path (.tooDeep container)
  | overlong {data vars : List (Text × Json)} {name text : Text} {o : Overlong} :
      readObject d path = .ok data →
      Json.member? Section.vars.key data = some (.object vars) → (name, .string text) ∈ vars →
      Literal.read text = .error o → Literal.digitLimit < o.digits →
      LoadEscape d path (.overlong o)
  | notPath {data : List (Text × Json)} {entries : List Json} {entry value : Json} :
      readObject d path = .ok data →
      Json.member? Section.entries.key data = some (.array entries) → entry ∈ entries →
      BadOverwrites entry value → LoadEscape d path (.notPath value)

theorem readObject_error {d : Disk} {path : Text} {e : Error}
    (h : readObject d path = .error e) : (∃ p, e = .problem p) ∨ LoadEscape d path e := by
  simp only [readObject] at h
  split at h
  · cases h
    exact .inl ⟨_, rfl⟩
  · next hread =>
    split at h
    · cases h
      exact .inl ⟨_, rfl⟩
    · next hdecode =>
      split at h
      · cases h
        exact .inl ⟨_, rfl⟩
      · next hjson =>
        cases h
        exact .inr (.tooDeep hread hdecode hjson)
      · cases h
      · cases h
        exact .inl ⟨_, rfl⟩

theorem raises_merge {d : Disk} {path : Text} {data : List (Text × Json)}
    (hdata : readObject d path = .ok data) (directory : Text) :
    Raises (fun e => (∃ p, e = .problem p) ∨ LoadEscape d path e) (merge path directory data) := by
  rw [merge]
  split
  · next vars keywords entries hvars hkeywords hentries =>
    apply Raises.bind
    · refine .forM fun p hmem => ?_
      refine raises_define (fun p => .inl ⟨p, rfl⟩) fun text o htext hread => .inr ?_
      rcases member?_of_objectSection hvars with rfl | hmember
      · cases hmem
      · obtain ⟨name, value⟩ := p
        cases htext
        exact .overlong hdata hmember hmem hread (Literal.digitLimit_lt_of_read hread)
    apply Raises.bind
    · exact .forM fun p _ => raises_assign (fun p => .inl ⟨p, rfl⟩) p.1 p.2
    · refine .forM fun entry hmem => ?_
      split
      · next e he =>
        apply raises_throw
        rcases parseEntry_error he with hproblem | ⟨value, hbad, rfl⟩
        · exact .inl hproblem
        · rcases member?_of_listSection hentries with rfl | hmember
          · cases hmem
          · exact .inr (.notPath hdata hmember hmem hbad)
      · exact raises_modify _
  · next e _ _ he => exact raises_throw (.inl (objectSection_error he))
  · next e _ _ he _ => exact raises_throw (.inl (objectSection_error he))
  · next e _ he _ _ => exact raises_throw (.inl (listSection_error he))

theorem raises_load (d : Disk) (path : Text) :
    Raises (fun e => (∃ p, e = .problem p) ∨ LoadEscape d path e) (load d path) := by
  rw [load]
  split
  · next e he => exact raises_throw (readObject_error he)
  · next data hdata => exact raises_merge hdata _

/-! ### How filling ends -/

/-- An action ended, or reported a problem, or was stopped by such an error. -/
inductive Ended (escapes : Error → Prop) : EStateM.Result Error Config Unit → Prop
  | returned {c : Config} : Ended escapes (.ok () c)
  | reported {p : Problem} {c : Config} : Ended escapes (.error (.problem p) c)
  | escaped {e : Error} {c : Config} : escapes e → Ended escapes (.error e c)

theorem Raises.ended {escapes : Error → Prop} {x : Action Unit}
    (h : Raises (fun e => (∃ p, e = .problem p) ∨ escapes e) x) (c : Config) :
    Ended escapes (x c) := by
  cases hx : x c with
  | ok _ c' => exact .returned
  | error e c' =>
    rcases h c e c' hx with ⟨p, rfl⟩ | he
    · exact .reported
    · exact .escaped he

/-- **What is wrong with a configuration is a problem, three causes aside.** Filling a
configuration from definitions, from an assignment or from a file ends or reports a problem,
unless a definition or a variable of the file has a literal with more digits than may be
read, the overwrites of an entry are a value that is neither empty nor a text, or the values
of the file stand too deep in each other. -/
theorem filling_ends (c : Config) :
    (∀ definitions, Ended (DefinitionEscape definitions) (parseDefines definitions c)) ∧
      (∀ option, Ended (fun _ => False) (parseKeywords option c)) ∧
      ∀ d path, Ended (LoadEscape d path) (load d path c) := by
  refine ⟨fun definitions => ?_, fun option => ?_, fun d path => ?_⟩
  · exact (raises_parseDefines definitions).ended c
  · have h : Raises (fun e => (∃ p, e = .problem p) ∨ False) (parseKeywords option) := by
      simpa only [or_false] using raises_parseKeywords option
    exact h.ended c
  · exact (raises_load d path).ended c

end Multiversion.Config
