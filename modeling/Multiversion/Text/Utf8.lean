import Multiversion.Literal
import Multiversion.Text.Quoted

/-! Text as bytes.

`decode` reads UTF-8 and reports the first fault of bytes that are not UTF-8: the
first byte that can start no character, or the bytes of a character that breaks
off. A fault spans the bytes that were good so far, so that the report names one
byte or a range. `encode` writes UTF-8, in which halves of surrogate pairs have no
bytes. What is written reads back as it was (`decode_of_encode`). -/
namespace Multiversion.Utf8

/-- Why bytes are not UTF-8. -/
inductive Reason where
  | startByte
  | continuationByte
  | endOfData
deriving DecidableEq, Repr

/-- The first bytes that are not UTF-8: where they start, what they are, and why. -/
structure Fault where
  position : Nat
  bytes : List UInt8
  reason : Reason
deriving DecidableEq, Repr

/-- The ranges of the bytes that must follow a first byte: none after ASCII, and
nothing at all for a byte that starts no character. Overlong forms, surrogates and
numbers above the last code point are shut out by the second byte. -/
def following (first : UInt8) : Option (List (UInt8 × UInt8)) :=
  let any := (0x80, 0xBF)
  if first < 0x80 then some []
  else if first < 0xC2 then none
  else if first < 0xE0 then some [any]
  else if first = 0xE0 then some [(0xA0, 0xBF), any]
  else if first = 0xED then some [(0x80, 0x9F), any]
  else if first < 0xF0 then some [any, any]
  else if first = 0xF0 then some [(0x90, 0xBF), any, any]
  else if first < 0xF4 then some [any, any, any]
  else if first = 0xF4 then some [(0x80, 0x8F), any, any]
  else none

/-- How many of the bytes are in the ranges expected of them, from the front. -/
def matching : List (UInt8 × UInt8) → List UInt8 → Nat
  | (low, high) :: expected, b :: rest =>
    if low ≤ b ∧ b ≤ high then matching expected rest + 1 else 0
  | _, _ => 0

/-- The first fault of the bytes from a position on, the first `skip` of them being
the rest of a character already read. -/
def faultFrom (position skip : Nat) : List UInt8 → Option Fault
  | [] => none
  | b :: rest =>
    match skip with
    | skip + 1 => faultFrom (position + 1) skip rest
    | 0 =>
      match following b with
      | none => some ⟨position, [b], .startByte⟩
      | some expected =>
        let good := matching expected rest
        if good = expected.length then faultFrom (position + 1) good rest
        else some ⟨position, b :: rest.take good,
          if good = rest.length then .endOfData else .continuationByte⟩

/-- The first fault of the bytes. -/
def fault (bytes : ByteArray) : Fault :=
  (faultFrom 0 0 bytes.toList).getD ⟨0, [], .endOfData⟩

/-- The text that the bytes stand for. -/
def decode (bytes : ByteArray) : Except Fault Text :=
  match String.fromUTF8? bytes with
  | some s => .ok s.toText
  | none => .error (fault bytes)

/-- The first code points of a text that have no bytes: where they start, the first
of them, and how many there are. -/
structure Unencodable where
  position : Nat
  first : CodePoint
  count : Nat
deriving DecidableEq, Repr

/-- The first halves of surrogate pairs in a text, from a position on. They are
reported together with the halves right behind them. Some halves may be allowed. -/
def unencodableFrom (allowed : CodePoint → Bool) (position : Nat) : Text → Option Unencodable
  | [] => none
  | c :: rest =>
    if c.isHalf && !allowed c then
      some ⟨position, c, (rest.takeWhile CodePoint.isHalf).length + 1⟩
    else unencodableFrom allowed (position + 1) rest

/-- The bytes of a text. Halves of surrogate pairs have none. -/
def encode (s : Text) : Except Unencodable ByteArray :=
  match unencodableFrom (fun _ => false) 0 s with
  | some halves => .error halves
  | none => .ok (String.ofList (s.filterMap CodePoint.toChar?)).toUTF8

/-! ### Wording -/

/-- The wording of a fault. -/
def Fault.message (f : Fault) : Text :=
  let why := match f.reason with
    | .startByte => "invalid start byte".toText
    | .continuationByte => "invalid continuation byte".toText
    | .endOfData => "unexpected end of data".toText
  let place := match f.bytes with
    | [b] => "byte 0x".toText ++ Text.hex 2 b.toNat ++ " in position ".toText ++
        Literal.ofNat f.position
    | bytes => "bytes in position ".toText ++ Literal.ofNat f.position ++
        "-".toText ++ Literal.ofNat (f.position + bytes.length - 1)
  "'utf-8' codec can't decode ".toText ++ place ++ ": ".toText ++ why

/-- What is told about code points that have no bytes. -/
def Unencodable.message (u : Unencodable) : Text :=
  let place :=
    if u.count = 1 then
      "character '".toText ++ Text.escapeNumber u.first ++ "' in position ".toText ++
        Literal.ofNat u.position
    else "characters in position ".toText ++ Literal.ofNat u.position ++
      "-".toText ++ Literal.ofNat (u.position + u.count - 1)
  "'utf-8' codec can't encode ".toText ++ place ++ ": surrogates not allowed".toText

/-! ### Lemmas -/

/-- All of a text has bytes only if no half of a surrogate pair is in it. -/
theorem unencodableFrom_eq_none_iff (allowed : CodePoint → Bool) (position : Nat) (s : Text) :
    unencodableFrom allowed position s = none ↔ ∀ c ∈ s, c.isHalf = true → allowed c = true := by
  induction s generalizing position with
  | nil => simp [unencodableFrom]
  | cons c rest ih =>
    by_cases h : (c.isHalf && !allowed c) = true
    · simp only [unencodableFrom, h, if_true, reduceCtorEq, false_iff]
      simp only [Bool.and_eq_true, Bool.not_eq_true'] at h
      intro all
      simpa [h.2] using all c (by simp) h.1
    · have step : unencodableFrom allowed position (c :: rest) =
          unencodableFrom allowed (position + 1) rest := if_neg h
      rw [step, ih, List.forall_mem_cons]
      simp only [Bool.and_eq_true, Bool.not_eq_true', not_and, Bool.not_eq_false] at h
      exact (and_iff_right h).symm

/-- The characters of a text without halves of surrogate pairs are the text. -/
theorem map_ofChar_filterMap_toChar? {s : Text} (h : ∀ c ∈ s, c.isHalf = false) :
    (s.filterMap CodePoint.toChar?).map CodePoint.ofChar = s := by
  induction s with
  | nil => rfl
  | cons c rest ih =>
    have first := h c (by simp)
    cases hc : c.toChar? with
    | none => rw [CodePoint.toChar?_eq_none_iff, first] at hc; contradiction
    | some char =>
      simp only [List.filterMap_cons, hc, List.map_cons, CodePoint.ofChar_of_toChar? hc]
      rw [ih fun c hm => h c (List.mem_cons_of_mem _ hm)]

/-- What is written can be read back. -/
theorem decode_of_encode {s : Text} {bytes : ByteArray} (h : encode s = .ok bytes) :
    decode bytes = .ok s := by
  unfold encode at h
  split at h
  · contradiction
  · next whole =>
    cases h
    rw [unencodableFrom_eq_none_iff] at whole
    have back := map_ofChar_filterMap_toChar? fun c hm => by simpa using whole c hm
    generalize s.filterMap CodePoint.toChar? = chars at back ⊢
    have valid : (String.ofList chars).toUTF8.IsValidUTF8 := (String.ofList chars).isValidUTF8
    have same : String.fromUTF8 (String.ofList chars).toUTF8 valid = String.ofList chars := rfl
    simp only [decode, String.fromUTF8?, valid, dite_true, same, String.toText,
      String.toList_ofList, back]

end Multiversion.Utf8
