import Multiversion.Text.Utf8

/-! Names of files as text.

To a disk a name is bytes, and they need not be UTF-8. In the text of a name a byte
that belongs to no character is the half of a surrogate pair with the number 0xDC00
and the byte; other halves stand for nothing, and a text that holds one names no
file. Two texts can stand for the same bytes if some of the halves spell a character
together; `settle` gives the text that all of them have in common. -/
namespace Multiversion.FileName

/-- Half of a surrogate pair that stands for a byte. -/
def isStray (c : CodePoint) : Bool := 0xDC80 ≤ c.toNat && c.toNat ≤ 0xDCFF

/-- The half of a surrogate pair that stands for a byte. -/
def stray (b : UInt8) : CodePoint := .ofNat (0xDC00 + b.toNat)

/-- The first halves of surrogate pairs that stand for no byte. -/
def unencodable? (name : Text) : Option Utf8.Unencodable := Utf8.unencodableFrom isStray 0 name

/-- The bytes of a code point. -/
def bytesOf (c : CodePoint) : List UInt8 :=
  match c.toChar? with
  | some char => String.utf8EncodeChar char
  | none => [UInt8.ofNat c.toNat]

/-- The bytes of a name. -/
def encode (name : Text) : List UInt8 := name.flatMap bytesOf

/-- How many bytes a name has. -/
def size (name : Text) : Nat := (encode name).length

/-- The number of a character of several bytes, from the bits that each of them
holds. -/
def scalar (first : UInt8) (more : List UInt8) : Nat :=
  let bits := match more.length with
    | 0 => first.toNat
    | 1 => first.toNat % 0x20
    | 2 => first.toNat % 0x10
    | _ => first.toNat % 0x08
  more.foldl (fun n b => n * 0x40 + b.toNat % 0x40) bits

/-- The text of bytes, the first `skip` of them being the rest of a character
already read. -/
def decodeFrom (skip : Nat) : List UInt8 → Text
  | [] => []
  | b :: rest =>
    match skip with
    | skip + 1 => decodeFrom skip rest
    | 0 =>
      match Utf8.following b with
      | none => stray b :: decodeFrom 0 rest
      | some expected =>
        let good := Utf8.matching expected rest
        if good = expected.length then
          .ofNat (scalar b (rest.take good)) :: decodeFrom good rest
        else (b :: rest.take good).map stray ++ decodeFrom good rest

/-- The text of the bytes of a name. -/
def decode (bytes : List UInt8) : Text := decodeFrom 0 bytes

/-- The text that a name has when it is read back from a disk. -/
def settle (name : Text) : Text :=
  if name.any CodePoint.isHalf then decode (encode name) else name

/-! ### Lemmas -/

/-- A name without halves of surrogate pairs stays as it is. -/
theorem settle_eq_self {name : Text} (h : ∀ c ∈ name, c.isHalf = false) : settle name = name := by
  have none_half : name.any CodePoint.isHalf = false := by simpa using h
  simp [settle, none_half]

end Multiversion.FileName
