import Mathlib.Data.List.Forall2
import Mathlib.Tactic.SplitIfs
import Multiversion.Text.FileName

/-! What becomes of the text of a name on a disk.

Bytes of ASCII stand for themselves and for nothing else, so reading starts anew
behind each of them (`decode_append_cons`), and what is above ASCII is read as
something above ASCII (`decode_cons_cases`). With the bytes of a character read back
as that character (`decode_bytesOf`) it follows that settling is writing and reading
back for every text (`settle_eq`), that it goes name by name (`settle_join`), and
that it makes neither a slash nor a name of dots out of anything else
(`slash_notMem_settle`, `eq_of_settle_eq`). -/
namespace Multiversion.FileName
open Utf8 (following matching)

/-! ### Bytes of one character -/

/-- A byte is in a range. -/
def Within (range : UInt8 × UInt8) (b : UInt8) : Prop :=
  range.1.toNat ≤ b.toNat ∧ b.toNat ≤ range.2.toNat

variable {b : UInt8}

theorem following_of_one (h : b.toNat < 0x80) : following b = some [] := by
  simp [following, UInt8.lt_iff_toNat_lt, h]

theorem following_of_two (h : 0xC2 ≤ b.toNat) (h' : b.toNat < 0xE0) :
    following b = some [(0x80, 0xBF)] := by
  simp only [following, UInt8.lt_iff_toNat_lt, UInt8.toNat_ofNat]
  rw [if_neg (by omega), if_neg (by omega), if_pos (by omega)]

theorem following_of_three (h : 0xE0 ≤ b.toNat) (h' : b.toNat < 0xF0) :
    following b = some [(if b.toNat = 0xE0 then 0xA0 else 0x80,
      if b.toNat = 0xED then 0x9F else 0xBF), (0x80, 0xBF)] := by
  simp only [following, UInt8.lt_iff_toNat_lt, ← UInt8.toNat_inj, UInt8.toNat_ofNat]
  rw [if_neg (by omega), if_neg (by omega), if_neg (by omega)]
  split
  · simp [*]
  · split <;> simp_all

theorem following_of_four (h : 0xF0 ≤ b.toNat) (h' : b.toNat < 0xF5) :
    following b = some [(if b.toNat = 0xF0 then 0x90 else 0x80,
      if b.toNat = 0xF4 then 0x8F else 0xBF), (0x80, 0xBF), (0x80, 0xBF)] := by
  simp only [following, UInt8.lt_iff_toNat_lt, ← UInt8.toNat_inj, UInt8.toNat_ofNat]
  rw [if_neg (by omega), if_neg (by omega), if_neg (by omega), if_neg (by omega),
    if_neg (by omega), if_neg (by omega)]
  split
  · simp [*]
  · split
    · have : b.toNat ≠ 0xF4 := by omega
      simp [*]
    · have : b.toNat = 0xF4 := by omega
      simp [*]

theorem following_of_none (h : 0x80 ≤ b.toNat ∧ b.toNat < 0xC2 ∨ 0xF5 ≤ b.toNat) :
    following b = none := by
  simp only [following, UInt8.lt_iff_toNat_lt, ← UInt8.toNat_inj, UInt8.toNat_ofNat]
  rcases h with h | h
  · rw [if_neg (by omega), if_pos (by omega)]
  · rw [if_neg (by omega), if_neg (by omega), if_neg (by omega), if_neg (by omega),
      if_neg (by omega), if_neg (by omega), if_neg (by omega), if_neg (by omega), if_neg (by omega)]


theorem within_of_matching {expected : List (UInt8 × UInt8)} {bytes : List UInt8}
    (h : matching expected bytes = expected.length) :
    List.Forall₂ Within expected (bytes.take expected.length) := by
  induction expected generalizing bytes with
  | nil => simp
  | cons range expected ih =>
    cases bytes with
    | nil => simp [matching] at h
    | cons b bytes =>
      simp only [matching, List.length_cons] at h
      split at h
      · next hb => simpa [Within, ← UInt8.le_iff_toNat_le, hb] using ih (by omega)
      · omega

theorem matching_append_of_within {expected : List (UInt8 × UInt8)} {more : List UInt8}
    (h : List.Forall₂ Within expected more) (rest : List UInt8) :
    matching expected (more ++ rest) = expected.length := by
  induction h with
  | nil => simp [matching]
  | cons hb _ ih => simpa [matching, UInt8.le_iff_toNat_le, Within, ih] using hb

theorem le_of_within {expected : List (UInt8 × UInt8)} {more : List UInt8} {n : Nat}
    (h : List.Forall₂ Within expected more) (low : ∀ r ∈ expected, n ≤ r.1.toNat) :
    ∀ b ∈ more, n ≤ b.toNat := by
  induction h with
  | nil => simp
  | cons hb _ ih =>
    rw [List.forall_mem_cons] at low ⊢
    exact ⟨Nat.le_trans low.1 hb.1, ih low.2⟩

/-- A first byte is ASCII, or it and all bytes of its character are above, and so is
the character. -/
theorem following_cases {expected : List (UInt8 × UInt8)} (h : following b = some expected) :
    b.toNat < 0x80 ∧ expected = [] ∨
      0x80 ≤ b.toNat ∧ (∀ r ∈ expected, 0x80 ≤ r.1.toNat) ∧
      ∀ more, List.Forall₂ Within expected more →
        0x80 ≤ scalar b more ∧ scalar b more < 0x110000 := by
  have ranges : b.toNat < 0x80 ∨ (0x80 ≤ b.toNat ∧ b.toNat < 0xC2 ∨ 0xF5 ≤ b.toNat) ∨
      (0xC2 ≤ b.toNat ∧ b.toNat < 0xE0) ∨ (0xE0 ≤ b.toNat ∧ b.toNat < 0xF0) ∨
      0xF0 ≤ b.toNat ∧ b.toNat < 0xF5 := by omega
  rcases ranges with hb | hb | ⟨hb, hb'⟩ | ⟨hb, hb'⟩ | ⟨hb, hb'⟩
  · rw [following_of_one hb, Option.some.injEq] at h
    exact .inl ⟨hb, h.symm⟩
  · rw [following_of_none hb] at h
    contradiction
  · rw [following_of_two hb hb', Option.some.injEq] at h
    subst h
    refine .inr ⟨by omega, by simp, fun more hm => ?_⟩
    simp only [List.forall₂_cons_left_iff, List.forall₂_nil_left_iff] at hm
    obtain ⟨c, _, hc, rfl, rfl⟩ := hm
    simp [Within, scalar] at hc ⊢
    omega
  · rw [following_of_three hb hb', Option.some.injEq] at h
    subst h
    refine .inr ⟨by omega, ?_, fun more hm => ?_⟩
    · simp; split <;> simp
    simp only [List.forall₂_cons_left_iff, List.forall₂_nil_left_iff] at hm
    obtain ⟨c, _, hc, ⟨c', _, -, rfl, rfl⟩, rfl⟩ := hm
    simp only [Within, apply_ite UInt8.toNat, UInt8.toNat_ofNat] at hc
    have := UInt8.toNat_lt c'
    simp only [scalar, List.length_cons, List.length_nil, List.foldl_cons, List.foldl_nil]
    split_ifs at hc <;> omega
  · rw [following_of_four hb hb', Option.some.injEq] at h
    subst h
    refine .inr ⟨by omega, ?_, fun more hm => ?_⟩
    · simp; split <;> simp
    simp only [List.forall₂_cons_left_iff, List.forall₂_nil_left_iff] at hm
    obtain ⟨c, _, hc, ⟨c', _, -, ⟨c'', _, -, rfl, rfl⟩, rfl⟩, rfl⟩ := hm
    simp only [Within, apply_ite UInt8.toNat, UInt8.toNat_ofNat] at hc
    simp only [scalar, List.length_cons, List.length_nil, List.foldl_cons, List.foldl_nil]
    split_ifs at hc <;> omega

/-- The bytes of a character are the bytes that are expected behind the first one, and
they have its number. -/
theorem utf8EncodeChar_cases (c : Char) :
    ∃ b more expected, String.utf8EncodeChar c = b :: more ∧ following b = some expected ∧
      List.Forall₂ Within expected more ∧ scalar b more = c.toNat := by
  have valid : c.toNat < 0xD800 ∨ 0xDFFF < c.toNat ∧ c.toNat < 0x110000 := c.valid
  have e : c.val.toNat = c.toNat := rfl
  simp only [String.utf8EncodeChar, e]
  generalize c.toNat = v at *
  split
  · refine ⟨_, _, _, rfl, following_of_one ?_, .nil, ?_⟩ <;> simp [scalar] <;> omega
  split
  · refine ⟨_, _, _, rfl, following_of_two ?_ ?_, ?_, ?_⟩ <;> simp [Within, scalar] <;> omega
  split
  · refine ⟨_, _, _, rfl, following_of_three ?_ ?_, ?_, ?_⟩
    · simp; omega
    · simp; omega
    · simp [Within]
      constructor
      · constructor <;> split <;> simp <;> omega
      · omega
    · simp [scalar]; omega
  · refine ⟨_, _, _, rfl, following_of_four ?_ ?_, ?_, ?_⟩
    · simp; omega
    · simp; omega
    · simp [Within]
      constructor
      · constructor <;> split <;> simp <;> omega
      · omega
    · simp [scalar]; omega

/-! ### Reading bytes -/

theorem decodeFrom_eq_drop (skip : Nat) (bytes : List UInt8) :
    decodeFrom skip bytes = decode (bytes.drop skip) := by
  induction bytes generalizing skip with
  | nil => simp [decode, decodeFrom]
  | cons b bytes ih =>
    cases skip with
    | zero => rfl
    | succ skip => simpa [decodeFrom] using ih skip

theorem decode_cons_of_none (h : following b = none) (rest : List UInt8) :
    decode (b :: rest) = stray b :: decode rest := by
  simp [decode, decodeFrom, h]

theorem decode_cons_of_some {expected : List (UInt8 × UInt8)} (h : following b = some expected)
    (rest : List UInt8) :
    decode (b :: rest) =
      (if matching expected rest = expected.length then
        [.ofNat (scalar b (rest.take (matching expected rest)))]
      else (b :: rest.take (matching expected rest)).map stray) ++
        decode (rest.drop (matching expected rest)) := by
  simp only [← decodeFrom_eq_drop]
  simp only [decode, decodeFrom, h]
  split <;> rfl

theorem toNat_stray (b : UInt8) : (stray b).toNat = 0xDC00 + b.toNat := by
  have := UInt8.toNat_lt b
  simp only [stray, CodePoint.ofNat]
  split <;> simp_all
  omega

theorem toNat_ofNat {n : Nat} (h : n < 0x110000) : (CodePoint.ofNat n).toNat = n := by
  simp [CodePoint.ofNat, h]

theorem ofNat_toNat (c : CodePoint) : CodePoint.ofNat c.toNat = c := by
  simp [CodePoint.ofNat, c.toNat_lt]

/-- A byte of ASCII is expected nowhere behind a first byte. -/
theorem matching_append_cons {expected : List (UInt8 × UInt8)}
    (low : ∀ r ∈ expected, 0x80 ≤ r.1.toNat) (hb : b.toNat < 0x80) (front back : List UInt8) :
    matching expected (front ++ b :: back) = matching expected front ∧
      matching expected front ≤ front.length := by
  induction expected generalizing front with
  | nil => simp [matching]
  | cons r expected ih =>
    have hr := low r (by simp)
    cases front with
    | nil =>
      have outside : ¬ (r.1 ≤ b ∧ b ≤ r.2) := by
        rw [UInt8.le_iff_toNat_le]
        omega
      simp [matching, outside]
    | cons c front =>
      obtain ⟨same, le⟩ := ih (fun r hr => low r (List.mem_cons_of_mem _ hr)) front
      simp only [List.cons_append, matching, same, List.length_cons]
      split <;> simp [le]

/-- A byte of ASCII belongs to no other character, so reading starts anew behind it. -/
theorem decode_append_cons (hb : b.toNat < 0x80) (front back : List UInt8) :
    decode (front ++ b :: back) = decode front ++ .ofNat b.toNat :: decode back := by
  induction hn : front.length using Nat.strongRecOn generalizing front with
  | ind n ih =>
    cases front with
    | nil => 
      rw [List.nil_append, decode_cons_of_some (following_of_one hb)]
      simp [matching, scalar, decode, decodeFrom]
    | cons c front =>
      simp only [List.length_cons] at hn
      cases hc : following c with
      | none =>
        rw [List.cons_append, decode_cons_of_none hc, decode_cons_of_none hc,
          ih front.length (by omega) front rfl, List.cons_append]
      | some expected =>
        have low : ∀ r ∈ expected, 0x80 ≤ r.1.toNat := by
          rcases following_cases hc with ⟨-, rfl⟩ | ⟨-, low, -⟩
          · simp
          · exact low
        obtain ⟨same, le⟩ := matching_append_cons low hb front back
        rw [List.cons_append, decode_cons_of_some hc, decode_cons_of_some hc, same,
          List.take_append_of_le_length le, List.drop_append_of_le_length le,
          ih _ (by simp; omega) _ rfl, List.append_assoc]

/-- A byte of ASCII is read as itself, and any other one as something above. -/
theorem decode_cons_cases (b : UInt8) (rest : List UInt8) :
    ∃ n piece, decode (b :: rest) = piece ++ decode (rest.drop n) ∧
      (b.toNat < 0x80 ∧ n = 0 ∧ piece = [.ofNat b.toNat] ∨
        0x80 ≤ b.toNat ∧ piece ≠ [] ∧ ∀ c ∈ piece, 0x80 ≤ c.toNat) := by
  have high (bytes : List UInt8) : ∀ c ∈ bytes.map stray, 0x80 ≤ c.toNat := by
    simp only [List.mem_map, forall_exists_index, and_imp, forall_apply_eq_imp_iff₂, toNat_stray]
    omega
  cases hb : following b with
  | none =>
    have : 0x80 ≤ b.toNat := by
      by_contra h
      rw [following_of_one (by omega)] at hb
      contradiction
    exact ⟨0, [stray b], decode_cons_of_none hb rest, .inr ⟨this, by simp, high [b]⟩⟩
  | some expected =>
    refine ⟨_, _, decode_cons_of_some hb rest, ?_⟩
    rcases following_cases hb with ⟨low, rfl⟩ | ⟨low, -, bounds⟩
    · exact .inl ⟨low, by simp [matching, scalar]⟩
    · refine .inr ⟨low, by split <;> simp, ?_⟩
      split
      · next whole =>
        obtain ⟨above, below⟩ := bounds _ (within_of_matching whole)
        simpa [whole, toNat_ofNat below] using above
      · exact high _

/-- What is read as ASCII is that byte. -/
theorem mem_of_mem_decode {bytes : List UInt8} {c : CodePoint} (hc : c ∈ decode bytes)
    (ascii : c.toNat < 0x80) : ∃ b ∈ bytes, b.toNat = c.toNat := by
  induction hn : bytes.length using Nat.strongRecOn generalizing bytes with
  | ind n ih =>
    cases bytes with
    | nil => simp [decode, decodeFrom] at hc
    | cons b rest =>
      obtain ⟨k, piece, e, h⟩ := decode_cons_cases b rest
      rw [e, List.mem_append] at hc
      rcases hc with hc | hc
      · rcases h with ⟨low, -, rfl⟩ | ⟨-, -, high⟩
        · rw [List.mem_singleton.1 hc, toNat_ofNat (by omega)]
          exact ⟨b, by simp, rfl⟩
        · have := high c hc
          omega
      · have shorter : (rest.drop k).length < n := by
          rw [List.length_drop, ← hn, List.length_cons]
          omega
        obtain ⟨b', hb', same⟩ := ih _ shorter hc rfl
        exact ⟨b', List.mem_cons_of_mem _ (List.mem_of_mem_drop hb'), same⟩

/-- Bytes that are read as ASCII are ASCII. -/
theorem lt_of_decode_lt {bytes : List UInt8} (h : ∀ c ∈ decode bytes, c.toNat < 0x80) :
    ∀ b ∈ bytes, b.toNat < 0x80 := by
  induction bytes with
  | nil => simp
  | cons b rest ih =>
    obtain ⟨k, piece, e, hb⟩ := decode_cons_cases b rest
    rw [e, List.forall_mem_append] at h
    rcases hb with ⟨low, rfl, -⟩ | ⟨-, hne, high⟩
    · exact List.forall_mem_cons.2 ⟨low, ih h.2⟩
    · obtain ⟨c, more, rfl⟩ := List.exists_cons_of_ne_nil hne
      have := high c (by simp)
      have := h.1 c (by simp)
      omega

/-! ### Names -/

@[simp] theorem encode_append (s s' : Text) : encode (s ++ s') = encode s ++ encode s' :=
  List.flatMap_append

/-- The bytes of a character are read as it. -/
theorem decode_bytesOf {c : CodePoint} (h : c.isHalf = false) (rest : List UInt8) :
    decode (bytesOf c ++ rest) = c :: decode rest := by
  cases hc : c.toChar? with
  | none => rw [CodePoint.toChar?_eq_none_iff, h] at hc; contradiction
  | some char =>
    obtain ⟨b, more, expected, e, hb, within, value⟩ := utf8EncodeChar_cases char
    have same := CodePoint.ofChar_of_toChar? hc
    have matched := matching_append_of_within within rest
    have length := within.length_eq
    have value' : CodePoint.ofNat (scalar b more) = c := by
      rw [value, ← same]
      exact ofNat_toNat (.ofChar char)
    simp only [bytesOf, hc, e, List.cons_append]
    rw [decode_cons_of_some hb, matched, if_pos rfl, length, List.take_left', List.drop_left', value']
    all_goals rfl

/-- A name of whole characters can be read back. -/
theorem decode_encode {name : Text} (h : ∀ c ∈ name, c.isHalf = false) :
    decode (encode name) = name := by
  induction name with
  | nil => rfl
  | cons c name ih =>
    rw [encode, List.flatMap_cons, decode_bytesOf (h c (by simp))]
    congr 1
    exact ih fun c hc => h c (List.mem_cons_of_mem _ hc)

/-- Settling is reading back, whatever is in the name. -/
theorem settle_eq (name : Text) : settle name = decode (encode name) := by
  unfold settle
  split
  · rfl
  · next h => exact (decode_encode (by simpa using h)).symm


/-- Settling goes name by name. -/
theorem settle_append_slash (s s' : Text) :
    settle (s ++ CodePoint.ofChar '/' :: s') = settle s ++ CodePoint.ofChar '/' :: settle s' := by
  have slash : encode (CodePoint.ofChar '/' :: s') = 0x2F :: encode s' := rfl
  rw [settle_eq, settle_eq, settle_eq, encode_append, slash, decode_append_cons (by decide)]
  rfl

theorem settle_join (names : List Text) :
    settle (Text.join ['/'] names) = Text.join ['/'] (names.map settle) := by
  match names with
  | [] => rfl
  | [name] => simp [Text.join, List.intercalate]
  | name :: next :: more =>
    have tail := settle_join (next :: more)
    simp only [Text.join, List.intercalate, List.intersperse, List.flatten_cons, List.map_cons,
      List.singleton_append] at tail ⊢
    rw [← tail]
    exact settle_append_slash name _

/-- A name that can be given to a disk. -/
def Encodable (name : Text) : Prop := unencodable? name = none

theorem encodable_iff {name : Text} :
    Encodable name ↔ ∀ c ∈ name, c.isHalf = true → isStray c = true :=
  Utf8.unencodableFrom_eq_none_iff isStray 0 name

theorem Encodable.of_subset {name path : Text} (h : Encodable path) (hs : name ⊆ path) :
    Encodable name :=
  encodable_iff.2 fun c hc => encodable_iff.1 h c (hs hc)

/-- Bytes of ASCII come from characters of ASCII. -/
theorem bytesOf_cases {c : CodePoint} (h : c.isHalf = true → isStray c = true) :
    c.toNat < 0x80 ∧ bytesOf c = [UInt8.ofNat c.toNat] ∨
      0x80 ≤ c.toNat ∧ bytesOf c ≠ [] ∧ ∀ b ∈ bytesOf c, 0x80 ≤ b.toNat := by
  cases hc : c.toChar? with
  | none =>
    have half := (CodePoint.toChar?_eq_none_iff c).1 hc
    have stray := h half
    simp only [isStray, Bool.and_eq_true, decide_eq_true_eq] at stray
    refine .inr ⟨by omega, by simp [bytesOf, hc], ?_⟩
    simp [bytesOf, hc]
    omega
  | some char =>
    obtain ⟨b, more, expected, e, hb, within, value⟩ := utf8EncodeChar_cases char
    have same : c.toNat = char.toNat := by rw [← CodePoint.ofChar_of_toChar? hc]; rfl
    simp only [bytesOf, hc, e, same, ← value]
    rcases following_cases hb with ⟨low, rfl⟩ | ⟨high, lows, bounds⟩
    · obtain rfl := List.forall₂_nil_left_iff.1 within
      simp [scalar, low]
    · exact .inr ⟨(bounds more within).1, by simp,
        List.forall_mem_cons.2 ⟨high, le_of_within within lows⟩⟩

theorem mem_of_mem_encode {name : Text} (h : Encodable name) {b : UInt8} (hb : b ∈ encode name)
    (ascii : b.toNat < 0x80) : ∃ c ∈ name, c.toNat = b.toNat := by
  obtain ⟨c, hc, hbc⟩ := List.mem_flatMap.1 hb
  refine ⟨c, hc, ?_⟩
  rcases bytesOf_cases (encodable_iff.1 h c hc) with ⟨low, e⟩ | ⟨-, -, high⟩
  · rw [e, List.mem_singleton] at hbc
    simp [hbc]
    omega
  · have := high b hbc
    omega

/-- Settling brings up no slash. -/
theorem slash_notMem_settle {name : Text} (h : Encodable name)
    (hs : CodePoint.ofChar '/' ∉ name) : CodePoint.ofChar '/' ∉ settle name := by
  rw [settle_eq]
  intro hm
  obtain ⟨b, hb, e⟩ := mem_of_mem_decode hm (by decide)
  obtain ⟨c, hc, e'⟩ := mem_of_mem_encode h hb (by rw [e]; decide)
  have same : c = CodePoint.ofChar '/' := by
    rw [← ofNat_toNat c, e', e, ofNat_toNat]
  exact hs (same ▸ hc)

/-- Only an ASCII name settles as an ASCII name, and it is that one. -/
theorem eq_of_settle_eq {name settled : Text} (h : Encodable name) (e : settle name = settled)
    (ascii : ∀ c ∈ settled, c.toNat < 0x80) : name = settled := by
  rw [← e, settle_eq] at ascii
  have bytes := lt_of_decode_lt ascii
  have whole : ∀ c ∈ name, c.isHalf = false := by
    intro c hc
    rcases bytesOf_cases (encodable_iff.1 h c hc) with ⟨low, -⟩ | ⟨-, hne, high⟩
    · rw [Bool.eq_false_iff, Ne, CodePoint.isHalf_iff]
      omega
    · obtain ⟨b, more, eb⟩ := List.exists_cons_of_ne_nil hne
      have := high b (by simp [eb])
      have := bytes b (List.mem_flatMap.2 ⟨c, hc, by simp [eb]⟩)
      omega
  rw [← e, settle_eq_self whole]

end Multiversion.FileName
