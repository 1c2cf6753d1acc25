import Corduit.Text.Core
import Corduit.Word.Octets
import Mathlib.Data.List.TakeDrop

/-!
# UTF-8

A string is the bytes of its encoding; the decoder accepts exactly the bytes
of some string.
-/

namespace Corduit.Text

open Word

/-- `str::as_bytes`. -/
def asBytes (text : String) : List Byte :=
  text.toByteArray.data.toList.map UInt8.toBitVec

/-- `str::from_utf8`, without the position of the error. -/
def fromUtf8 (bytes : List Byte) : Option String :=
  String.fromUTF8? ⟨(bytes.map UInt8.ofBitVec).toArray⟩

theorem fromUtf8_eq_some_iff {bytes : List Byte} {text : String} :
    fromUtf8 bytes = some text ↔ asBytes text = bytes := by
  have back : (bytes.map UInt8.ofBitVec).map UInt8.toBitVec = bytes := by
    rw [List.map_map]
    exact List.map_id bytes
  have forth : (asBytes text).map UInt8.ofBitVec = text.toByteArray.data.toList := by
    rw [asBytes, List.map_map]
    exact List.map_id _
  unfold fromUtf8 String.fromUTF8?
  constructor
  · intro decoded
    split at decoded
    · obtain rfl := Option.some.inj decoded
      exact back
    · cases decoded
  · rintro rfl
    have same : (⟨((asBytes text).map UInt8.ofBitVec).toArray⟩ : ByteArray) = text.toByteArray := by
      rw [forth]
    simp only [same]
    exact dif_pos text.isValidUTF8

/-- How many bytes one replacement character stands for: the front of a
character that is broken off, or a single byte. -/
def brokenLength : List Byte → Nat
  | first :: second :: rest =>
      let lead := first.toNat
      let next := second.toNat
      let continues :=
        if lead = 0xE0 then 0xA0 ≤ next ∧ next ≤ 0xBF
        else if lead = 0xED then 0x80 ≤ next ∧ next ≤ 0x9F
        else if lead = 0xF0 then 0x90 ≤ next ∧ next ≤ 0xBF
        else if lead = 0xF4 then 0x80 ≤ next ∧ next ≤ 0x8F
        else 0xE1 ≤ lead ∧ lead ≤ 0xF3 ∧ 0x80 ≤ next ∧ next ≤ 0xBF
      let third := (rest.headD 0).toNat
      if ¬ continues then 1
      else if 0xF0 ≤ lead ∧ 0x80 ≤ third ∧ third ≤ 0xBF then 3
      else 2
  | _ => 1

/-- The character at the front and its size. -/
def firstCharacter (bytes : List Byte) : Option (String × Nat) :=
  [1, 2, 3, 4].findSome? fun size =>
    if size ≤ bytes.length then (fromUtf8 (bytes.take size)).map (·, size) else none

/-- What is no text is replaced. -/
def fromUtf8LossyFrom : (bound : Nat) → List Byte → String
  | 0, _ => ""
  | bound + 1, bytes =>
      if bytes.isEmpty then
        ""
      else
        match firstCharacter bytes with
        | some (character, size) => character ++ fromUtf8LossyFrom bound (bytes.drop size)
        | none => "\uFFFD" ++ fromUtf8LossyFrom bound (bytes.drop (brokenLength bytes))

/-- `String::from_utf8_lossy`. -/
def fromUtf8Lossy (bytes : List Byte) : String :=
  fromUtf8LossyFrom bytes.length bytes

/-- The bytes of one character. -/
def charBytes (char : Char) : List Byte :=
  (String.utf8EncodeChar char).map UInt8.toBitVec

theorem asBytes_eq_flatMap (text : String) : asBytes text = text.toList.flatMap charBytes := by
  rw [asBytes, ← String.utf8Encode_toList, List.utf8Encode, List.data_toByteArray,
    List.toList_toArray, List.map_flatMap]
  rfl

theorem length_charBytes (char : Char) : 0 < (charBytes char).length ∧ (charBytes char).length ≤ 4 := by
  rw [charBytes, List.length_map, String.length_utf8EncodeChar]
  exact ⟨Char.utf8Size_pos char, Char.utf8Size_le_four char⟩

theorem prefix_of_asBytes {first second : String} {rest : List Byte}
    (front : asBytes first ++ rest = asBytes second) : first.toList <+: second.toList := by
  apply List.isPrefix_of_utf8Encode_append_eq_utf8Encode ⟨(rest.map UInt8.ofBitVec).toArray⟩
  have bytes (text : String) :
      (asBytes text).map UInt8.ofBitVec = text.toByteArray.data.toList := by
    rw [asBytes, List.map_map]
    exact List.map_id _
  have spelled := congrArg (List.map UInt8.ofBitVec) front
  rw [List.map_append, bytes, bytes] at spelled
  rw [String.utf8Encode_toList, String.utf8Encode_toList]
  apply ByteArray.ext
  apply Array.toList_inj.mp
  rw [← spelled, ByteArray.data_append, Array.toList_append]

theorem firstCharacter_asBytes (char : Char) (rest : List Byte) {text : String}
    (spelled : charBytes char ++ rest = asBytes text) :
    firstCharacter (asBytes text) =
      some (String.ofList [char], (charBytes char).length) := by
  have one : asBytes (String.ofList [char]) = charBytes char := by
    rw [asBytes_eq_flatMap, String.toList_ofList, List.flatMap_singleton]
  have whole : fromUtf8 ((asBytes text).take (charBytes char).length) =
      some (String.ofList [char]) := by
    rw [fromUtf8_eq_some_iff, one, ← spelled, List.take_left]
  have less {size : Nat} (positive : 0 < size) (short : size < (charBytes char).length) :
      fromUtf8 ((asBytes text).take size) = none := by
    cases found : fromUtf8 ((asBytes text).take size) with
    | none => rfl
    | some part =>
        have bytes := fromUtf8_eq_some_iff.mp found
        have longer : (asBytes part).length = size := by
          rw [bytes, List.length_take, ← spelled, List.length_append]
          omega
        have start : part.toList <+: text.toList :=
          prefix_of_asBytes (by rw [bytes, List.take_append_drop])
        have start' : [char] <+: text.toList := by
          have := @prefix_of_asBytes (String.ofList [char]) text rest (by rw [one, spelled])
          rwa [String.toList_ofList] at this
        cases split : part.toList with
        | nil =>
            rw [asBytes_eq_flatMap, split] at longer
            exact absurd longer.symm (Nat.ne_of_gt positive)
        | cons other tail =>
            rw [split] at start
            have same : other = char := by
              rcases start with ⟨_, first⟩
              rcases start' with ⟨_, second⟩
              rw [← first] at second
              exact (List.cons.inj second).1.symm
            rw [asBytes_eq_flatMap, split, List.flatMap_cons, List.length_append, same] at longer
            omega
  have inside : (charBytes char).length ≤ (asBytes text).length := by
    rw [← spelled, List.length_append]
    exact Nat.le_add_right _ _
  rcases length_charBytes char with ⟨positive, small⟩
  generalize length : (charBytes char).length = size at *
  have step {tried : Nat} (some' : 0 < tried) (below : tried < size) :
      (if tried ≤ (asBytes text).length then (fromUtf8 ((asBytes text).take tried)).map (·, tried)
        else none) = none := by
    rw [less some' below]
    split <;> rfl
  have last : (if size ≤ (asBytes text).length then
      (fromUtf8 ((asBytes text).take size)).map (·, size) else none) =
        some (String.ofList [char], size) := by
    rw [if_pos inside, whole]
    rfl
  rw [firstCharacter]
  have cases : size = 1 ∨ size = 2 ∨ size = 3 ∨ size = 4 := by omega
  rcases cases with rfl | rfl | rfl | rfl
  · rw [List.findSome?_cons, last]
  · rw [List.findSome?_cons, step (by decide) (by decide), List.findSome?_cons, last]
  · rw [List.findSome?_cons, step (by decide) (by decide), List.findSome?_cons,
      step (by decide) (by decide), List.findSome?_cons, last]
  · rw [List.findSome?_cons, step (by decide) (by decide), List.findSome?_cons,
      step (by decide) (by decide), List.findSome?_cons, step (by decide) (by decide),
      List.findSome?_cons, last]

theorem fromUtf8LossyFrom_asBytes (chars : List Char) {bound : Nat}
    (enough : (asBytes (String.ofList chars)).length ≤ bound) :
    fromUtf8LossyFrom bound (asBytes (String.ofList chars)) = String.ofList chars := by
  induction chars generalizing bound with
  | nil => cases bound <;> rfl
  | cons char chars ih =>
      have split : asBytes (String.ofList (char :: chars)) =
          charBytes char ++ asBytes (String.ofList chars) := by
        rw [asBytes_eq_flatMap, String.toList_ofList, List.flatMap_cons, asBytes_eq_flatMap,
          String.toList_ofList]
      have length := congrArg List.length split
      rw [List.length_append] at length
      have positive := (length_charBytes char).1
      cases bound with
      | zero => omega
      | succ bound =>
          have filled : (asBytes (String.ofList (char :: chars))).isEmpty = false := by
            rw [List.isEmpty_eq_false_iff, ← List.length_pos_iff]
            omega
          rw [fromUtf8LossyFrom, filled, if_neg (by decide),
            firstCharacter_asBytes char _ split.symm]
          dsimp only
          rw [split, List.drop_left, ih (by omega), ← String.ofList_append]
          rfl

theorem fromUtf8Lossy_asBytes (text : String) : fromUtf8Lossy (asBytes text) = text := by
  have decoded := @fromUtf8LossyFrom_asBytes text.toList (asBytes text).length
  rw [String.ofList_toList] at decoded
  exact decoded (Nat.le_refl _)

/-!
# Numerals

Unsigned numbers written in a radix up to thirty-six, and the texts around
them: what trimming leaves of a numeral behind white space, and the bytes of
one, which are the codes of its characters.
-/

/-- `char::to_digit`. -/
def toDigit (radix : Nat) (char : Char) : Option Nat :=
  let code := char.toNat
  let digit :=
    if '0'.toNat ≤ code ∧ code ≤ '9'.toNat then some (code - '0'.toNat)
    else if 'a'.toNat ≤ code ∧ code ≤ 'z'.toNat then some (code - 'a'.toNat + 10)
    else if 'A'.toNat ≤ code ∧ code ≤ 'Z'.toNat then some (code - 'A'.toNat + 10)
    else none
  digit.filter (· < radix)

/-- The number that digits write, the first one counting most. -/
def numeral (radix : Nat) (digits : List Char) : Option Nat :=
  if digits = [] then none
  else (digits.mapM (toDigit radix)).map fun values =>
    values.foldl (fun number value => radix * number + value) 0

/-- `from_str_radix` of an unsigned type with the given bound: digits, after an
optional plus sign. -/
def fromStrRadix (radix bound : Nat) (text : String) : Option Nat :=
  let digits := match text.toList with
    | '+' :: rest => rest
    | chars => chars
  (numeral radix digits).filter (· < bound)

variable {radix number : Nat} {digits : List Char}

theorem ne_nil_of_numeral (written : numeral radix digits = some number) : digits ≠ [] := by
  rintro rfl
  exact absurd written nofun

/-- Every digit of a numeral is one. -/
theorem isSome_toDigit_of_numeral (written : numeral radix digits = some number) :
    ∀ char ∈ digits, (toDigit radix char).isSome = true := by
  rw [numeral, if_neg (ne_nil_of_numeral written)] at written
  rcases Option.map_eq_some_iff.mp written with ⟨values, traversed, summed⟩
  clear written summed
  induction digits generalizing values with
  | nil => nofun
  | cons head digits ih =>
      rw [List.mapM_cons] at traversed
      rcases Option.bind_eq_some_iff.mp traversed with ⟨value, first, rest⟩
      rcases Option.bind_eq_some_iff.mp rest with ⟨others, later, _⟩
      rw [List.forall_mem_cons]
      exact ⟨Option.isSome_iff_exists.mpr ⟨value, first⟩, ih others later⟩

theorem toNat_of_toDigit {char : Char} (digit : (toDigit radix char).isSome = true) :
    ('0'.toNat ≤ char.toNat ∧ char.toNat ≤ '9'.toNat) ∨
      ('a'.toNat ≤ char.toNat ∧ char.toNat ≤ 'z'.toNat) ∨
      ('A'.toNat ≤ char.toNat ∧ char.toNat ≤ 'Z'.toNat) := by
  dsimp only [toDigit] at digit
  split at digit
  · exact Or.inl ‹_›
  · split at digit
    · exact Or.inr (Or.inl ‹_›)
    · split at digit
      · exact Or.inr (Or.inr ‹_›)
      · exact absurd digit nofun

theorem not_isWhitespace_of_toDigit {char : Char} (digit : (toDigit radix char).isSome = true) :
    isWhitespace char = false := by
  have range := toNat_of_toDigit digit
  simp only [Char.reduceToNat] at range
  simp only [isWhitespace, Bool.or_eq_false_iff, Bool.and_eq_false_iff, decide_eq_false_iff_not,
    beq_eq_false_iff_ne]
  omega

theorem fromStrRadix_of_numeral {bound : Nat} (written : numeral radix digits = some number)
    (below : number < bound) : fromStrRadix radix bound (String.ofList digits) = some number := by
  have unsigned : ∀ rest, digits ≠ '+' :: rest := by
    rintro rest rfl
    have range := toNat_of_toDigit (isSome_toDigit_of_numeral written '+' List.mem_cons_self)
    simp only [Char.reduceToNat] at range
    omega
  have same : (match (String.ofList digits).toList with
      | '+' :: rest => rest
      | chars => chars) = digits := by
    rw [String.toList_ofList]
    split
    · exact absurd rfl (unsigned _)
    · rfl
  rw [fromStrRadix, same, written, Option.filter_some, if_pos (decide_eq_true below)]

theorem trim_ofList {front solid : List Char} (blank : ∀ char ∈ front, isWhitespace char = true)
    (none : ∀ char ∈ solid, isWhitespace char = false) :
    trim (String.ofList (front ++ solid)) = String.ofList solid := by
  have started : solid.dropWhile isWhitespace = solid := by
    cases solid with
    | nil => rfl
    | cons char solid =>
        rw [List.dropWhile_cons_of_neg]
        exact Bool.eq_false_iff.mp (none char List.mem_cons_self)
  have ended : solid.reverse.dropWhile isWhitespace = solid.reverse := by
    cases reversed : solid.reverse with
    | nil => rfl
    | cons char rest =>
        rw [List.dropWhile_cons_of_neg]
        have member : char ∈ solid := List.mem_reverse.mp (reversed ▸ List.mem_cons_self)
        exact Bool.eq_false_iff.mp (none char member)
  have dropped : (front ++ solid).dropWhile isWhitespace = solid := by
    rw [List.dropWhile_append_of_pos blank, started]
  rw [trim, trimStartMatches, String.toList_ofList, dropped, trimEndMatches, String.toList_ofList,
    ended, List.reverse_reverse]

theorem asBytes_ofList {chars : List Char} (ascii : ∀ char ∈ chars, char.toNat < 128) :
    asBytes (String.ofList chars) = chars.map fun char => BitVec.ofNat 8 char.toNat := by
  have encoded : ∀ char ∈ chars, (String.utf8EncodeChar char).map UInt8.toBitVec =
      [BitVec.ofNat 8 char.toNat] := by
    intro char member
    have small : char.val.toNat < 128 := ascii char member
    rw [String.utf8EncodeChar_eq_singleton]
    · rfl
    · exact Char.utf8Size_eq_one_iff.mpr (UInt32.le_iff_toNat_le.mpr (Nat.le_of_lt_succ small))
  rw [asBytes, String.toByteArray_ofList, List.utf8Encode, List.data_toByteArray,
    List.toList_toArray, List.map_flatMap]
  rw [List.flatMap_congr encoded, List.map_eq_flatMap]

end Corduit.Text

/-!
# ASCII inside UTF-8

A byte below 128 is the code of a character, and a character above is spelled
by bytes above.  So a text is taken apart at an ASCII separator in the same
places as its bytes, and where the bytes are codes, trimming and folding a text
can be read off its bytes.
-/

namespace Corduit.Text

open Word

variable {char : Char} {text : String}

theorem charBytes_of_lt (small : char.toNat < 128) :
    charBytes char = [BitVec.ofNat 8 char.toNat] := by
  have code : char.val.toNat ≤ 127 := Nat.le_of_lt_succ small
  rw [charBytes, String.utf8EncodeChar, if_pos code]
  rfl

theorem charBytes_cases (char : Char) :
    char.toNat < 128 ∨ ∀ byte ∈ charBytes char, 128 ≤ byte.toNat := by
  by_cases small : char.toNat < 128
  · exact Or.inl small
  · right
    have code : ¬ char.val.toNat ≤ 127 := fun within => small (Nat.lt_succ_of_le within)
    rw [charBytes, String.utf8EncodeChar, if_neg code]
    have high (part offset : Nat) (within : part + offset < 256) (above : 128 ≤ offset) :
        128 ≤ (UInt8.ofNat (part + offset)).toBitVec.toNat := by
      change 128 ≤ (part + offset) % 2 ^ 8
      omega
    intro byte member
    split at member
    · simp only [List.map_cons, List.map_nil, List.mem_cons, List.not_mem_nil, or_false] at member
      rcases member with rfl | rfl <;> apply high <;> omega
    split at member
    · simp only [List.map_cons, List.map_nil, List.mem_cons, List.not_mem_nil, or_false] at member
      rcases member with rfl | rfl | rfl <;> apply high <;> omega
    · simp only [List.map_cons, List.map_nil, List.mem_cons, List.not_mem_nil, or_false] at member
      rcases member with rfl | rfl | rfl | rfl <;> apply high <;> omega

theorem ascii_of_flatMap_charBytes {chars : List Char}
    (codes : ∀ byte ∈ chars.flatMap charBytes, byte.toNat < 128) :
    ∀ char ∈ chars, char.toNat < 128 := by
  intro char member
  rcases charBytes_cases char with small | high
  · exact small
  · rcases List.exists_mem_of_length_pos (length_charBytes char).1 with ⟨byte, inside⟩
    have code := codes byte (List.mem_flatMap.mpr ⟨char, member, inside⟩)
    exact absurd (high byte inside) (Nat.not_le_of_lt code)

theorem flatMap_charBytes {chars : List Char} (ascii : ∀ char ∈ chars, char.toNat < 128) :
    chars.flatMap charBytes = chars.map fun char => BitVec.ofNat 8 char.toNat := by
  rw [← asBytes_ofList ascii, asBytes_eq_flatMap, String.toList_ofList]

theorem asBytes_append (first second : String) :
    asBytes (first ++ second) = asBytes first ++ asBytes second := by
  rw [asBytes_eq_flatMap, asBytes_eq_flatMap, asBytes_eq_flatMap, String.toList_append,
    List.flatMap_append]

/-- The characters of a text are ASCII. -/
def IsAscii (text : String) : Prop :=
  ∀ char ∈ text.toList, char.toNat < 128

instance (text : String) : Decidable (IsAscii text) :=
  List.decidableBAll (fun char : Char => char.toNat < 128) text.toList

theorem asBytes_eq_ascii (small : IsAscii text) :
    asBytes text = ascii text := by
  rw [asBytes_eq_flatMap, flatMap_charBytes small]
  rfl

theorem char_eq_of_code {first second : Char} (small : first.toNat < 128)
    (small' : second.toNat < 128)
    (same : BitVec.ofNat 8 first.toNat = BitVec.ofNat 8 second.toNat) : first = second := by
  have codes := congrArg BitVec.toNat same
  rw [BitVec.toNat_ofNat, BitVec.toNat_ofNat] at codes
  apply Char.toNat_inj.mp
  omega

theorem splitOn_append_of_not_mem {separator : Byte} {block : List Byte}
    (absent : separator ∉ block) (bytes : List Byte) :
    (block ++ bytes).splitOn separator =
      (bytes.splitOn separator).modifyHead (block ++ ·) := by
  induction block with
  | nil =>
      rw [List.nil_append]
      cases bytes.splitOn separator <;> rfl
  | cons byte block ih =>
      rw [List.mem_cons, not_or] at absent
      have other : (byte == separator) = false := beq_false_of_ne (Ne.symm absent.1)
      rw [List.cons_append, List.splitOn_cons_eq_if_modifyHead, other, if_neg Bool.false_ne_true,
        ih absent.2]
      cases bytes.splitOn separator <;> rfl

/-- Taking the bytes of a text apart at an ASCII separator is taking the text apart. -/
theorem splitOn_flatMap_charBytes {separator : Char} (small : separator.toNat < 128)
    (chars : List Char) :
    (chars.flatMap charBytes).splitOn (BitVec.ofNat 8 separator.toNat) =
      (splitChars separator chars).map fun part => part.flatMap charBytes := by
  induction chars with
  | nil => rfl
  | cons char chars ih =>
      rw [List.flatMap_cons, splitChars]
      by_cases same : char = separator
      · subst same
        rw [if_pos rfl, charBytes_of_lt small, List.singleton_append, List.splitOn_cons_eq_if_modifyHead,
          if_pos (beq_self_eq_true _), ih]
        rfl
      · have absent : BitVec.ofNat 8 separator.toNat ∉ charBytes char := by
          intro member
          rcases charBytes_cases char with small' | high
          · rw [charBytes_of_lt small', List.mem_singleton] at member
            exact same (char_eq_of_code small small' member).symm
          · have above := high _ member
            rw [BitVec.toNat_ofNat] at above
            omega
        rw [if_neg same, splitOn_append_of_not_mem absent, ih]
        cases parts : splitChars separator chars with
        | nil => exact absurd parts (splitChars_ne_nil chars)
        | cons part parts => rfl

/-- `u8::to_ascii_lowercase`. -/
def lowerByte (byte : Byte) : Byte :=
  if 65 ≤ byte.toNat ∧ byte.toNat ≤ 90 then byte + 32 else byte

theorem toNat_toLower (capital : 65 ≤ char.toNat ∧ char.toNat ≤ 90) :
    char.toLower.toNat = char.toNat + 32 := by
  have bounds : char.val ≥ 'A'.val ∧ char.val ≤ 'Z'.val := by
    simpa [UInt32.le_iff_toNat_le] using capital
  delta Char.toLower
  rw [dif_pos bounds]
  change (char.val + ('a'.val - 'A'.val)).toNat = _
  rw [UInt32.toNat_add]
  change (char.toNat + 32) % 2 ^ 32 = _
  omega

theorem lowerByte_code (small : char.toNat < 128) :
    lowerByte (BitVec.ofNat 8 char.toNat) = BitVec.ofNat 8 char.toLower.toNat := by
  have code : (BitVec.ofNat 8 char.toNat).toNat = char.toNat := by
    rw [BitVec.toNat_ofNat]
    omega
  rw [lowerByte, code]
  by_cases capital : 65 ≤ char.toNat ∧ char.toNat ≤ 90
  · rw [if_pos capital, toNat_toLower capital]
    apply BitVec.eq_of_toNat_eq
    rw [BitVec.toNat_add, code, BitVec.toNat_ofNat]
    rfl
  · rw [if_neg capital, toLower_eq_self_of_small]
    omega

theorem map_lowerByte_ascii (small : IsAscii text) :
    (ascii text).map lowerByte = ascii (toAsciiLowercase text) := by
  rw [ascii, ascii, toList_toAsciiLowercase, List.map_map, List.map_map]
  exact List.map_congr_left fun char member => lowerByte_code (small char member)

theorem small_toAsciiLowercase (small : IsAscii text) :
    IsAscii (toAsciiLowercase text) := by
  rw [IsAscii, toList_toAsciiLowercase]
  intro char member
  rcases List.mem_map.mp member with ⟨char', inside, rfl⟩
  have bound := small char' inside
  rcases toLower_cases char' with same | ⟨capital, moved⟩
  · rw [same]
    exact bound
  · omega

theorem ascii_inj {first second : String} (small : IsAscii first) (small' : IsAscii second)
    (same : ascii first = ascii second) : first = second := by
  apply String.toList_inj.mp
  rw [ascii, ascii] at same
  rw [IsAscii] at small small'
  generalize first.toList = chars at small same
  generalize second.toList = chars' at small' same
  induction chars generalizing chars' with
  | nil => exact (List.map_eq_nil_iff.mp same.symm).symm
  | cons char chars ih =>
      rcases List.map_eq_cons_iff.mp same.symm with ⟨char', rest, rfl, code, tail⟩
      rw [List.forall_mem_cons] at small small'
      rw [char_eq_of_code small.1 small'.1 code.symm, ih small.2 rest small'.2 tail.symm]

theorem trim_surrounded {front solid back : List Char}
    (blank : ∀ char ∈ front, isWhitespace char = true)
    (blank' : ∀ char ∈ back, isWhitespace char = true) (some : solid ≠ [])
    (none : ∀ char ∈ solid, isWhitespace char = false) :
    trim (String.ofList (front ++ (solid ++ back))) = String.ofList solid := by
  have started : (solid ++ back).dropWhile isWhitespace = solid ++ back := by
    rcases List.exists_cons_of_ne_nil some with ⟨char, chars, rfl⟩
    rw [List.cons_append, List.dropWhile_cons_of_neg]
    exact Bool.eq_false_iff.mp (none char List.mem_cons_self)
  have ended : solid.reverse.dropWhile isWhitespace = solid.reverse := by
    rcases List.exists_cons_of_ne_nil (mt List.reverse_eq_nil_iff.mp some) with ⟨char, rest, eq⟩
    have member : char ∈ solid := List.mem_reverse.mp (eq ▸ List.mem_cons_self)
    rw [eq, List.dropWhile_cons_of_neg]
    exact Bool.eq_false_iff.mp (none char member)
  have cut : (solid ++ back).reverse.dropWhile isWhitespace = solid.reverse := by
    rw [List.reverse_append, List.dropWhile_append_of_pos, ended]
    exact fun char member => blank' char (List.mem_reverse.mp member)
  rw [trim, trimStartMatches, String.toList_ofList, List.dropWhile_append_of_pos blank, started,
    trimEndMatches, String.toList_ofList, cut, List.reverse_reverse]

end Corduit.Text
