import Corduit.Text.Utf8
import Mathlib.Data.List.TakeWhile

/-!
# Requests of HTTP/1.1

A reader of requests: a request line, header fields up to an empty line, and a
body that is as long as the fields say.  What it reads is one request and
nothing behind it.  It knows no transfer coding, and a message that names one
is none that it reads.

The reader gives back what has been written line by line from names, a target
and values that break no line.
-/

namespace Corduit.Http

open Text Word

/-- The end of a line. -/
def lineEnd : List Byte :=
  [13, 10]

/-- A blank. -/
def space : Byte :=
  32

/-- A colon. -/
def colon : Byte :=
  58

/-- A comma. -/
def comma : Byte :=
  44

/-- The codes of a token. -/
def isTokenCode (code : Nat) : Bool :=
  (48 ≤ code && code ≤ 57) || (65 ≤ code && code ≤ 90) || (97 ≤ code && code ≤ 122) ||
    [0x21, 0x23, 0x24, 0x25, 0x26, 0x27, 0x2A, 0x2B, 0x2D, 0x2E, 0x5E, 0x5F, 0x60, 0x7C,
      0x7E].contains code

theorem isTokenCode_range {code : Nat} (token : isTokenCode code = true) :
    33 ≤ code ∧ code < 127 ∧ code ≠ 44 ∧ code ≠ 58 := by
  simp [isTokenCode] at token
  omega

/-- The bytes of a token. -/
def isToken (bytes : List Byte) : Bool :=
  bytes ≠ [] && bytes.all fun byte => isTokenCode byte.toNat

/-- No byte ends or breaks a line. -/
def Unbroken (bytes : List Byte) : Prop :=
  (13 : Byte) ∉ bytes ∧ (10 : Byte) ∉ bytes

instance (bytes : List Byte) : Decidable (Unbroken bytes) :=
  inferInstanceAs (Decidable (_ ∧ _))

theorem unbroken_append {front back : List Byte} :
    Unbroken (front ++ back) ↔ Unbroken front ∧ Unbroken back := by
  simp only [Unbroken, List.mem_append, not_or]
  exact and_and_and_comm

theorem Unbroken.subset {part bytes : List Byte} (unbroken : Unbroken bytes) (sub : part ⊆ bytes) :
    Unbroken part :=
  ⟨fun member => unbroken.1 (sub member), fun member => unbroken.2 (sub member)⟩

theorem isToken_iff {bytes : List Byte} :
    isToken bytes = true ↔ bytes ≠ [] ∧ ∀ byte ∈ bytes, isTokenCode byte.toNat = true := by
  simp [isToken]

theorem unbroken_of_isToken {bytes : List Byte} (token : isToken bytes = true) :
    Unbroken bytes := by
  have codes := (isToken_iff.mp token).2
  constructor
  · exact fun member => absurd (codes _ member) (by decide)
  · exact fun member => absurd (codes _ member) (by decide)

/-- Space and tab. -/
def isOws (byte : Byte) : Bool :=
  byte = 32 || byte = 9

/-- A value without the white space around it. -/
def trimOws (bytes : List Byte) : List Byte :=
  ((bytes.dropWhile isOws).reverse.dropWhile isOws).reverse

theorem trimOws_spec (bytes : List Byte) :
    ∃ front back, bytes = front ++ (trimOws bytes ++ back) ∧
      (∀ byte ∈ front, isOws byte = true) ∧ ∀ byte ∈ back, isOws byte = true := by
  refine ⟨bytes.takeWhile isOws, ((bytes.dropWhile isOws).reverse.takeWhile isOws).reverse,
    ?_, ?_, ?_⟩
  · rw [trimOws, ← List.reverse_append, List.takeWhile_append_dropWhile, List.reverse_reverse,
      List.takeWhile_append_dropWhile]
  · exact fun byte member => List.mem_takeWhile_imp member
  · exact fun byte member => List.mem_takeWhile_imp (List.mem_reverse.mp member)

theorem unbroken_trimOws {bytes : List Byte} : Unbroken (trimOws bytes) ↔ Unbroken bytes := by
  rcases trimOws_spec bytes with ⟨front, back, split, blank, blank'⟩
  have unbroken {bytes : List Byte} (ows : ∀ byte ∈ bytes, isOws byte = true) : Unbroken bytes :=
    ⟨fun member => absurd (ows _ member) (by decide),
      fun member => absurd (ows _ member) (by decide)⟩
  constructor
  · intro trimmed
    rw [split, unbroken_append, unbroken_append]
    exact ⟨unbroken blank, trimmed, unbroken blank'⟩
  · intro whole
    rw [split, unbroken_append, unbroken_append] at whole
    exact whole.2.1

theorem trimOws_eq_self {bytes : List Byte} (none : ∀ byte ∈ bytes, isOws byte = false) :
    trimOws bytes = bytes := by
  have stays {bytes : List Byte} (none : ∀ byte ∈ bytes, isOws byte = false) :
      bytes.dropWhile isOws = bytes := by
    cases bytes with
    | nil => rfl
    | cons byte bytes =>
        rw [List.dropWhile_cons_of_neg]
        exact Bool.eq_false_iff.mp (none byte List.mem_cons_self)
  rw [trimOws, stays none, stays fun byte member => none byte (List.mem_reverse.mp member),
    List.reverse_reverse]

/-- A list of tokens between commas has this one, in whatever case. -/
def lists (value name : List Byte) : Bool :=
  (value.splitOn comma).any fun part => (trimOws part).map lowerByte = name.map lowerByte

theorem lowerByte_bounds (byte : Byte) :
    byte.toNat ≤ (lowerByte byte).toNat ∧
      (33 ≤ (lowerByte byte).toNat → 33 ≤ byte.toNat) := by
  rw [lowerByte]
  split
  · have sum : (byte + 32).toNat = byte.toNat + 32 := by
      rw [BitVec.toNat_add]
      change (byte.toNat + 32) % 2 ^ 8 = _
      omega
    omega
  · exact ⟨Nat.le_refl _, id⟩

theorem lowerByte_token {byte : Byte} (token : isTokenCode byte.toNat = true) :
    33 ≤ (lowerByte byte).toNat ∧ (lowerByte byte).toNat < 128 := by
  have range := isTokenCode_range token
  rw [lowerByte]
  split
  · have sum : (byte + 32).toNat = byte.toNat + 32 := by
      rw [BitVec.toNat_add]
      change (byte.toNat + 32) % 2 ^ 8 = _
      omega
    omega
  · omega

/-- A token in the list that the bytes of a text are is a part of the text between commas, when
that is trimmed and folded. -/
theorem exists_mem_split_of_lists {text : String} {name : List Byte} (token : isToken name = true)
    (listed : lists (asBytes text) name = true) :
    ∃ part ∈ split ',' text, trim part ≠ "" ∧ (∀ char ∈ (trim part).toList, char.toNat < 128) ∧
      (ascii (trim part)).map lowerByte = name.map lowerByte := by
  rcases List.any_eq_true.mp listed with ⟨bytes, member, same⟩
  replace same : (trimOws bytes).map lowerByte = name.map lowerByte := of_decide_eq_true same
  have parts := @splitOn_flatMap_charBytes ',' (by decide) text.toList
  rw [asBytes_eq_flatMap, comma] at member
  rw [show (44 : Byte) = BitVec.ofNat 8 ','.toNat from rfl, parts] at member
  rcases List.mem_map.mp member with ⟨chars, part, rfl⟩
  rcases trimOws_spec (chars.flatMap charBytes) with ⟨front, back, cut, blank, blank'⟩
  generalize trimOws (chars.flatMap charBytes) = trimmed at same cut
  have codes : ∀ byte ∈ trimmed, 33 ≤ byte.toNat ∧ byte.toNat < 128 := by
    intro byte inside
    have folded : lowerByte byte ∈ name.map lowerByte := same ▸ List.mem_map_of_mem inside
    rcases List.mem_map.mp folded with ⟨code, inside', same'⟩
    have range := lowerByte_token ((isToken_iff.mp token).2 code inside')
    have bounds := lowerByte_bounds byte
    rw [same'] at range
    exact ⟨bounds.2 range.1, Nat.lt_of_le_of_lt bounds.1 range.2⟩
  have ows {byte : Byte} (white : isOws byte = true) : byte.toNat = 32 ∨ byte.toNat = 9 := by
    simp only [isOws, Bool.or_eq_true, decide_eq_true_eq] at white
    rcases white with rfl | rfl
    · exact Or.inl rfl
    · exact Or.inr rfl
  have small : ∀ char ∈ chars, char.toNat < 128 := by
    apply ascii_of_flatMap_charBytes
    rw [cut]
    simp only [List.mem_append]
    rintro byte (before | inside | behind)
    · have white := ows (blank byte before)
      omega
    · exact (codes byte inside).2
    · have white := ows (blank' byte behind)
      omega
  rw [flatMap_charBytes small] at cut
  rcases List.map_eq_append_iff.mp cut with ⟨front', rest, rfl, rfl, cut'⟩
  rcases List.map_eq_append_iff.mp cut' with ⟨solid, back', rfl, rfl, rfl⟩
  have code {char : Char} (inside : char ∈ front' ++ (solid ++ back')) :
      (BitVec.ofNat 8 char.toNat).toNat = char.toNat := by
    have bound := small char inside
    rw [BitVec.toNat_ofNat]
    omega
  have white {char : Char} (inside : char ∈ front' ++ (solid ++ back'))
      (blank : isOws (BitVec.ofNat 8 char.toNat) = true) : isWhitespace char = true := by
    have value := ows blank
    rw [code inside] at value
    rcases value with space | tab <;> simp [isWhitespace, *]
  have solid_ne : solid ≠ [] := by
    rintro rfl
    exact (isToken_iff.mp token).1 (List.map_eq_nil_iff.mp same.symm)
  have trim_eq : trim (String.ofList (front' ++ (solid ++ back'))) = String.ofList solid := by
    apply trim_surrounded _ _ solid_ne
    · intro char inside
      have range := codes _ (List.mem_map_of_mem inside)
      rw [code (List.mem_append_right _ (List.mem_append_left _ inside))] at range
      simp [isWhitespace]
      omega
    · exact fun char inside => white (List.mem_append_left _ inside)
        (blank _ (List.mem_map_of_mem inside))
    · exact fun char inside => white (List.mem_append_right _ (List.mem_append_right _ inside))
        (blank' _ (List.mem_map_of_mem inside))
  refine ⟨_, List.mem_map_of_mem part, ?_, ?_, ?_⟩
  · rw [trim_eq, Ne, ← String.toList_inj, String.toList_ofList]
    exact solid_ne
  · rw [trim_eq, String.toList_ofList]
    exact fun char inside => small char (List.mem_append_right _ (List.mem_append_left _ inside))
  · rw [trim_eq, ascii, String.toList_ofList]
    exact same

/-- The first line; its end is the two bytes of `lineEnd`, and neither stands for itself. -/
def takeLine : List Byte → Option (List Byte × List Byte)
  | [] => none
  | byte :: bytes =>
      if byte = 13 then
        match bytes with
        | [] => none
        | next :: rest => if next = 10 then some ([], rest) else none
      else if byte = 10 then none
      else (takeLine bytes).map fun (line, rest) => (byte :: line, rest)

theorem takeLine_cons {byte : Byte} (notReturn : byte ≠ 13) (notFeed : byte ≠ 10)
    (bytes : List Byte) :
    takeLine (byte :: bytes) = (takeLine bytes).map fun (line, rest) => (byte :: line, rest) := by
  cases bytes with
  | nil => simp [takeLine]
  | cons next bytes => rw [takeLine, if_neg notReturn, if_neg notFeed]

theorem takeLine_append {line : List Byte} (unbroken : Unbroken line) (rest : List Byte) :
    takeLine (line ++ (lineEnd ++ rest)) = some (line, rest) := by
  induction line with
  | nil => rfl
  | cons byte line ih =>
      rw [Unbroken, List.mem_cons, List.mem_cons, not_or, not_or] at unbroken
      rcases unbroken with ⟨⟨notReturn, none⟩, notFeed, none'⟩
      rw [List.cons_append, takeLine_cons (Ne.symm notReturn) (Ne.symm notFeed),
        ih ⟨none, none'⟩]
      rfl

theorem unbroken_of_takeLine {bytes line rest : List Byte}
    (taken : takeLine bytes = some (line, rest)) : Unbroken line := by
  induction bytes generalizing line with
  | nil => cases taken
  | cons byte bytes ih =>
      by_cases isReturn : byte = 13
      · cases bytes with
        | nil => simp [takeLine] at taken
        | cons next bytes =>
            rw [takeLine, if_pos isReturn] at taken
            split at taken
            · cases taken
              exact ⟨List.not_mem_nil, List.not_mem_nil⟩
            · cases taken
      by_cases isFeed : byte = 10
      · cases bytes <;> simp [takeLine, isFeed] at taken
      rw [takeLine_cons isReturn isFeed] at taken
      rcases Option.map_eq_some_iff.mp taken with ⟨⟨line', rest'⟩, taken', same⟩
      cases same
      have later := ih taken'
      constructor
      · exact List.not_mem_cons_of_ne_of_not_mem (Ne.symm isReturn) later.1
      · exact List.not_mem_cons_of_ne_of_not_mem (Ne.symm isFeed) later.2

/-- A header field. -/
structure Field where
  name : List Byte
  value : List Byte
deriving DecidableEq

namespace Field

/-- The field has this name, in whatever case. -/
def isNamed (field : Field) (name : String) : Bool :=
  field.name.map lowerByte = ascii name

/-- The line of a field whose value has not been trimmed. -/
def line (field : Field) : List Byte :=
  field.name ++ (ascii ": " ++ (field.value ++ lineEnd))

/-- The field as it is read. -/
def trimmed (field : Field) : Field :=
  { field with value := trimOws field.value }

/-- The field breaks no line and its name is a token. -/
def Valid (field : Field) : Prop :=
  isToken field.name = true ∧ Unbroken field.value

end Field

/-- A name in front of a colon, and a value. -/
def readField (line : List Byte) : Option Field :=
  match line.dropWhile (· ≠ colon) with
  | [] => none
  | _ :: value =>
      let name := line.takeWhile (· ≠ colon)
      if isToken name then some ⟨name, trimOws value⟩ else none

/-- The fields up to an empty line, at most so many. -/
def readFieldsFrom : Nat → List Byte → Option (List Field × List Byte)
  | 0, _ => none
  | bound + 1, bytes => do
      let (line, rest) ← takeLine bytes
      if line = [] then some ([], rest)
      else
        let field ← readField line
        let (fields, rest) ← readFieldsFrom bound rest
        some (field :: fields, rest)

/-- The fields up to the empty line. -/
def readFields (bytes : List Byte) : Option (List Field × List Byte) :=
  readFieldsFrom bytes.length bytes

theorem readField_line {field : Field} (valid : field.Valid) :
    readField (field.name ++ (ascii ": " ++ field.value)) = some field.trimmed := by
  have before : ∀ byte ∈ field.name, decide (byte ≠ colon) = true := by
    intro byte member
    have code := isTokenCode_range ((isToken_iff.mp valid.1).2 byte member)
    apply decide_eq_true
    rintro rfl
    exact code.2.2.2 rfl
  have literal : ascii ": " = [colon, space] := by decide
  have stops : (ascii ": " ++ field.value).takeWhile (· ≠ colon) = [] := by
    rw [literal]
    rfl
  have starts : (ascii ": " ++ field.value).dropWhile (· ≠ colon) =
      colon :: space :: field.value := by
    rw [literal]
    rfl
  rw [readField, List.dropWhile_append_of_pos before, starts]
  dsimp only
  rw [List.takeWhile_append_of_pos before, stops, List.append_nil, if_pos valid.1]
  rfl

theorem length_le_flatMap_line (fields : List Field) :
    fields.length ≤ (fields.flatMap Field.line).length := by
  induction fields with
  | nil => exact Nat.le_refl 0
  | cons field fields ih =>
      have some : 0 < field.line.length := by
        rw [Field.line, List.length_append, List.length_append, List.length_append, lineEnd]
        simp only [List.length_cons]
        omega
      rw [List.flatMap_cons, List.length_append, List.length_cons]
      omega

theorem readFieldsFrom_lines {fields : List Field} (valid : ∀ field ∈ fields, field.Valid)
    (rest : List Byte) {bound : Nat} (enough : fields.length < bound) :
    readFieldsFrom bound (fields.flatMap Field.line ++ (lineEnd ++ rest)) =
      some (fields.map Field.trimmed, rest) := by
  induction fields generalizing bound with
  | nil =>
      cases bound with
      | zero => exact absurd enough (Nat.not_lt_zero _)
      | succ bound => rfl
  | cons field fields ih =>
      cases bound with
      | zero => exact absurd enough (Nat.not_lt_zero _)
      | succ bound =>
          rw [List.forall_mem_cons] at valid
          have unbroken : Unbroken (field.name ++ (ascii ": " ++ field.value)) := by
            rw [unbroken_append, unbroken_append]
            exact ⟨unbroken_of_isToken valid.1.1, by decide, valid.1.2⟩
          have some : field.name ++ (ascii ": " ++ field.value) ≠ [] :=
            List.append_ne_nil_of_left_ne_nil (isToken_iff.mp valid.1.1).1 _
          have layout : (field :: fields).flatMap Field.line ++ (lineEnd ++ rest) =
              (field.name ++ (ascii ": " ++ field.value)) ++
                (lineEnd ++ (fields.flatMap Field.line ++ (lineEnd ++ rest))) := by
            simp only [List.flatMap_cons, Field.line, List.append_assoc]
          rw [layout, readFieldsFrom, takeLine_append unbroken]
          simp only [Option.bind_eq_bind, Option.bind_some, if_neg some, readField_line valid.1]
          rw [ih valid.2 (Nat.lt_of_succ_lt_succ enough)]
          rfl

theorem unbroken_of_readField {line : List Byte} {field : Field} (unbroken : Unbroken line)
    (read : readField line = some field) : Unbroken field.value := by
  rw [readField] at read
  cases behind : line.dropWhile (· ≠ colon) with
  | nil =>
      rw [behind] at read
      cases read
  | cons byte value =>
      rw [behind] at read
      dsimp only at read
      split at read
      · cases read
        rw [unbroken_trimOws]
        apply unbroken.subset
        have suffix := List.dropWhile_suffix (l := line) fun byte => decide (byte ≠ colon)
        rw [behind] at suffix
        exact List.Subset.trans (List.subset_cons_self byte value) suffix.subset
      · cases read

theorem unbroken_of_readFieldsFrom {bound : Nat} {bytes rest : List Byte} {fields : List Field}
    (read : readFieldsFrom bound bytes = some (fields, rest)) :
    ∀ field ∈ fields, Unbroken field.value := by
  induction bound generalizing bytes fields with
  | zero => cases read
  | succ bound ih =>
      rw [readFieldsFrom] at read
      rcases Option.bind_eq_some_iff.mp read with ⟨⟨line, rest'⟩, taken, read⟩
      dsimp only at read
      split at read
      · cases read
        exact fun field member => absurd member List.not_mem_nil
      · rcases Option.bind_eq_some_iff.mp read with ⟨field, one, read⟩
        rcases Option.bind_eq_some_iff.mp read with ⟨⟨fields', rest''⟩, more, same⟩
        cases same
        rw [List.forall_mem_cons]
        constructor
        · exact unbroken_of_readField (unbroken_of_takeLine taken) one
        · exact ih more

/-- A number in decimal digits. -/
def decimal (bytes : List Byte) : Option Nat :=
  if bytes ≠ [] ∧ ∀ byte ∈ bytes, 48 ≤ byte.toNat ∧ byte.toNat ≤ 57 then
    some (bytes.foldl (fun number byte => 10 * number + (byte.toNat - 48)) 0)
  else none

theorem decimal_toString (number : Nat) : decimal (asBytes (toString number)) = some number := by
  have digits : ∀ char ∈ Nat.toDigits 10 number, 48 ≤ char.toNat ∧ char.toNat ≤ 57 := by
    intro char member
    have digit := Nat.isDigit_of_mem_toDigits (by decide) (by decide) member
    simpa [Char.isDigit, UInt32.le_iff_toNat_le] using digit
  have small : ∀ char ∈ Nat.toDigits 10 number, char.toNat < 128 := fun char member =>
    (digits char member).2.trans_lt (by decide)
  have code {char : Char} (member : char ∈ Nat.toDigits 10 number) :
      (BitVec.ofNat 8 char.toNat).toNat = char.toNat := by
    have bound := small char member
    rw [BitVec.toNat_ofNat]
    omega
  rw [Nat.toString_eq_ofList_toDigits, asBytes_ofList small, decimal, if_pos]
  · rw [List.foldl_map]
    have value := @Nat.ofDigitChars_ten_toDigits number
    rw [Nat.ofDigitChars_eq_foldl] at value
    apply congrArg some
    refine (List.foldl_ext _ _ _ fun sum char member => ?_).trans value
    rw [code member]
    rfl
  · constructor
    · exact mt List.map_eq_nil_iff.mp Nat.toDigits_ne_nil
    · intro byte member
      rcases List.mem_map.mp member with ⟨char, inside, rfl⟩
      rw [code inside]
      exact digits char inside

section

variable {bytes : List Byte} {number : Nat} (read : decimal bytes = some number)

include read

theorem digits_of_decimal :
    ∀ byte ∈ bytes, 48 ≤ byte.toNat ∧ byte.toNat ≤ 57 := by
  rw [decimal] at read
  split at read
  case isTrue digits => exact digits.2
  case isFalse => cases read

theorem unbroken_of_decimal :
    Unbroken bytes :=
  ⟨fun member => absurd (digits_of_decimal read _ member) (by decide),
    fun member => absurd (digits_of_decimal read _ member) (by decide)⟩

theorem trimOws_of_decimal :
    trimOws bytes = bytes := by
  apply trimOws_eq_self
  intro byte member
  have digit := digits_of_decimal read byte member
  have notSpace : byte ≠ 32 := by
    rintro rfl
    exact absurd digit (by decide)
  have notTab : byte ≠ 9 := by
    rintro rfl
    exact absurd digit (by decide)
  rw [isOws, decide_eq_false notSpace, decide_eq_false notTab]
  rfl

end

/-- How long the body is: every length that is stated has to be the same, and where none is
stated there is no body. -/
def bodyLength (fields : List Field) : Option Nat :=
  if fields.any (·.isNamed "transfer-encoding") then none
  else
    match (fields.filter (·.isNamed "content-length")).map (decimal ·.value) with
    | [] => some 0
    | length :: lengths => if lengths.all (· = length) then length else none

/-- What is read of a request. -/
structure Request where
  method : List Byte
  target : List Byte
  fields : List Field
  body : List Byte
deriving DecidableEq

/-- The method and the target of a request line. -/
def readRequestLine (line : List Byte) : Option (List Byte × List Byte) :=
  let method := line.takeWhile (· ≠ space)
  let rest := (line.dropWhile (· ≠ space)).drop 1
  let target := rest.takeWhile (· ≠ space)
  if isToken method = true ∧ target ≠ [] ∧ rest.dropWhile (· ≠ space) = ascii " HTTP/1.1" then
    some (method, target)
  else none

/-- The request that the bytes are. -/
def readRequest (bytes : List Byte) : Option Request := do
  let (line, rest) ← takeLine bytes
  let (method, target) ← readRequestLine line
  let (fields, body) ← readFields rest
  if bodyLength fields = some body.length then some ⟨method, target, fields, body⟩ else none

/-- A request target: not empty, and without a space or the end of a line. -/
def IsTarget (target : List Byte) : Prop :=
  target ≠ [] ∧ space ∉ target ∧ Unbroken target

instance (target : List Byte) : Decidable (IsTarget target) :=
  inferInstanceAs (Decidable (_ ∧ _ ∧ _))

theorem readRequestLine_line {method target : List Byte} (token : isToken method = true)
    (isTarget : IsTarget target) :
    readRequestLine (method ++ (space :: (target ++ ascii " HTTP/1.1"))) =
      some (method, target) := by
  have before : ∀ byte ∈ method, decide (byte ≠ space) = true := by
    intro byte member
    have code := isTokenCode_range ((isToken_iff.mp token).2 byte member)
    apply decide_eq_true
    rintro rfl
    exact absurd code.1 (by decide)
  have between : ∀ byte ∈ target, decide (byte ≠ space) = true := by
    intro byte member
    apply decide_eq_true
    rintro rfl
    exact isTarget.2.1 member
  have stop (rest : List Byte) : (space :: rest).takeWhile (· ≠ space) = [] := rfl
  have start (rest : List Byte) : (space :: rest).dropWhile (· ≠ space) = space :: rest := rfl
  have version : ascii " HTTP/1.1" = space :: ascii "HTTP/1.1" := by decide
  rw [readRequestLine, List.takeWhile_append_of_pos before, List.dropWhile_append_of_pos before,
    stop, start, List.append_nil, version]
  rw [List.drop_succ_cons, List.drop_zero, List.takeWhile_append_of_pos between, List.dropWhile_append_of_pos between, stop, start,
    List.append_nil, if_pos ⟨token, isTarget.1, rfl⟩]

theorem isTarget_of_readRequestLine {line method target : List Byte} (unbroken : Unbroken line)
    (read : readRequestLine line = some (method, target)) : IsTarget target := by
  rw [readRequestLine] at read
  split at read
  case isFalse => cases read
  case isTrue well =>
    cases read
    refine ⟨well.2.1, ?_, ?_⟩
    · intro member
      have other := List.mem_takeWhile_imp member
      exact of_decide_eq_true other rfl
    · apply unbroken.subset
      apply List.Subset.trans (List.takeWhile_prefix _).subset
      exact List.Subset.trans (List.drop_subset 1 _) (List.dropWhile_suffix _).subset

/-- A request that is written line by line is read when its body is as long as its fields say. -/
theorem readRequest_lines {method target : List Byte} {fields : List Field}
    (token : isToken method = true) (isTarget : IsTarget target)
    (valid : ∀ field ∈ fields, field.Valid) (body : List Byte) :
    readRequest (method ++ (space :: (target ++ ascii " HTTP/1.1")) ++
        (lineEnd ++ (fields.flatMap Field.line ++ (lineEnd ++ body)))) =
      if bodyLength (fields.map Field.trimmed) = some body.length then
        some ⟨method, target, fields.map Field.trimmed, body⟩
      else none := by
  have unbroken : Unbroken (method ++ (space :: (target ++ ascii " HTTP/1.1"))) := by
    rw [unbroken_append, ← List.singleton_append, unbroken_append, unbroken_append]
    exact ⟨unbroken_of_isToken token, by decide, isTarget.2.2, by decide⟩
  have enough : fields.length < (fields.flatMap Field.line ++ (lineEnd ++ body)).length := by
    have lines := length_le_flatMap_line fields
    rw [List.length_append, List.length_append, lineEnd]
    simp only [List.length_cons]
    omega
  rw [readRequest, takeLine_append unbroken]
  simp only [Option.bind_eq_bind, Option.bind_some, readRequestLine_line token isTarget]
  rw [readFields, readFieldsFrom_lines valid body enough]
  rfl

theorem readRequest_sound {bytes : List Byte} {request : Request}
    (read : readRequest bytes = some request) :
    IsTarget request.target ∧ (∀ field ∈ request.fields, Unbroken field.value) ∧
      bodyLength request.fields = some request.body.length := by
  rw [readRequest] at read
  rcases Option.bind_eq_some_iff.mp read with ⟨⟨line, rest⟩, taken, read⟩
  rcases Option.bind_eq_some_iff.mp read with ⟨⟨method, target⟩, first, read⟩
  rcases Option.bind_eq_some_iff.mp read with ⟨⟨fields, body⟩, more, read⟩
  dsimp only at read
  split at read
  case isFalse => cases read
  case isTrue framed =>
    cases read
    exact ⟨isTarget_of_readRequestLine (unbroken_of_takeLine taken) first,
      unbroken_of_readFieldsFrom more, framed⟩

end Corduit.Http
