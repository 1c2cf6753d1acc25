import Corduit.Word.BigEndian

/-!
# Layouts

A layout says how a value is written and how it is read off the front of a byte
string, and carries the proofs that what is written is read back with whatever
follows it, and that nothing else is read.  Numbers, byte strings and vectors
behind a length are built up to the layout of a whole message.
-/

namespace Corduit.Word

section

variable {count : Nat} {bytes front rest : List Byte}
  (taken : takeExact count bytes = some (front, rest))

include taken

theorem append_of_takeExact : bytes = front ++ rest := by
  unfold takeExact at taken
  split at taken
  · rcases Prod.mk.inj (Option.some.inj taken) with ⟨rfl, rfl⟩
    exact (List.take_append_drop count bytes).symm
  · cases taken

theorem length_of_takeExact : count = front.length := by
  unfold takeExact at taken
  split at taken
  · rename_i enough
    rcases Prod.mk.inj (Option.some.inj taken) with ⟨rfl, rfl⟩
    exact (List.length_take_of_le enough).symm
  · cases taken

end

theorem append_of_takePrefixed {width w : Nat} {bytes data rest : List Byte}
    (wide : 256 ^ width ≤ 2 ^ w) (taken : takePrefixed width bytes = some (data, rest)) :
    bytes = toBeBytes width (BitVec.ofNat w data.length) ++ (data ++ rest) := by
  rcases Option.bind_eq_some_iff.mp taken with ⟨⟨length, behind⟩, first, second⟩
  have narrow := length_of_takeExact first
  have spelled : ofBeBytes length = data.length := length_of_takeExact second
  rw [append_of_takeExact first, append_of_takeExact second, ← spelled, narrow,
    toBeBytes_ofBeBytes (narrow ▸ wide)]

/-- A way to write values one behind the other. -/
structure Layout (α : Type) where
  write : α → List Byte
  read : List Byte → Option (α × List Byte)
  fits : α → Prop
  read_write : ∀ value rest, fits value → read (write value ++ rest) = some (value, rest)
  write_read : ∀ bytes value rest, read bytes = some (value, rest) →
    bytes = write value ++ rest ∧ fits value

namespace Layout

variable {α β : Type}

/-- A value with nothing behind it. -/
def wholly (layout : Layout α) (bytes : List Byte) : Option α :=
  (layout.read bytes).bind fun (value, rest) => if rest.isEmpty then some value else none

variable {layout : Layout α} {value : α} {bytes : List Byte}

theorem wholly_write (fits : layout.fits value) :
    layout.wholly (layout.write value) = some value := by
  have read := layout.read_write value [] fits
  rw [List.append_nil] at read
  simp [wholly, read]

theorem read_eq_some_iff {bytes rest : List Byte} :
    layout.read bytes = some (value, rest) ↔
      bytes = layout.write value ++ rest ∧ layout.fits value := by
  constructor
  · exact layout.write_read bytes value rest
  · rintro ⟨rfl, fits⟩
    exact layout.read_write value rest fits

theorem wholly_eq_some_iff :
    layout.wholly bytes = some value ↔ bytes = layout.write value ∧ layout.fits value := by
  constructor
  · intro found
    rcases Option.bind_eq_some_iff.mp found with ⟨⟨front, rest⟩, read, whole⟩
    dsimp only at whole
    split at whole
    · rename_i nothing
      obtain rfl := Option.some.inj whole
      obtain rfl := List.isEmpty_iff.mp nothing
      rcases layout.write_read bytes front [] read with ⟨same, fits⟩
      rw [List.append_nil] at same
      exact ⟨same, fits⟩
    · cases whole
  · rintro ⟨rfl, fits⟩
    exact wholly_write fits

theorem wholly_eq_none (broken : ∀ value, layout.read bytes ≠ some (value, [])) :
    layout.wholly bytes = none := by
  unfold wholly
  cases read : layout.read bytes with
  | none => rfl
  | some found =>
      rcases found with ⟨value, rest⟩
      cases rest with
      | nil => exact absurd read (broken value)
      | cons byte rest => simp

/-- Items until nothing is left. -/
def readAll (layout : Layout α) : (bound : Nat) → List Byte → Option (List α)
  | _, [] => some []
  | 0, _ :: _ => none
  | bound + 1, byte :: bytes => do
      let (value, rest) ← layout.read (byte :: bytes)
      let values ← readAll layout bound rest
      return value :: values

/-- Values one behind the other, up to the end. -/
def readMany (layout : Layout α) (bytes : List Byte) : Option (List α) :=
  layout.readAll bytes.length bytes

/-- Values that are read one behind the other: each fits, and none is written as nothing. -/
def AllFit (layout : Layout α) (values : List α) : Prop :=
  ∀ value ∈ values, layout.fits value ∧ layout.write value ≠ []

section

variable {layout : Layout α}

variable {values : List α} {bytes : List Byte}

theorem readAll_flatMap (fit : layout.AllFit values) {bound : Nat}
    (enough : (values.flatMap layout.write).length ≤ bound) :
    layout.readAll bound (values.flatMap layout.write) = some values := by
  induction values generalizing bound with
  | nil => cases bound <;> rfl
  | cons value values ih =>
      rcases fit value List.mem_cons_self with ⟨fits, nonempty⟩
      rcases List.exists_cons_of_ne_nil nonempty with ⟨byte, bytes, written⟩
      have read := layout.read_write value (values.flatMap layout.write) fits
      rw [written, List.cons_append] at read
      rw [List.flatMap_cons, written, List.cons_append] at enough ⊢
      cases bound with
      | zero => simp at enough
      | succ bound =>
          have rest : layout.readAll bound (values.flatMap layout.write) = some values := by
            apply ih (fun other member => fit other (List.mem_cons_of_mem value member))
            rw [List.length_cons, List.length_append] at enough
            omega
          simp [readAll, read, rest]

theorem readMany_flatMap (fit : layout.AllFit values) :
    layout.readMany (values.flatMap layout.write) = some values :=
  readAll_flatMap fit (Nat.le_refl _)

theorem readAll_eq_none {value : α} (nonempty : bytes ≠ [])
    (stuck : layout.read bytes = some (value, bytes)) (bound : Nat) :
    layout.readAll bound bytes = none := by
  rcases List.exists_cons_of_ne_nil nonempty with ⟨byte, rest, rfl⟩
  induction bound with
  | zero => rfl
  | succ bound ih => simp [readAll, stuck, ih]

/-- What is read to the end was written there. -/
theorem flatMap_of_readAll {bound : Nat} (found : layout.readAll bound bytes = some values) :
    bytes = values.flatMap layout.write ∧ layout.AllFit values := by
  induction bound generalizing bytes values with
  | zero =>
      cases bytes with
      | nil =>
          cases found
          exact ⟨rfl, fun value member => absurd member List.not_mem_nil⟩
      | cons byte bytes => cases found
  | succ bound ih =>
      cases bytes with
      | nil =>
          cases found
          exact ⟨rfl, fun value member => absurd member List.not_mem_nil⟩
      | cons byte bytes =>
          rcases Option.bind_eq_some_iff.mp found with ⟨⟨value, rest⟩, read, later⟩
          rcases Option.bind_eq_some_iff.mp later with ⟨others, behind, same⟩
          obtain rfl := Option.some.inj same
          rcases layout.write_read _ _ _ read with ⟨front, fits⟩
          rcases ih behind with ⟨back, fit⟩
          have written : layout.write value ≠ [] := by
            intro nothing
            rw [nothing, List.nil_append] at front
            rw [← front] at read behind
            rw [readAll_eq_none (List.cons_ne_nil _ _) read bound] at behind
            cases behind
          constructor
          · rw [front, List.flatMap_cons, ← back]
          · intro other member
            rcases List.mem_cons.mp member with rfl | member
            · exact ⟨fits, written⟩
            · exact fit other member

theorem flatMap_of_readMany (found : layout.readMany bytes = some values) :
    bytes = values.flatMap layout.write ∧ layout.AllFit values :=
  flatMap_of_readAll found

theorem readMany_eq_none (nonempty : bytes ≠ []) (broken : layout.read bytes = none) :
    layout.readMany bytes = none := by
  rcases List.exists_cons_of_ne_nil nonempty with ⟨byte, rest, rfl⟩
  simp [readMany, readAll, broken]

end

/-- A number in `width` bytes. -/
def number (width : Nat) : Layout Nat where
  write value := toBeBytes width (BitVec.ofNat (8 * width) value)
  read bytes := (takeExact width bytes).map fun (front, rest) => (ofBeBytes front, rest)
  fits value := value < 256 ^ width
  read_write value rest small := by
    have word : value < 2 ^ (8 * width) := by
      rw [Nat.pow_mul]
      exact small
    have spelled := @ofBeBytes_length width _ _ word small
    simp [takeExact_append (length_toBeBytes _ _), spelled]
  write_read bytes value rest found := by
    rcases Option.map_eq_some_iff.mp found with ⟨⟨front, behind⟩, taken, same⟩
    rcases Prod.mk.inj same with ⟨rfl, rfl⟩
    obtain rfl := length_of_takeExact taken
    have word : 256 ^ front.length ≤ 2 ^ (8 * front.length) := by
      rw [Nat.pow_mul]
    constructor
    · rw [append_of_takeExact taken, toBeBytes_ofBeBytes word]
    · exact ofBeBytes_lt front

theorem allFit_number {width : Nat} {values : List Nat}
    (small : ∀ value ∈ values, value < 256 ^ (width + 1)) :
    (number (width + 1)).AllFit values := by
  intro value member
  exact ⟨small value member, List.cons_ne_nil _ _⟩

/-- `count` bytes. -/
def exactly (count : Nat) : Layout (List Byte) where
  write bytes := bytes
  read := takeExact count
  fits bytes := bytes.length = count
  read_write _ rest fits := takeExact_append fits rest
  write_read _ _ _ taken := ⟨append_of_takeExact taken, (length_of_takeExact taken).symm⟩

/-- A list of at least `least` and at most `most` bytes behind its length. -/
def bounded (width least most : Nat) : Layout (List Byte) where
  write bytes := (number width).write bytes.length ++ bytes
  read bytes := (takePrefixed width bytes).bind fun (data, rest) =>
    if least ≤ data.length ∧ data.length ≤ most then some (data, rest) else none
  fits bytes := (least ≤ bytes.length ∧ bytes.length ≤ most) ∧ bytes.length < 256 ^ width
  read_write bytes rest := by
    rintro ⟨bounds, small⟩
    have word : bytes.length < 2 ^ (8 * width) := by
      rw [Nat.pow_mul]
      exact small
    have spelled := @ofBeBytes_length width _ _ word small
    rw [List.append_assoc]
    have taken := takePrefixed_append (length_toBeBytes width _) spelled rest
    simp only [number, taken, Option.bind_some, if_pos bounds]
  write_read bytes value rest found := by
    rcases Option.bind_eq_some_iff.mp found with ⟨⟨data, behind⟩, taken, kept⟩
    dsimp only at kept
    split at kept
    · rename_i bounds
      cases kept
      have word : 256 ^ width ≤ 2 ^ (8 * width) := by
        rw [Nat.pow_mul]
      constructor
      · rw [append_of_takePrefixed word taken, List.append_assoc]
        rfl
      · exact ⟨bounds, length_of_takePrefixed taken⟩
    · cases kept

/-- A length that says no more than it has room for. -/
theorem fits_bounded {width least most : Nat} (least_le : least ≤ bytes.length)
    (le_most : bytes.length ≤ most) (room : most < 256 ^ width) :
    (bounded width least most).fits bytes :=
  ⟨⟨least_le, le_most⟩, le_most.trans_lt room⟩

/-- Values one behind the other, together at least `least` and at most `most` bytes, behind
their length. -/
def vector (width least most : Nat) (item : Layout α) : Layout (List α) where
  write values := (bounded width least most).write (values.flatMap item.write)
  read bytes := ((bounded width least most).read bytes).bind fun (data, rest) =>
    (item.readMany data).map fun values => (values, rest)
  fits values :=
    (bounded width least most).fits (values.flatMap item.write) ∧ item.AllFit values
  read_write values rest := by
    rintro ⟨bounds, fit⟩
    have data := (bounded width least most).read_write _ rest bounds
    simp [data, readMany_flatMap fit]
  write_read bytes values rest found := by
    rcases Option.bind_eq_some_iff.mp found with ⟨⟨data, behind⟩, read, mapped⟩
    rcases Option.map_eq_some_iff.mp mapped with ⟨items, many, same⟩
    rcases Prod.mk.inj same with ⟨rfl, rfl⟩
    rcases flatMap_of_readMany many with ⟨rfl, fit⟩
    rcases (bounded width least most).write_read _ _ _ read with ⟨whole, bounds⟩
    exact ⟨whole, bounds, fit⟩

/-- One value behind the other. -/
def both (first : Layout α) (second : Layout β) : Layout (α × β) where
  write pair := first.write pair.1 ++ second.write pair.2
  read bytes := (first.read bytes).bind fun (front, rest) =>
    (second.read rest).map fun (back, rest) => ((front, back), rest)
  fits pair := first.fits pair.1 ∧ second.fits pair.2
  read_write pair rest := by
    rintro ⟨front, back⟩
    simp [first.read_write _ _ front, second.read_write _ _ back]
  write_read bytes pair rest found := by
    rcases Option.bind_eq_some_iff.mp found with ⟨⟨front, behind⟩, read, mapped⟩
    rcases Option.map_eq_some_iff.mp mapped with ⟨⟨back, end_⟩, later, same⟩
    rcases Prod.mk.inj same with ⟨rfl, rfl⟩
    rcases first.write_read _ _ _ read with ⟨rfl, fits⟩
    rcases second.write_read _ _ _ later with ⟨rfl, fits'⟩
    exact ⟨(List.append_assoc _ _ _).symm, fits, fits'⟩

/-- A record, laid out as its fields are. -/
def through (layout : Layout β) (split : α → β) (build : β → α)
    (build_split : ∀ value, build (split value) = value)
    (split_build : ∀ parts, split (build parts) = parts) : Layout α where
  write value := layout.write (split value)
  read bytes := (layout.read bytes).map fun (parts, rest) => (build parts, rest)
  fits value := layout.fits (split value)
  read_write value rest fits := by
    simp [layout.read_write _ rest fits, build_split]
  write_read bytes value rest found := by
    rcases Option.map_eq_some_iff.mp found with ⟨⟨parts, behind⟩, read, same⟩
    rcases Prod.mk.inj same with ⟨rfl, rfl⟩
    rw [split_build]
    exact layout.write_read _ _ _ read

section Places

variable {width count least most place : Nat} {bytes : List Byte}

theorem takeExact_drop (inside : place + count ≤ bytes.length) :
    takeExact count (bytes.drop place) =
      some (slice bytes place count, bytes.drop (place + count)) := by
  have enough : count ≤ (bytes.drop place).length := by
    rw [List.length_drop]
    omega
  rw [takeExact, if_pos enough, List.drop_drop]
  rfl

theorem number_read_drop (inside : place + width ≤ bytes.length) :
    (number width).read (bytes.drop place) =
      some (ofBeBytes (slice bytes place width), bytes.drop (place + width)) := by
  simp only [number, takeExact_drop inside, Option.map_some]

theorem bounded_read_drop
    (inside : place + width + ofBeBytes (slice bytes place width) ≤ bytes.length)
    (bounds : least ≤ ofBeBytes (slice bytes place width) ∧
      ofBeBytes (slice bytes place width) ≤ most) :
    (bounded width least most).read (bytes.drop place) =
      some (slice bytes (place + width) (ofBeBytes (slice bytes place width)),
        bytes.drop (place + width + ofBeBytes (slice bytes place width))) := by
  have long : (slice bytes (place + width) (ofBeBytes (slice bytes place width))).length =
      ofBeBytes (slice bytes place width) := length_slice inside
  simp only [bounded, takePrefixed, takeExact_drop (Nat.le_of_add_right_le inside),
    takeExact_drop inside, Option.bind_some, long, if_pos bounds]

/-- What is read from behind a length is as long as the length says. -/
theorem length_of_bounded_read {data rest : List Byte}
    (read : (bounded width least most).read bytes = some (data, rest)) :
    ofBeBytes (slice bytes 0 width) = data.length ∧
      bytes.length = width + data.length + rest.length := by
  rcases (bounded width least most).write_read _ _ _ read with ⟨rfl, _, room⟩
  have word : data.length < 2 ^ (8 * width) := by
    rw [Nat.pow_mul]
    exact room
  have front : (bounded width least most).write data ++ rest =
      toBeBytes width (BitVec.ofNat (8 * width) data.length) ++ (data ++ rest) :=
    List.append_assoc _ _ _
  rw [front]
  constructor
  · rw [slice_here (length_toBeBytes width _), ofBeBytes_length word room]
  · simp only [List.length_append, length_toBeBytes]
    omega

end Places

section Broken

variable {width least most : Nat} {item : Layout α} {second : Layout β} {bytes data rest : List Byte}

section

variable {length : List Byte} (wide : length.length = width)

include wide

theorem eq_of_bounded_read
    (read : (bounded width least most).read (length ++ bytes) = some (data, [])) :
    data = bytes := by
  rcases Option.bind_eq_some_iff.mp read with ⟨⟨taken, behind⟩, prefixed, kept⟩
  dsimp only at kept
  split at kept
  · cases kept
    rw [takePrefixed, takeExact_append wide, Option.bind_some] at prefixed
    have whole := append_of_takeExact prefixed
    rwa [List.append_nil, eq_comm] at whole
  · cases kept

/-- When nothing follows a list, its length is what it says. -/
theorem spelled_of_bounded_read
    (read : (bounded width least most).read (length ++ bytes) = some (data, [])) :
    ofBeBytes length = bytes.length := by
  have whole := eq_of_bounded_read wide read
  rcases Option.bind_eq_some_iff.mp read with ⟨⟨taken, behind⟩, prefixed, kept⟩
  dsimp only at kept
  split at kept
  · cases kept
    rw [takePrefixed, takeExact_append wide, Option.bind_some] at prefixed
    rw [length_of_takeExact prefixed, whole]
  · cases kept

/-- A vector whose length does not cover what follows is not read to the end. -/
theorem vector_wholly_eq_none (wrong : ofBeBytes length ≠ bytes.length) :
    (vector width least most item).wholly (length ++ bytes) = none := by
  apply wholly_eq_none
  intro values read
  rcases Option.bind_eq_some_iff.mp read with ⟨⟨taken, behind⟩, whole, mapped⟩
  rcases Option.map_eq_some_iff.mp mapped with ⟨found, many, same⟩
  cases same
  exact wrong (spelled_of_bounded_read wide whole)

theorem readMany_of_vector_read {values : List α}
    (read : (vector width least most item).read (length ++ bytes) = some (values, [])) :
    item.readMany bytes = some values := by
  rcases Option.bind_eq_some_iff.mp read with ⟨⟨taken, behind⟩, whole, mapped⟩
  rcases Option.map_eq_some_iff.mp mapped with ⟨found, many, same⟩
  cases same
  rwa [eq_of_bounded_read wide whole] at many

end

theorem second_of_both_read {first : Layout α} {value : α} (fits : first.fits value)
    {pair : α × β} (read : (first.both second).read (first.write value ++ bytes) = some (pair, rest)) :
    second.read bytes = some (pair.2, rest) := by
  simp only [both, first.read_write value bytes fits, Option.bind_some] at read
  rcases Option.map_eq_some_iff.mp read with ⟨⟨back, behind⟩, later, same⟩
  cases same
  exact later

end Broken

end Layout

end Corduit.Word
