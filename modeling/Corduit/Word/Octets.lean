import Corduit.Word.BigEndian

/-!
# Fixed-length byte strings

An array of bytes carries its length in its type, so that a value of a wrong
length cannot be built; a little-endian field is the reverse of a big-endian
one.
-/

namespace Corduit.Word

/-- The bytes of an ASCII literal. -/
def ascii (text : String) : List Byte :=
  text.toList.map fun character => BitVec.ofNat 8 character.toNat

/-- A byte string of a fixed length. -/
structure Octets (count : Nat) where
  bytes : List Byte
  length_bytes : bytes.length = count
deriving DecidableEq

attribute [simp] Octets.length_bytes

namespace Octets

variable {count : Nat}

theorem ext {first second : Octets count} (same : first.bytes = second.bytes) :
    first = second := by
  cases first
  cases second
  cases same
  rfl

/-- One byte repeated. -/
def filled (count : Nat) (byte : Byte) : Octets count :=
  ⟨List.replicate count byte, List.length_replicate⟩

@[simp]
theorem bytes_filled (count : Nat) (byte : Byte) :
    (filled count byte).bytes = List.replicate count byte :=
  rfl

/-- Bytes that are written over an array of zeros. -/
def written (count : Nat) (bytes : List Byte) : Octets count where
  bytes := (bytes ++ List.replicate count 0).take count
  length_bytes := by
    rw [List.length_take_of_le]
    rw [List.length_append, List.length_replicate]
    exact Nat.le_add_left _ _

/-- `copy_from_slice` into an array; the lengths must agree. -/
def copyFrom (count : Nat) (bytes : List Byte) : Option (Octets count) :=
  if fits : bytes.length = count then some ⟨bytes, fits⟩ else none

theorem copyFrom_eq_some_iff {bytes : List Byte} {octets : Octets count} :
    copyFrom count bytes = some octets ↔ octets.bytes = bytes := by
  by_cases fits : bytes.length = count
  · rw [copyFrom, dif_pos fits, Option.some.injEq]
    exact ⟨fun same => same ▸ rfl, fun same => (ext same).symm⟩
  · rw [copyFrom, dif_neg fits]
    refine iff_of_false (by simp) fun same => fits ?_
    rw [← same, length_bytes]

theorem copyFrom_of_length {bytes : List Byte} (fits : bytes.length = count) :
    copyFrom count bytes = some ⟨bytes, fits⟩ :=
  dif_pos fits

@[simp]
theorem copyFrom_bytes (octets : Octets count) : copyFrom count octets.bytes = some octets :=
  copyFrom_eq_some_iff.mpr rfl

/-- A field of a record that is long enough. -/
def field (data : List Byte) (start count : Nat) (long : start + count ≤ data.length) :
    Octets count :=
  ⟨slice data start count, length_slice long⟩

@[simp]
theorem slice_bytes (octets : Octets count) : slice octets.bytes 0 count = octets.bytes := by
  simp [slice]

theorem field_eq_iff {data : List Byte} {start : Nat} {long : start + count ≤ data.length}
    {octets : Octets count} : field data start count long = octets ↔
      slice data start count = octets.bytes :=
  ⟨fun same => same ▸ rfl, fun same => ext same⟩

end Octets

section LittleEndian

variable {w : Nat}

/-- The least significant byte first. -/
def toLeBytes (count : Nat) (value : BitVec w) : List Byte :=
  (toBeBytes count value).reverse

/-- The number that a byte string spells, least significant byte first. -/
def ofLeBytes (bytes : List Byte) : Nat :=
  ofBeBytes bytes.reverse

@[simp]
theorem length_toLeBytes (count : Nat) (value : BitVec w) :
    (toLeBytes count value).length = count := by
  simp [toLeBytes]

theorem ofNat_ofLeBytes {count : Nat} (value : BitVec w) (wide : 2 ^ w ≤ 256 ^ count) :
    BitVec.ofNat w (ofLeBytes (toLeBytes count value)) = value := by
  rw [ofLeBytes, toLeBytes, List.reverse_reverse, ofNat_ofBeBytes value wide]

theorem ofLeBytes_toLeBytes {count : Nat} (value : BitVec w) (wide : 2 ^ w ≤ 256 ^ count) :
    ofLeBytes (toLeBytes count value) = value.toNat := by
  rw [ofLeBytes, toLeBytes, List.reverse_reverse, ofBeBytes_toBeBytes,
    Nat.mod_eq_of_lt (value.isLt.trans_le wide)]

theorem ofLeBytes_lt (bytes : List Byte) : ofLeBytes bytes < 256 ^ bytes.length := by
  have bound := ofBeBytes_lt bytes.reverse
  rwa [List.length_reverse] at bound

theorem ofLeBytes_append (front back : List Byte) :
    ofLeBytes (front ++ back) = ofLeBytes front + 256 ^ front.length * ofLeBytes back := by
  rw [ofLeBytes, List.reverse_append, ofBeBytes_append, List.length_reverse, Nat.add_comm,
    Nat.mul_comm]
  rfl

/-- A part of a byte string spells some of its digits. -/
theorem ofLeBytes_slice {bytes : List Byte} {start count : Nat}
    (inside : start + count ≤ bytes.length) :
    ofLeBytes (slice bytes start count) = ofLeBytes bytes / 256 ^ start % 256 ^ count := by
  have before : (bytes.take start).length = start := List.length_take_of_le (by omega)
  have here : (slice bytes start count).length = count := length_slice inside
  have split : bytes = bytes.take start ++
      (slice bytes start count ++ (bytes.drop start).drop count) := by
    rw [slice, List.take_append_drop, List.take_append_drop]
  have low := ofLeBytes_lt (bytes.take start)
  have middle := ofLeBytes_lt (slice bytes start count)
  rw [before] at low
  rw [here] at middle
  conv => rhs; rw [split, ofLeBytes_append, ofLeBytes_append, before, here]
  rw [Nat.add_mul_div_left _ _ (Nat.pow_pos (by decide)), Nat.div_eq_of_lt low, Nat.zero_add,
    Nat.add_mul_mod_self_left, Nat.mod_eq_of_lt middle]

/-- The least significant byte comes first. -/
theorem toLeBytes_succ (count : Nat) (value : BitVec w) :
    ∃ rest, toLeBytes (count + 1) value = value.setWidth 8 :: rest := by
  have last : ∃ front, toBeBytes (count + 1) value = front ++ [value.setWidth 8] := by
    induction count with
    | zero => exact ⟨[], by simp [toBeBytes]⟩
    | succ count ih =>
        rcases ih with ⟨front, spelt⟩
        exact ⟨_ :: front, by rw [toBeBytes, spelt, List.cons_append]⟩
  rcases last with ⟨front, spelt⟩
  exact ⟨front.reverse, by rw [toLeBytes, spelt, List.reverse_append]; rfl⟩

end LittleEndian

end Corduit.Word
