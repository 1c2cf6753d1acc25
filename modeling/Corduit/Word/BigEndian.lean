import Mathlib.Tactic.Ring
import Corduit.Word.Machine

/-!
# Big-endian byte strings

A value of a fixed width and the bytes it is written as, most significant byte
first, together with the two operations that programs use to place such bytes
in a buffer and to read them back: overwriting a range and taking a slice.
-/

namespace Corduit.Word

section Values

variable {w : Nat}

/-- The last `count` bytes of a value, most significant first. -/
def toBeBytes : (count : Nat) → BitVec w → List Byte
  | 0, _ => []
  | count + 1, value => (value >>> (8 * count)).setWidth 8 :: toBeBytes count value

/-- The number that a byte string spells. -/
def ofBeBytes (bytes : List Byte) : Nat :=
  bytes.foldl (fun number byte => 256 * number + byte.toNat) 0

@[simp]
theorem length_toBeBytes (count : Nat) (value : BitVec w) :
    (toBeBytes count value).length = count := by
  induction count with
  | zero => rfl
  | succ count ih => simp [toBeBytes, ih]

theorem ofBeBytes_append (front back : List Byte) :
    ofBeBytes (front ++ back) = ofBeBytes front * 256 ^ back.length + ofBeBytes back := by
  induction back using List.reverseRecOn with
  | nil => simp [ofBeBytes]
  | append_singleton back byte ih =>
      have snoc : ∀ bytes : List Byte, ofBeBytes (bytes ++ [byte]) =
          256 * ofBeBytes bytes + byte.toNat := fun bytes => by simp [ofBeBytes]
      rw [← List.append_assoc, snoc, snoc, ih, List.length_append, List.length_singleton,
        Nat.pow_succ]
      ring

theorem ofBeBytes_cons (byte : Byte) (bytes : List Byte) :
    ofBeBytes (byte :: bytes) = byte.toNat * 256 ^ bytes.length + ofBeBytes bytes := by
  have split := ofBeBytes_append [byte] bytes
  simpa [ofBeBytes] using split

/-- Reading back what was written gives the value modulo what fits. -/
theorem ofBeBytes_toBeBytes (count : Nat) (value : BitVec w) :
    ofBeBytes (toBeBytes count value) = value.toNat % 256 ^ count := by
  induction count with
  | zero => simp [toBeBytes, ofBeBytes, Nat.mod_one]
  | succ count ih =>
      have shift : (2 : Nat) ^ (8 * count) = 256 ^ count := by
        rw [Nat.pow_mul]
      have split := Nat.mod_mul (a := 256 ^ count) (b := 256) (x := value.toNat)
      rw [toBeBytes, ofBeBytes_cons, ih, length_toBeBytes, BitVec.toNat_setWidth,
        BitVec.toNat_ushiftRight, Nat.shiftRight_eq_div_pow, shift, Nat.pow_succ 256, split]
      ring

theorem ofNat_ofBeBytes {count : Nat} (value : BitVec w) (wide : 2 ^ w ≤ 256 ^ count) :
    BitVec.ofNat w (ofBeBytes (toBeBytes count value)) = value := by
  rw [ofBeBytes_toBeBytes, Nat.mod_eq_of_lt (value.isLt.trans_le wide), BitVec.ofNat_toNat,
    BitVec.setWidth_eq]

theorem ofBeBytes_lt (bytes : List Byte) : ofBeBytes bytes < 256 ^ bytes.length := by
  induction bytes with
  | nil => simp [ofBeBytes]
  | cons byte bytes ih =>
      have small : byte.toNat < 256 := byte.isLt
      rw [ofBeBytes_cons, List.length_cons, Nat.pow_succ]
      calc byte.toNat * 256 ^ bytes.length + ofBeBytes bytes
          < byte.toNat * 256 ^ bytes.length + 256 ^ bytes.length := by omega
        _ = (byte.toNat + 1) * 256 ^ bytes.length := by ring
        _ ≤ 256 * 256 ^ bytes.length := Nat.mul_le_mul_right _ small
        _ = 256 ^ bytes.length * 256 := Nat.mul_comm _ _

/-- Byte strings of one length that spell the same number are the same. -/
theorem ofBeBytes_inj {first second : List Byte} (length_eq : first.length = second.length)
    (same : ofBeBytes first = ofBeBytes second) : first = second := by
  induction first generalizing second with
  | nil => exact (List.length_eq_zero_iff.mp length_eq.symm).symm
  | cons byte first ih =>
      rcases List.exists_cons_of_length_eq_add_one length_eq.symm with ⟨other, second, rfl⟩
      have rest_eq : first.length = second.length := Nat.succ.inj length_eq
      rw [ofBeBytes_cons, ofBeBytes_cons, rest_eq] at same
      have firstRest : ofBeBytes first < 256 ^ second.length := rest_eq ▸ ofBeBytes_lt first
      have secondRest := ofBeBytes_lt second
      have heads := congrArg (· / 256 ^ second.length) same
      have tails := congrArg (· % 256 ^ second.length) same
      have positive : 0 < 256 ^ second.length := Nat.pow_pos (by decide)
      simp only [Nat.mul_add_mod_self_right, Nat.mod_eq_of_lt, firstRest, secondRest] at tails
      simp only [Nat.mul_comm _ (256 ^ second.length), Nat.mul_add_div positive,
        Nat.div_eq_of_lt, firstRest, secondRest, Nat.add_zero] at heads
      rw [BitVec.eq_of_toNat_eq heads, ih rest_eq tails]

theorem toBeBytes_ofBeBytes {bytes : List Byte} (wide : 256 ^ bytes.length ≤ 2 ^ w) :
    toBeBytes bytes.length (BitVec.ofNat w (ofBeBytes bytes)) = bytes := by
  have small := ofBeBytes_lt bytes
  apply ofBeBytes_inj (length_toBeBytes _ _)
  rw [ofBeBytes_toBeBytes, BitVec.toNat_ofNat, Nat.mod_eq_of_lt (small.trans_le wide),
    Nat.mod_eq_of_lt small]

end Values

/-- Mixing the same bytes in twice changes nothing. -/
theorem zipWith_xor_cancel {first second : List Byte} (long : first.length ≤ second.length) :
    (first.zipWith (· ^^^ ·) second).zipWith (· ^^^ ·) second = first := by
  induction first generalizing second with
  | nil => rfl
  | cons byte first ih =>
      cases second with
      | nil => exact absurd long (Nat.not_succ_le_zero _)
      | cons other second =>
          rw [List.zipWith_cons_cons, List.zipWith_cons_cons, ih (Nat.le_of_succ_le_succ long),
            BitVec.xor_assoc, BitVec.xor_self, BitVec.xor_zero]

section Buffers

variable {α : Type}

/-- The `count` elements from `start` on. -/
def slice (buffer : List α) (start count : Nat) : List α :=
  (buffer.drop start).take count

/-- Copy `bytes` over the buffer from `start` on. -/
def writeAt (buffer : List α) (start : Nat) (bytes : List α) : List α :=
  buffer.take start ++ bytes ++ buffer.drop (start + bytes.length)

variable {block : List α} {start : Nat} {buffer : List α}

theorem writeAt_skip (behind : block.length ≤ start) (rest bytes : List α) :
    writeAt (block ++ rest) start bytes =
      block ++ writeAt rest (start - block.length) bytes := by
  have far : block.length ≤ start + bytes.length := by omega
  simp only [writeAt, List.take_append, List.drop_append, List.take_of_length_le behind,
    List.drop_eq_nil_of_le far, List.nil_append, List.append_assoc]
  congr 4
  omega

theorem writeAt_here {block bytes : List α} (fits : block.length = bytes.length)
    (rest : List α) : writeAt (block ++ rest) 0 bytes = bytes ++ rest := by
  simp [writeAt, ← fits]

theorem length_writeAt {buffer bytes : List α} (fits : start + bytes.length ≤ buffer.length) :
    (writeAt buffer start bytes).length = buffer.length := by
  simp only [writeAt, List.length_append, List.length_take, List.length_drop]
  omega

theorem take_writeAt (inside : start ≤ buffer.length) (bytes : List α) :
    (writeAt buffer start bytes).take (start + bytes.length) = buffer.take start ++ bytes := by
  apply List.take_left'
  rw [List.length_append, List.length_take_of_le inside]

theorem slice_skip (behind : block.length ≤ start) (rest : List α) (count : Nat) :
    slice (block ++ rest) start count = slice rest (start - block.length) count := by
  simp [slice, List.drop_append, List.drop_eq_nil_of_le behind]

theorem slice_here {count : Nat} (fits : block.length = count) (rest : List α) :
    slice (block ++ rest) 0 count = block := by
  simp [slice, ← fits]

theorem length_slice {start count : Nat} (inside : start + count ≤ buffer.length) :
    (slice buffer start count).length = count := by
  rw [slice, List.length_take, List.length_drop]
  omega

theorem slice_slice {start total skip count : Nat} (inside : skip + count ≤ total) :
    slice (slice buffer start total) skip count = slice buffer (start + skip) count := by
  rw [slice, slice, slice, List.drop_take, List.drop_drop, List.take_take,
    Nat.min_eq_left (by omega)]

theorem drop_slice (buffer : List α) (start total skip : Nat) :
    (slice buffer start total).drop skip = slice buffer (start + skip) (total - skip) := by
  rw [slice, slice, List.drop_take, List.drop_drop]

/-- `&buffer[start..stop]`. -/
def range? (buffer : List α) (start stop : Nat) : Option (List α) :=
  if start ≤ stop ∧ stop ≤ buffer.length then some (slice buffer start (stop - start)) else none

section Ranges

variable {buffer : List α} {start stop : Nat}

theorem range?_of_le (ordered : start ≤ stop) (inside : stop ≤ buffer.length) :
    range? buffer start stop = some (slice buffer start (stop - start)) :=
  if_pos ⟨ordered, inside⟩

theorem range?_take (inside : stop ≤ buffer.length) :
    range? buffer 0 stop = some (buffer.take stop) := by
  rw [range?_of_le (Nat.zero_le stop) inside, slice, List.drop_zero, Nat.sub_zero]

theorem range?_drop (inside : start ≤ buffer.length) :
    range? buffer start buffer.length = some (buffer.drop start) := by
  rw [range?_of_le inside (Nat.le_refl _), slice, List.take_of_length_le]
  rw [List.length_drop]

end Ranges

end Buffers

/-!
# Length-prefixed fields

A field of a fixed length, and a field behind its length in big-endian order.
Each is read off the front of a byte string, and what was written is read back
with whatever follows it.
-/

/-- The first bytes and what follows them. -/
def takeExact (count : Nat) (bytes : List Byte) : Option (List Byte × List Byte) :=
  if count ≤ bytes.length then some (bytes.take count, bytes.drop count) else none

/-- The bytes behind a length of `width` bytes and what follows them. -/
def takePrefixed (width : Nat) (bytes : List Byte) : Option (List Byte × List Byte) :=
  (takeExact width bytes).bind fun (length, rest) => takeExact (ofBeBytes length) rest

variable {count width w : Nat} {front length data : List Byte}

theorem takeExact_append (fits : front.length = count) (rest : List Byte) :
    takeExact count (front ++ rest) = some (front, rest) := by
  have enough : count ≤ (front ++ rest).length := by
    rw [List.length_append, fits]
    exact Nat.le_add_right _ _
  rw [takeExact, if_pos enough, List.take_left' fits, List.drop_left' fits]

theorem takePrefixed_append (wide : length.length = width) (spelled : ofBeBytes length = data.length)
    (rest : List Byte) : takePrefixed width (length ++ (data ++ rest)) = some (data, rest) := by
  rw [takePrefixed, takeExact_append wide, Option.bind_some]
  exact takeExact_append spelled.symm rest

/-- A length that its word and its field have room for is what the field says. -/
theorem ofBeBytes_length {number : Nat} (inWord : number < 2 ^ w) (inField : number < 256 ^ width) :
    ofBeBytes (toBeBytes width (BitVec.ofNat w number)) = number := by
  rw [ofBeBytes_toBeBytes, BitVec.toNat_ofNat, Nat.mod_eq_of_lt inWord, Nat.mod_eq_of_lt inField]

/-- What stands behind a length is no longer than the length can say. -/
theorem length_of_takePrefixed {bytes rest : List Byte}
    (taken : takePrefixed width bytes = some (data, rest)) : data.length < 256 ^ width := by
  rcases Option.bind_eq_some_iff.mp taken with ⟨⟨length, behind⟩, first, second⟩
  dsimp only at second
  have narrow : length.length ≤ width := by
    unfold takeExact at first
    split at first
    · cases first
      exact List.length_take_le width bytes
    · cases first
  have small : ofBeBytes length < 256 ^ width :=
    (ofBeBytes_lt length).trans_le (Nat.pow_le_pow_right (by decide) narrow)
  unfold takeExact at second
  split at second
  · cases second
    exact (List.length_take_le _ behind).trans_lt small
  · cases second

end Corduit.Word
