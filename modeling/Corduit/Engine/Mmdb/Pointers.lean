import Corduit.Engine.Mmdb.Walk

/-!
# Pointers of the MMDB format

A pointer is written in one of four classes.  The first three cover consecutive
ranges of values, and the last one all values of 32 bits, so every value has a
shortest encoding, and following it leads to the field at exactly that value.
-/

namespace Corduit.Engine.Mmdb

open Transition Word

/-- The size bits of a pointer's control byte: its class and its high bits. -/
def pointerBits (cls : Fin 4) (high : Fin 8) : Byte :=
  BitVec.ofNat 8 (8 * cls.val + high.val)

/-- The first value of a class. -/
def pointerBias : Fin 4 → Nat
  | 0 => 0
  | 1 => 2048
  | 2 => 526336
  | 3 => 0

/-- The number behind the last value of a class. -/
def pointerStop : Fin 4 → Nat
  | 0 => 2048
  | 1 => 526336
  | 2 => 526336 + 2 ^ 27
  | 3 => 2 ^ 32

/-- The number that the high bits and the payload of a class spell; the last class
ignores the high bits. -/
def pointerNumber (cls : Fin 4) (high : Fin 8) (payload : List Byte) : Nat :=
  if cls = 3 then ofBeBytes payload
  else high.val * 256 ^ (cls.val + 1) + ofBeBytes payload

/-- Every value of five bits is a class and its high bits. -/
theorem pointerBits_surjective (sizeBits : Byte) (five : sizeBits.toNat < 32) :
    ∃ cls high, sizeBits = pointerBits cls high := by
  refine ⟨⟨sizeBits.toNat / 8, by omega⟩, ⟨sizeBits.toNat % 8, by omega⟩, ?_⟩
  apply BitVec.eq_of_toNat_eq
  rw [pointerBits, BitVec.toNat_ofNat]
  dsimp only
  omega

theorem toNat_pointerBits (cls : Fin 4) (high : Fin 8) :
    (pointerBits cls high).toNat = 8 * cls.val + high.val := by
  rw [pointerBits, BitVec.toNat_ofNat, Nat.mod_eq_of_lt (by omega)]

theorem class_pointerBits (cls : Fin 4) (high : Fin 8) :
    (pointerBits cls high >>> 3).toNat = cls.val := by
  rw [BitVec.toNat_ushiftRight, toNat_pointerBits, Nat.shiftRight_eq_div_pow]
  omega

theorem high_pointerBits (cls : Fin 4) (high : Fin 8) :
    (pointerBits cls high &&& 0x07).toNat = high.val := by
  have low : (8 * cls.val + high.val) &&& 7 = (8 * cls.val + high.val) % 8 :=
    Nat.and_two_pow_sub_one_eq_mod _ 3
  have mask : (0x07 : Byte).toNat = 7 := rfl
  rw [BitVec.toNat_and, toNat_pointerBits, mask, low]
  omega

theorem class_cases (cls : Fin 4) : cls = 0 ∨ cls = 1 ∨ cls = 2 ∨ cls = 3 := by
  revert cls
  decide

variable {payload : List Byte}

theorem pointerNumber_lt (cls : Fin 4) (high : Fin 8) (long : payload.length = cls.val + 1) :
    pointerBias cls + pointerNumber cls high payload < pointerStop cls := by
  have small := ofBeBytes_lt payload
  have few := high.isLt
  rw [long] at small
  rcases class_cases cls with rfl | rfl | rfl | rfl <;>
    simp [pointerNumber, pointerBias, pointerStop] at small ⊢ <;> omega

/-- Within a class the number determines what was written, the high bits of the last
class apart. -/
theorem pointerNumber_inj {cls : Fin 4} {high high' : Fin 8} {payload payload' : List Byte}
    (long : payload.length = cls.val + 1) (long' : payload'.length = cls.val + 1)
    (same : pointerNumber cls high payload = pointerNumber cls high' payload') :
    payload = payload' ∧ (cls ≠ 3 → high = high') := by
  have small := ofBeBytes_lt payload
  have small' := ofBeBytes_lt payload'
  rw [long] at small
  rw [long'] at small'
  unfold pointerNumber at same
  by_cases last : cls = 3
  · rw [if_pos last, if_pos last] at same
    exact ⟨ofBeBytes_inj (long.trans long'.symm) same, fun other => absurd last other⟩
  · rw [if_neg last, if_neg last] at same
    have heads := congrArg (· / 256 ^ (cls.val + 1)) same
    have tails := congrArg (· % 256 ^ (cls.val + 1)) same
    have positive : 0 < 256 ^ (cls.val + 1) := Nat.pow_pos (by decide)
    simp only [Nat.mul_add_mod_self_right, Nat.mod_eq_of_lt, small, small'] at tails
    simp only [Nat.mul_comm _ (256 ^ (cls.val + 1)), Nat.mul_add_div positive, Nat.div_eq_of_lt,
      small, small', Nat.add_zero] at heads
    exact ⟨ofBeBytes_inj (long.trans long'.symm) tails, fun _ => Fin.ext heads⟩

theorem shiftLeft_or {number : Nat} (high count : Nat) (small : number < 2 ^ count) :
    high <<< count ||| number = high * 2 ^ count + number := by
  rw [Nat.shiftLeft_eq, Nat.mul_comm, Nat.two_pow_add_eq_or_of_lt small]

/-- A pointer is read from its payload, whatever follows. -/
theorem readPointer_append (cls : Fin 4) (high : Fin 8) (long : payload.length = cls.val + 1)
    (rest : List Byte) :
    readPointer (pointerBits cls high) (payload ++ rest) =
      .ok (pointerBias cls + pointerNumber cls high payload, cls.val + 1) := by
  have few := high.isLt
  unfold readPointer
  rw [class_pointerBits, high_pointerBits]
  match cls, payload, long with
  | 0, [first], _ =>
      have whole := shiftLeft_or high.val 8 first.isLt
      simp [get, Checked.okOr, pointerNumber, pointerBias, ofBeBytes, whole]
  | 1, [first, second], _ =>
      have small := first.isLt
      have small' := second.isLt
      have word : first.toNat <<< 8 ||| second.toNat = first.toNat * 256 + second.toNat :=
        shiftLeft_or first.toNat 8 small'
      have whole := shiftLeft_or high.val 16
        (by omega : first.toNat * 256 + second.toNat < 2 ^ 16)
      simp only [get, Checked.okOr, List.cons_append, List.getElem?_cons_zero,
        List.getElem?_cons_succ, Checked.ok_bind, word, whole, Fin.val_one]
      rw [Checked.add_of_lt (by omega), Checked.ok_bind]
      simp [pointerNumber, pointerBias, ofBeBytes, pure, Except.pure]
      omega
  | 2, [first, second, third], _ =>
      have small := first.isLt
      have small' := second.isLt
      have small'' := third.isLt
      have word : second.toNat <<< 8 ||| third.toNat = second.toNat * 256 + third.toNat :=
        shiftLeft_or second.toNat 8 small''
      have word' := shiftLeft_or first.toNat 16
        (by omega : second.toNat * 256 + third.toNat < 2 ^ 16)
      have whole := shiftLeft_or high.val 24
        (by omega : first.toNat * 2 ^ 16 + (second.toNat * 256 + third.toNat) < 2 ^ 24)
      simp only [get, Checked.okOr, List.cons_append, List.getElem?_cons_zero,
        List.getElem?_cons_succ, Checked.ok_bind, Nat.or_assoc, word, word', whole, Fin.val_two]
      rw [Checked.add_of_lt (by omega), Checked.ok_bind]
      simp [pointerNumber, pointerBias, ofBeBytes, pure, Except.pure]
      omega
  | 3, [first, second, third, fourth], _ => simp [pointerNumber, pointerBias]

theorem readPointer_short (cls : Fin 4) (high : Fin 8) (short : payload.length < cls.val + 1) :
    readPointer (pointerBits cls high) payload = missing := by
  unfold readPointer
  rw [class_pointerBits, high_pointerBits]
  match cls, payload, short with
  | 0, [], _ => rfl
  | 1, [], _ => rfl
  | 1, [_], _ => rfl
  | 2, [], _ => rfl
  | 2, [_], _ => rfl
  | 2, [_, _], _ => rfl
  | 3, payload, short => exact if_neg (Nat.not_le_of_lt short)

section Spelling

variable {cls : Fin 4} {value : Nat}

/-- The high bits that a class spells a value with. -/
def spelledHigh (cls : Fin 4) (value : Nat) : Fin 8 :=
  Fin.ofNat 8 ((value - pointerBias cls) / 256 ^ (cls.val + 1))

/-- The payload that a class spells a value with. -/
def spelledPayload (cls : Fin 4) (value : Nat) : List Byte :=
  toBeBytes (cls.val + 1) (BitVec.ofNat 32 (value - pointerBias cls))

theorem pointerNumber_spelled (least : pointerBias cls ≤ value) (most : value < pointerStop cls) :
    pointerBias cls + pointerNumber cls (spelledHigh cls value) (spelledPayload cls value) =
      value := by
  rw [pointerNumber, spelledHigh, spelledPayload, ofBeBytes_toBeBytes, BitVec.toNat_ofNat]
  rcases class_cases cls with rfl | rfl | rfl | rfl <;>
    simp [pointerBias, pointerStop, Fin.ofNat] at least most ⊢ <;> omega

/-- The class of the shortest encoding of a value. -/
def shortestClass (value : Nat) : Fin 4 :=
  if value < pointerStop 0 then 0
  else if value < pointerStop 1 then 1
  else if value < pointerStop 2 then 2
  else 3

theorem bias_shortestClass (value : Nat) : pointerBias (shortestClass value) ≤ value := by
  unfold shortestClass
  split_ifs with first second third
  · exact Nat.zero_le _
  · exact Nat.le_of_not_lt first
  · exact Nat.le_of_not_lt second
  · exact Nat.zero_le _

theorem lt_stop_shortestClass (fits : value < 2 ^ 32) :
    value < pointerStop (shortestClass value) := by
  unfold shortestClass
  split_ifs with first second third
  · exact first
  · exact second
  · exact third
  · exact fits

theorem shortestClass_le (most : value < pointerStop cls) : shortestClass value ≤ cls := by
  unfold shortestClass
  rcases class_cases cls with rfl | rfl | rfl | rfl
  · rw [if_pos most]
  · split_ifs
    · decide
    · exact le_refl _
  · split_ifs
    · decide
    · decide
    · exact le_refl _
  · exact Fin.le_last _

/-- A pointer field: a control byte with the type of pointers, and the payload. -/
def pointerField (cls : Fin 4) (high : Fin 8) (payload : List Byte) : List Byte :=
  (0x20 ||| pointerBits cls high) :: payload

/-- The shortest pointer to a value. -/
def encodePointer (value : Nat) : List Byte :=
  pointerField (shortestClass value) (spelledHigh (shortestClass value) value)
    (spelledPayload (shortestClass value) value)

theorem length_encodePointer (value : Nat) :
    (encodePointer value).length = (shortestClass value).val + 2 := by
  rw [encodePointer, pointerField, List.length_cons, spelledPayload, length_toBeBytes]

end Spelling

section Following

variable {data : Blob} {front behind payload : List Byte} {cls : Fin 4} {high : Fin 8}

theorem control_pointerBits (cls : Fin 4) (high : Fin 8) :
    ((0x20 ||| pointerBits cls high) >>> 5).toNat = 1 ∧
      (0x20 ||| pointerBits cls high) &&& 0x1F = pointerBits cls high := by
  revert cls high
  decide +kernel

theorem fieldType_pointer
    (placed : data.bytes = front ++ (pointerField cls high payload ++ behind)) :
    fieldType data front.length = .ok (1, pointerBits cls high, front.length + 1) := by
  have found : data.bytes[front.length]? = some (0x20 ||| pointerBits cls high) := by
    rw [placed, List.getElem?_append_right (Nat.le_refl _), Nat.sub_self]
    rfl
  have inside := (List.getElem?_eq_some_iff.mp found).1
  rcases control_pointerBits cls high with ⟨pointer, bits⟩
  rw [fieldType, get_eq_ok_iff.mpr found, Checked.ok_bind, add_place (Nat.le_of_lt inside) (by decide),
    Checked.ok_bind, pointer, bits]
  rfl

theorem pointerTarget_pointer {ptrBase depth : Nat} (long : payload.length = cls.val + 1)
    (placed : data.bytes = front ++ (pointerField cls high payload ++ behind))
    (shallow : depth < MAX_DEPTH)
    (inside : ptrBase + (pointerBias cls + pointerNumber cls high payload) < data.bytes.length) :
    pointerTarget data ptrBase depth (pointerBits cls high) (front.length + 1) =
      .ok (ptrBase + (pointerBias cls + pointerNumber cls high payload), cls.val + 1) := by
  have short := data.short
  have behind_eq : rest data (front.length + 1) = .ok (payload ++ behind) := by
    rw [rest, placed, if_pos (by simp [pointerField]), List.drop_append, pointerField]
    simp
  rw [pointerTarget, behind_eq, Checked.ok_bind, readPointer_append cls high long, Checked.ok_bind]
  dsimp only
  rw [if_neg (Nat.not_le_of_lt shallow), if_neg (by rw [usizeMax]; omega),
    if_neg (Nat.not_le_of_lt inside)]
  rfl

/-- A field in the middle of a decode, with the levels that its depth leaves. -/
def readAt (data : Blob) (ptrBase offset : Nat) (state : DecodeState) :
    Decoded (DataValue × Nat) :=
  readValue data ptrBase (MAX_DEPTH + 1 - state.depth) offset state

/-- A pointer stands for the field that it leads to, and decoding goes on behind the
pointer. -/
theorem readAt_pointer {ptrBase : Nat} {state : DecodeState} (long : payload.length = cls.val + 1)
    (placed : data.bytes = front ++ (pointerField cls high payload ++ behind))
    (more : state.values < MAX_DECODED_VALUES) (shallow : state.depth < MAX_DEPTH)
    (inside : ptrBase + (pointerBias cls + pointerNumber cls high payload) < data.bytes.length) :
    (readAt data ptrBase front.length state).1 =
      (readAt data ptrBase (ptrBase + (pointerBias cls + pointerNumber cls high payload))
        ⟨state.depth + 1, state.values + 1⟩).1.map fun found =>
          (found.1, front.length + (pointerField cls high payload).length) := by
  have levels_eq : MAX_DEPTH + 1 - state.depth = (MAX_DEPTH + 1 - (state.depth + 1)) + 1 := by
    omega
  have target := pointerTarget_pointer long placed shallow inside
  have follows := @readValue_follows data ptrBase (state.depth + 1)
    (MAX_DEPTH + 1 - (state.depth + 1)) (by omega) (by omega)
  generalize ptrBase + (pointerBias cls + pointerNumber cls high payload) = goal at *
  have deep := (follows goal (state.values + 1) more).deep
  unfold readAt
  rw [levels_eq, readValue, readField, if_neg (Nat.not_le_of_lt more)]
  dsimp only
  rw [fieldType_pointer placed]
  dsimp only
  rw [if_pos rfl, target]
  dsimp only
  generalize readValue data ptrBase (MAX_DEPTH + 1 - (state.depth + 1)) goal
    ⟨state.depth + 1, state.values + 1⟩ = decoded at deep ⊢
  rcases decoded with ⟨resolved, state'⟩
  dsimp only at deep ⊢
  have ascends : ascend state' = .ok { state' with depth := state'.depth - 1 } := by
    rw [ascend, Checked.sub_of_le (by omega), Checked.ok_bind]
    rfl
  have stop : (Checked.add 64 (front.length + 1) (cls.val + 1) : Try Nat) =
      .ok (front.length + (pointerField cls high payload).length) := by
    have inside' : front.length + 1 ≤ data.bytes.length := by
      rw [placed]
      simp [pointerField]
    rw [add_place inside' (by omega), pointerField, List.length_cons, long, Nat.add_assoc,
      Nat.add_comm 1]
  rw [ascends]
  dsimp only
  rw [stop]
  cases resolved with
  | error halt => rfl
  | ok found => rfl

end Following

/-- A class and its high bits read a payload of their own length as the value,
whatever follows it. -/
def ReadsAs (cls : Fin 4) (high : Fin 8) (payload : List Byte) (value : Nat) : Prop :=
  payload.length = cls.val + 1 ∧
    ∀ rest, readPointer (pointerBits cls high) (payload ++ rest) = .ok (value, cls.val + 1)

theorem readsAs_iff {cls : Fin 4} {high : Fin 8} {value : Nat} :
    ReadsAs cls high payload value ↔
      payload.length = cls.val + 1 ∧ pointerBias cls + pointerNumber cls high payload = value := by
  refine and_congr_right fun long => ⟨fun reads => ?_, fun value_eq rest => ?_⟩
  · have read := reads []
    rw [readPointer_append cls high long] at read
    cases read
    rfl
  · rw [readPointer_append cls high long, value_eq]

theorem exists_readsAs_iff (cls : Fin 4) (value : Nat) :
    (∃ high payload, ReadsAs cls high payload value) ↔
      pointerBias cls ≤ value ∧ value < pointerStop cls := by
  constructor
  · rintro ⟨high, payload, reads⟩
    rcases readsAs_iff.mp reads with ⟨long, rfl⟩
    exact ⟨Nat.le_add_right _ _, pointerNumber_lt cls high long⟩
  · rintro ⟨least, most⟩
    exact ⟨spelledHigh cls value, spelledPayload cls value,
      readsAs_iff.mpr ⟨length_toBeBytes _ _, pointerNumber_spelled least most⟩⟩

/-- The four classes of pointers: what is read of a payload, which values each class
has, and where the shortest pointer to a value leads. -/
structure ClassesTile : Prop where
  classified : ∀ sizeBits : Byte, sizeBits.toNat < 32 → ∃ cls high, sizeBits = pointerBits cls high
  consumed : ∀ cls high payload, payload.length = cls.val + 1 →
    ∃ value, ReadsAs cls high payload value
  truncated : ∀ cls high payload, payload.length < cls.val + 1 →
    readPointer (pointerBits cls high) payload = missing
  injective : ∀ cls high high' payload payload' value, ReadsAs cls high payload value →
    ReadsAs cls high' payload' value → payload = payload' ∧ (cls ≠ 3 → high = high')
  first : ∀ value, (∃ high payload, ReadsAs 0 high payload value) ↔ value < 2048
  second : ∀ value, (∃ high payload, ReadsAs 1 high payload value) ↔
    2048 ≤ value ∧ value < 526336
  third : ∀ value, (∃ high payload, ReadsAs 2 high payload value) ↔
    526336 ≤ value ∧ value < 526336 + 2 ^ 27
  last : ∀ value, (∃ high payload, ReadsAs 3 high payload value) ↔ value < 2 ^ 32
  shortest : ∀ value, value < 2 ^ 32 → ∃ cls high payload,
    encodePointer value = pointerField cls high payload ∧ ReadsAs cls high payload value ∧
      ∀ cls' high' payload', ReadsAs cls' high' payload' value →
        (encodePointer value).length ≤ (pointerField cls' high' payload').length
  followed : ∀ (value : Nat) (data : Blob) (front behind : List Byte) (ptrBase : Nat)
    (state : DecodeState), value < 2 ^ 32 →
    data.bytes = front ++ (encodePointer value ++ behind) →
    ptrBase + value < data.bytes.length → state.values < MAX_DECODED_VALUES →
    state.depth < MAX_DEPTH →
    (readAt data ptrBase front.length state).1 =
      (readAt data ptrBase (ptrBase + value) ⟨state.depth + 1, state.values + 1⟩).1.map
        fun found => (found.1, front.length + (encodePointer value).length)

theorem readsAs_shortest {value : Nat} (fits : value < 2 ^ 32) :
    ReadsAs (shortestClass value) (spelledHigh (shortestClass value) value)
      (spelledPayload (shortestClass value) value) value :=
  readsAs_iff.mpr ⟨length_toBeBytes _ _,
    pointerNumber_spelled (bias_shortestClass value) (lt_stop_shortestClass fits)⟩

/-- The classes of pointers tile the values of 32 bits, and a reader that follows the
shortest pointer to a value decodes the field there and goes on behind the pointer. -/
theorem pointer_classes_tile : ClassesTile where
  classified := pointerBits_surjective
  consumed cls high payload long := ⟨_, readsAs_iff.mpr ⟨long, rfl⟩⟩
  truncated cls high payload short := readPointer_short cls high short
  injective cls high high' payload payload' value reads reads' := by
    rcases readsAs_iff.mp reads with ⟨long, value_eq⟩
    rcases readsAs_iff.mp reads' with ⟨long', value_eq'⟩
    exact pointerNumber_inj long long' (by omega)
  first value := (exists_readsAs_iff 0 value).trans (by simp [pointerBias, pointerStop])
  second value := exists_readsAs_iff 1 value
  third value := exists_readsAs_iff 2 value
  last value := (exists_readsAs_iff 3 value).trans (by simp [pointerBias, pointerStop])
  shortest value fits := by
    refine ⟨_, _, _, rfl, readsAs_shortest fits, ?_⟩
    intro cls' high' payload' reads
    have reached := ((exists_readsAs_iff cls' value).mp ⟨high', payload', reads⟩).2
    have least : (shortestClass value).val ≤ cls'.val := shortestClass_le reached
    rw [length_encodePointer, pointerField, List.length_cons, reads.1]
    omega
  followed value data front behind ptrBase state fits placed inside more shallow := by
    rcases readsAs_iff.mp (readsAs_shortest fits) with ⟨long, value_eq⟩
    have followed := readAt_pointer long placed more shallow (value_eq.symm ▸ inside)
    rw [value_eq] at followed
    exact followed

end Corduit.Engine.Mmdb
