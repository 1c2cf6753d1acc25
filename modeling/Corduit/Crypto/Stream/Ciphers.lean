import Corduit.Crypto.Stream.Modes
import Corduit.Word.Octets

/-!
# RC4

A permutation of the bytes, scheduled by a key, of which every byte of the
keystream takes one swap.
-/

namespace Corduit.Crypto

open Word

/-- The permutation. -/
abbrev Rc4State :=
  Vector Byte 256

/-- The entry of a byte. -/
def Rc4State.entry (state : Rc4State) (index : Byte) : Byte :=
  state.get index.toFin

/-- `state.swap`. -/
def Rc4State.swap (state : Rc4State) (first second : Byte) : Rc4State :=
  Vector.swap state first.toNat second.toNat first.isLt second.isLt

/-- RC4: its permutation and its two indices. -/
structure Rc4 where
  state : Rc4State
  i : Byte
  j : Byte

namespace Rc4

/-- The key schedule. -/
def new (key : List Byte) : Except InvalidLength Rc4 :=
  if key = [] ∨ key.length > 256 then .error .invalidLength
  else
    let identity : Rc4State := Vector.ofFn fun i => BitVec.ofNat 8 i
    let scheduled := (List.range 256).foldl
      (fun (state, j) i =>
        let i' := BitVec.ofNat 8 i
        let j' := j + Rc4State.entry state i' + key.getD (i % key.length) 0
        (Rc4State.swap state i' j', j'))
      (identity, (0 : Byte))
    .ok ⟨scheduled.1, 0, 0⟩

/-- The next byte of the keystream. -/
def nextByte (cipher : Rc4) : Byte × Rc4 :=
  let i := cipher.i + 1
  let j := cipher.j + cipher.state.entry i
  let state := cipher.state.swap i j
  let index := state.entry i + state.entry j
  (state.entry index, ⟨state, i, j⟩)

/-- The bytes combined with the keystream. -/
def applyKeystream (cipher : Rc4) (buf : List Byte) : List Byte × Rc4 :=
  steps (xorStep nextByte) cipher buf

end Rc4

/-!
# ChaCha20 and Salsa20

Both mix a state of sixteen words into blocks of a keystream; the place of the
counter in the state and its width are what sets the three constructions apart.
-/

/-- A state of sixteen words. -/
abbrev Words :=
  Vector (BitVec 32) 16

namespace Words

/-- The words `expand 32-byte k`. -/
def CONSTANTS : Vector (BitVec 32) 4 := #v[0x61707865, 0x3320646e, 0x79622d32, 0x6b206574]

/-- `load_u32_le`. -/
def loadLe (bytes : List Byte) (offset : Nat) : BitVec 32 :=
  BitVec.ofNat 32 (ofLeBytes (slice bytes offset 4))

/-- The words, least significant byte first. -/
def toBlock (words : Words) : Vector Byte 64 :=
  Vector.ofFn fun k => (words[k.val / 4] >>> (8 * (k.val % 4))).setWidth 8

/-- The sums of the words. -/
def add (first second : Words) : Words :=
  Vector.ofFn fun i => first.get i + second.get i

/-- A counter of two words goes up by one. -/
def countUp (state : Words) (low high : Fin 16) : Words :=
  let next := state.get low + 1
  let state := state.put low next
  if next = 0 then state.put high (state.get high + 1) else state

end Words

/-- A quarter round. -/
def qr (state : Words) (a b c d : Fin 16) : Words :=
  let state := state.put a (state.get a + state.get b)
  let state := state.put d ((state.get d ^^^ state.get a).rotateLeft 16)
  let state := state.put c (state.get c + state.get d)
  let state := state.put b ((state.get b ^^^ state.get c).rotateLeft 12)
  let state := state.put a (state.get a + state.get b)
  let state := state.put d ((state.get d ^^^ state.get a).rotateLeft 8)
  let state := state.put c (state.get c + state.get d)
  state.put b ((state.get b ^^^ state.get c).rotateLeft 7)

/-- Two rounds, over the columns and over the diagonals. -/
def doubleRound (x : Words) : Words :=
  let x := qr x 0 4 8 12
  let x := qr x 1 5 9 13
  let x := qr x 2 6 10 14
  let x := qr x 3 7 11 15
  let x := qr x 0 5 10 15
  let x := qr x 1 6 11 12
  let x := qr x 2 7 8 13
  qr x 3 4 9 14

/-- The block of a state. -/
def coreBlock (state : Words) (rounds : Nat) : Vector Byte 64 :=
  (Words.add ((doubleRound)^[rounds / 2] state) state).toBlock

/-- What `ChaCha20` keeps next to its pending block. -/
structure ChaChaState where
  state : Words
  rounds : Nat
  exhausted : Bool

/-- ChaCha20 with part of a block left. -/
abbrev ChaCha20 :=
  Pending ChaChaState

namespace ChaCha20

/-- A cipher with a number of rounds. -/
def withRounds (key nonce : List Byte) (counter : BitVec 32) (rounds : Nat) : ChaCha20 :=
  let state : Words := Vector.ofFn fun i =>
    if inside : i.val < 4 then Words.CONSTANTS[i.val]
    else if i.val < 12 then Words.loadLe key ((i - 4) * 4)
    else if i.val = 12 then counter
    else Words.loadLe nonce ((i - 13) * 4)
  ⟨⟨state, rounds, false⟩, Vector.replicate 64 0, 0⟩

/-- The cipher of 20 rounds. -/
def new (key nonce : List Byte) (counter : BitVec 32) : ChaCha20 :=
  withRounds key nonce counter 20

/-- `next_block`: the counter stops at its largest value. -/
def nextBlock (cipher : ChaChaState) : Vector Byte 64 × ChaChaState :=
  let out := coreBlock cipher.state cipher.rounds
  if cipher.state.get 12 = BitVec.allOnes 32 then (out, { cipher with exhausted := true })
  else (out, { cipher with state := cipher.state.put 12 (cipher.state.get 12 + 1) })

/-- Whether the counter has run out. -/
def isExhausted (cipher : ChaCha20) : Bool :=
  cipher.state.exhausted

example : (nextBlock (new ((List.range 32).map (BitVec.ofNat 8))
    [0, 0, 0, 9, 0, 0, 0, 0x4a, 0, 0, 0, 0] 1).state).1.toList.take 4 = [0x10, 0xf1, 0xe7, 0xe4] := by
  decide +kernel

/-- The bytes before the last block. -/
def beforeLast : Nat :=
  64 * (2 ^ 32 - 1)

/-- The counter is as far as the keystream, until it stops at the last block. -/
structure Counts (count : Nat) (cipher : ChaCha20) : Prop where
  before : count ≤ beforeLast → cipher.isExhausted = false ∧ cipher.pendingLeft < 64 ∧
    64 * (cipher.state.state.get 12).toNat = count + cipher.pendingLeft
  behind : beforeLast < count → cipher.isExhausted = true

theorem counts_nextByte {count : Nat} {cipher : ChaCha20} (counts : Counts count cipher) :
    Counts (count + 1) (cipher.nextByte nextBlock).2 := by
  have bound := (cipher.state.state.get 12).isLt
  have last : beforeLast + 64 = 64 * 2 ^ 32 := by rfl
  rw [Pending.nextByte]
  by_cases left : 0 < cipher.pendingLeft
  · rw [dif_pos left]
    constructor
    · intro inside
      rcases counts.before (Nat.le_of_succ_le inside) with ⟨fresh, short, place⟩
      exact ⟨fresh, by dsimp only; omega, by dsimp only; omega⟩
    · intro outside
      by_cases before : count ≤ beforeLast
      · rcases counts.before before with ⟨_, short, place⟩
        omega
      · exact counts.behind (Nat.lt_of_not_le before)
  · rw [dif_neg left, nextBlock]
    by_cases stops : cipher.state.state.get 12 = BitVec.allOnes 32
    · rw [if_pos stops]
      constructor
      · intro inside
        rcases counts.before (Nat.le_of_succ_le inside) with ⟨_, _, place⟩
        rw [stops, BitVec.toNat_allOnes] at place
        omega
      · intro _
        rfl
    · rw [if_neg stops]
      have room : (cipher.state.state.get 12).toNat + 1 < 2 ^ 32 := by
        have different : (cipher.state.state.get 12).toNat ≠ (BitVec.allOnes 32).toNat :=
          fun same => stops (BitVec.eq_of_toNat_eq same)
        rw [BitVec.toNat_allOnes] at different
        omega
      have next : ((cipher.state.state.put 12 (cipher.state.state.get 12 + 1)).get 12).toNat =
          (cipher.state.state.get 12).toNat + 1 := by
        have one : (1 : BitVec 32).toNat = 1 := rfl
        rw [Vector.get_put_self, BitVec.toNat_add, one, Nat.mod_eq_of_lt room]
      constructor
      · intro inside
        rcases counts.before (Nat.le_of_succ_le inside) with ⟨fresh, _, place⟩
        refine ⟨fresh, Nat.lt_succ_self 63, ?_⟩
        dsimp only
        rw [next]
        omega
      · intro outside
        by_cases before : count ≤ beforeLast
        · rcases counts.before before with ⟨_, _, place⟩
          omega
        · exact counts.behind (Nat.lt_of_not_le before)

/-- A keystream from the first block on is exhausted behind the first byte of the
last block. -/
theorem isExhausted_iff (key nonce text : List Byte) :
    isExhausted (steps (xorStep (Pending.nextByte nextBlock)) (new key nonce 0) text).2 = true ↔
      beforeLast < text.length := by
  have initially : Counts 0 (new key nonce 0) := by
    refine ⟨fun _ => ⟨rfl, Nat.succ_pos 63, ?_⟩, fun far => absurd far (Nat.not_lt_zero _)⟩
    have zero : (new key nonce 0).state.state.get 12 = 0 := Vector.getElem_ofFn _
    rw [zero]
    rfl
  have counts := steps_xorStep_invariant (fun count cipher => counts_nextByte) initially text
  rw [Nat.zero_add] at counts
  constructor
  · intro exhausted
    by_contra inside
    rw [(counts.before (Nat.le_of_not_lt inside)).1] at exhausted
    cases exhausted
  · exact counts.behind

/-- The block of a counter. -/
def blockAt (key nonce : List Byte) (counter : Nat) : Vector Byte 64 :=
  coreBlock (new key nonce (BitVec.ofNat 32 counter)).state.state 20

theorem counter_new (key nonce : List Byte) (counter : BitVec 32) :
    (new key nonce counter).state.state.get 12 = counter :=
  Vector.getElem_ofFn _

theorem put_new (key nonce : List Byte) (counter counter' : BitVec 32) :
    (new key nonce counter).state.state.put 12 counter' =
      (new key nonce counter').state.state := by
  apply Vector.ext_get
  intro place
  by_cases here : 12 = place
  · rw [← here, Vector.get_put_self, counter_new]
  · have elsewhere : place.val ≠ 12 := fun same => here (Fin.ext same.symm)
    rw [Vector.get_put_ne _ _ here]
    refine (Vector.getElem_ofFn _).trans (Eq.trans ?_ (Vector.getElem_ofFn _).symm)
    simp only [if_neg elsewhere]

/-- The states from a counter on; behind the last block the counter stands still. -/
def row (key nonce : List Byte) (counter : BitVec 32) : BlockRow nextBlock where
  states index :=
    if index < 2 ^ 32 - counter.toNat then
      (new key nonce (BitVec.ofNat 32 (counter.toNat + index))).state
    else { (new key nonce (BitVec.allOnes 32)).state with exhausted := true }
  blocks index := blockAt key nonce (counter.toNat + index)
  count := 2 ^ 32 - counter.toNat
  next index inside := by
    rw [if_pos inside, nextBlock, counter_new]
    by_cases last : index + 1 < 2 ^ 32 - counter.toNat
    · have moves : BitVec.ofNat 32 (counter.toNat + index) ≠ BitVec.allOnes 32 := by
        intro same
        have equal := congrArg BitVec.toNat same
        rw [BitVec.toNat_ofNat, BitVec.toNat_allOnes, Nat.mod_eq_of_lt (by omega)] at equal
        omega
      have counts : BitVec.ofNat 32 (counter.toNat + (index + 1)) =
          BitVec.ofNat 32 (counter.toNat + index) + 1 := BitVec.ofNat_add _ 1
      rw [if_neg moves, if_pos last, put_new, counts]
      rfl
    · have stops : BitVec.ofNat 32 (counter.toNat + index) = BitVec.allOnes 32 := by
        apply BitVec.eq_of_toNat_eq
        rw [BitVec.toNat_ofNat, BitVec.toNat_allOnes, Nat.mod_eq_of_lt (by omega)]
        omega
      rw [if_pos stops, if_neg last, blockAt, stops]
      rfl

/-- The last block is begun. -/
def lastBegun (counter : BitVec 32) (place : Nat) : Bool :=
  64 * (2 ^ 32 - 1 - counter.toNat) < place

theorem isExhausted_at {key nonce : List Byte} {counter : BitVec 32} {place : Nat}
    {cipher : ChaCha20} (here : (row key nonce counter).At place cipher) :
    cipher.isExhausted = lastBegun counter place := by
  have bound := counter.isLt
  rw [isExhausted, here.state, lastBegun]
  change ChaChaState.exhausted (if _ then _ else _) = _
  by_cases inside : (place + 63) / 64 < 2 ^ 32 - counter.toNat
  · rw [if_pos inside]
    exact (decide_eq_false (by omega)).symm
  · rw [if_neg inside]
    exact (decide_eq_true (by omega)).symm

end ChaCha20

/-- ChaCha20 with a 64-bit counter. -/
abbrev ChaCha20Legacy :=
  Pending Words

namespace ChaCha20Legacy

/-- A new cipher, at a block. -/
def new (key nonce : List Byte) (counter : BitVec 64) : ChaCha20Legacy :=
  let state : Words := Vector.ofFn fun i =>
    if inside : i.val < 4 then Words.CONSTANTS[i.val]
    else if i.val < 12 then Words.loadLe key ((i - 4) * 4)
    else if i.val = 12 then counter.setWidth 32
    else if i.val = 13 then (counter >>> 32).setWidth 32
    else Words.loadLe nonce ((i - 14) * 4)
  ⟨state, Vector.replicate 64 0, 0⟩

/-- `next_block`. -/
def nextBlock (state : Words) : Vector Byte 64 × Words :=
  (coreBlock state 20, state.countUp 12 13)

/-- The block of a counter. -/
def blockAt (key nonce : List Byte) (counter : Nat) : Vector Byte 64 :=
  coreBlock (new key nonce (BitVec.ofNat 64 counter)).state 20

theorem low_new (key nonce : List Byte) (counter : BitVec 64) :
    (new key nonce counter).state.get 12 = counter.setWidth 32 :=
  Vector.getElem_ofFn _

theorem high_new (key nonce : List Byte) (counter : BitVec 64) :
    (new key nonce counter).state.get 13 = (counter >>> 32).setWidth 32 :=
  Vector.getElem_ofFn _

theorem counter_succ (counter : BitVec 64) :
    (counter + 1).setWidth 32 = counter.setWidth 32 + 1 ∧
      ((counter + 1) >>> 32).setWidth 32 =
        if counter.setWidth 32 + 1 = 0 then (counter >>> 32).setWidth 32 + 1
        else (counter >>> 32).setWidth 32 := by
  have bound := counter.isLt
  have one : (1 : BitVec 64).toNat = 1 := rfl
  have one' : (1 : BitVec 32).toNat = 1 := rfl
  have zero : counter.setWidth 32 + 1 = 0 ↔ (counter.toNat % 2 ^ 32 + 1) % 2 ^ 32 = 0 := by
    rw [← BitVec.toNat_inj]
    simp
  constructor
  · apply BitVec.eq_of_toNat_eq
    rw [BitVec.toNat_setWidth, BitVec.toNat_add, BitVec.toNat_add, BitVec.toNat_setWidth, one, one']
    omega
  · apply BitVec.eq_of_toNat_eq
    by_cases carries : counter.setWidth 32 + 1 = 0
    · have wraps := zero.mp carries
      rw [if_pos carries]
      simp only [BitVec.toNat_setWidth, BitVec.toNat_add, BitVec.toNat_ushiftRight,
        Nat.shiftRight_eq_div_pow, one, one']
      omega
    · have stays := mt zero.mpr carries
      rw [if_neg carries]
      simp only [BitVec.toNat_setWidth, BitVec.toNat_add, BitVec.toNat_ushiftRight,
        Nat.shiftRight_eq_div_pow, one]
      omega

theorem countUp_new (key nonce : List Byte) (counter : BitVec 64) :
    (new key nonce counter).state.countUp 12 13 = (new key nonce (counter + 1)).state := by
  rcases counter_succ counter with ⟨low, high⟩
  have apart : (12 : Fin 16) ≠ 13 := by decide
  apply Vector.ext_get
  intro place
  rw [Words.countUp, low_new, Vector.get_put_ne _ _ apart, high_new, ← low]
  by_cases isLow : 12 = place
  · rw [← isLow, low_new]
    split
    · rw [Vector.get_put_ne _ _ apart.symm, Vector.get_put_self]
    · rw [Vector.get_put_self]
  by_cases isHigh : 13 = place
  · rw [← isHigh, high_new, high, ← low]
    split
    · rw [Vector.get_put_self]
    · rw [Vector.get_put_ne _ _ apart, high_new]
  · have elsewhere : place.val ≠ 12 ∧ place.val ≠ 13 :=
      ⟨fun same => isLow (Fin.ext same.symm), fun same => isHigh (Fin.ext same.symm)⟩
    have same : (new key nonce counter).state.get place =
        (new key nonce (counter + 1)).state.get place := by
      refine (Vector.getElem_ofFn _).trans (Eq.trans ?_ (Vector.getElem_ofFn _).symm)
      simp only [if_neg elsewhere.1, if_neg elsewhere.2]
    split
    · rw [Vector.get_put_ne _ _ isHigh, Vector.get_put_ne _ _ isLow, same]
    · rw [Vector.get_put_ne _ _ isLow, same]

/-- The states from a counter on. -/
def row (key nonce : List Byte) (counter : BitVec 64) : BlockRow nextBlock where
  states index := (new key nonce (BitVec.ofNat 64 (counter.toNat + index))).state
  blocks index := blockAt key nonce (counter.toNat + index)
  count := 2 ^ 64 - counter.toNat
  next index _ := by
    have counts : BitVec.ofNat 64 (counter.toNat + (index + 1)) =
        BitVec.ofNat 64 (counter.toNat + index) + 1 := BitVec.ofNat_add _ 1
    rw [nextBlock, countUp_new, counts]
    rfl

end ChaCha20Legacy

/-- A quarter round. -/
def quarterRound (state : Words) (a b c d : Fin 16) : Words :=
  let state := state.put b (state.get b ^^^ (state.get a + state.get d).rotateLeft 7)
  let state := state.put c (state.get c ^^^ (state.get b + state.get a).rotateLeft 9)
  let state := state.put d (state.get d ^^^ (state.get c + state.get b).rotateLeft 13)
  state.put a (state.get a ^^^ (state.get d + state.get c).rotateLeft 18)

/-- Two rounds, over the columns and over the rows. -/
def doubleQuarterRound (x : Words) : Words :=
  let x := quarterRound x 0 4 8 12
  let x := quarterRound x 5 9 13 1
  let x := quarterRound x 10 14 2 6
  let x := quarterRound x 15 3 7 11
  let x := quarterRound x 0 1 2 3
  let x := quarterRound x 5 6 7 4
  let x := quarterRound x 10 11 8 9
  quarterRound x 15 12 13 14

/-- Salsa20 with part of a block left. -/
abbrev Salsa20 :=
  Pending Words

namespace Salsa20

/-- A new cipher, at a block. -/
def new (key nonce : List Byte) (counter : BitVec 64) : Salsa20 :=
  let constants := Words.CONSTANTS
  let k := Words.loadLe key
  let n := Words.loadLe nonce
  let state : Words := #v[
    constants.get 0, k 0, k 4, k 8, k 12, constants.get 1, n 0, n 4, counter.setWidth 32,
    (counter >>> 32).setWidth 32, constants.get 2, k 16, k 20, k 24, k 28, constants.get 3]
  ⟨state, Vector.replicate 64 0, 0⟩

/-- `next_block`. -/
def nextBlock (state : Words) : Vector Byte 64 × Words :=
  ((Words.add (doubleQuarterRound^[10] state) state).toBlock, state.countUp 8 9)

example : (nextBlock (new (0x80 :: List.replicate 31 0) (List.replicate 8 0) 0).state).1.toList.take
    4 = [0xe3, 0xbe, 0x8f, 0xdd] := by
  decide +kernel

end Salsa20

end Corduit.Crypto
