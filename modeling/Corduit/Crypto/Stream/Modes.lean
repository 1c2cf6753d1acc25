import Corduit.Crypto.Aead

/-!
# Stream ciphers

A stream cipher turns one byte after another and keeps its place in between, so
that it does not matter where a text is cut.  Most of them combine the text with
a keystream, and some of these make their keystream in blocks of 64 bytes, of
which they keep what is left.
-/

namespace Corduit.Crypto

open Word

universe u

variable {σ : Type u}

/-- One byte of a cipher. -/
abbrev ByteStep (σ : Type u) :=
  σ → Byte → Byte × σ

/-- The bytes of a text in turn. -/
def steps (step : ByteStep σ) : σ → List Byte → List Byte × σ
  | state, [] => ([], state)
  | state, byte :: text =>
      match step state byte with
      | (out, state') =>
          match steps step state' text with
          | (outs, last) => (out :: outs, last)

theorem steps_cons (step : ByteStep σ) (state : σ) (byte : Byte) (text : List Byte) :
    steps step state (byte :: text) =
      ((step state byte).1 :: (steps step (step state byte).2 text).1,
        (steps step (step state byte).2 text).2) :=
  rfl

theorem steps_append (step : ByteStep σ) (state : σ) (front back : List Byte) :
    steps step state (front ++ back) =
      ((steps step state front).1 ++ (steps step (steps step state front).2 back).1,
        (steps step (steps step state front).2 back).2) := by
  induction front generalizing state with
  | nil => rfl
  | cons byte front ih => rw [List.cons_append, steps_cons, ih, steps_cons, List.cons_append]

@[simp]
theorem length_steps (step : ByteStep σ) (state : σ) (text : List Byte) :
    (steps step state text).1.length = text.length := by
  induction text generalizing state with
  | nil => rfl
  | cons byte text ih => rw [steps_cons, List.length_cons, ih, List.length_cons]

/-- A step that takes back every other step, as long as an invariant holds, takes
back every text. -/
theorem steps_inverse {forward backward : ByteStep σ} {invariant : σ → Prop}
    (back : ∀ state byte, invariant state →
      backward state (forward state byte).1 = (byte, (forward state byte).2) ∧
        invariant (forward state byte).2)
    {state : σ} (holds : invariant state) (text : List Byte) :
    steps backward state (steps forward state text).1 = (text, (steps forward state text).2) := by
  induction text generalizing state with
  | nil => rfl
  | cons byte text ih =>
      rw [steps_cons, steps_cons, (back state byte holds).1, ih (back state byte holds).2]

theorem steps_invariant {step : ByteStep σ} {invariant : σ → Prop}
    (kept : ∀ state byte, invariant state → invariant (step state byte).2)
    {state : σ} (holds : invariant state) (text : List Byte) :
    invariant (steps step state text).2 := by
  induction text generalizing state with
  | nil => exact holds
  | cons byte text ih => exact ih (kept state byte holds)

theorem steps_embed {τ : Type u} {step : ByteStep σ} {step' : ByteStep τ} {embed : σ → τ}
    (same : ∀ state byte, step' (embed state) byte =
      ((step state byte).1, embed (step state byte).2))
    (state : σ) (text : List Byte) :
    steps step' (embed state) text = ((steps step state text).1, embed (steps step state text).2) := by
  induction text generalizing state with
  | nil => rfl
  | cons byte text ih => rw [steps_cons, same, ih, steps_cons]

/-- A byte is combined with the next one of the keystream. -/
def xorStep (next : σ → Byte × σ) : ByteStep σ := fun state byte =>
  (byte ^^^ (next state).1, (next state).2)

theorem xorStep_inverse (next : σ → Byte × σ) (state : σ) (byte : Byte) :
    xorStep next state (xorStep next state byte).1 = (byte, (xorStep next state byte).2) := by
  rw [xorStep, xorStep, BitVec.xor_assoc, BitVec.xor_self, BitVec.xor_zero]

theorem steps_xorStep_invariant {next : σ → Byte × σ} {property : Nat → σ → Prop}
    (step : ∀ count state, property count state → property (count + 1) (next state).2)
    {count : Nat} {state : σ} (holds : property count state) (text : List Byte) :
    property (count + text.length) (steps (xorStep next) state text).2 := by
  induction text generalizing count state with
  | nil => exact holds
  | cons byte text ih =>
      rw [steps_cons, List.length_cons, Nat.add_comm text.length, ← Nat.add_assoc]
      exact ih (step count state holds)

/-- A generator of blocks with the block that is being used up. -/
structure Pending (σ : Type u) where
  state : σ
  pending : Vector Byte 64
  pendingLeft : Nat

namespace Pending

/-- The first loop of `apply_keystream`: what is left of a block.  It ends with
the bytes that are still to come. -/
def finish : Pending σ → List Byte → List Byte × Pending σ × List Byte
  | cipher, [] => ([], cipher, [])
  | cipher, byte :: text =>
      if left : 0 < cipher.pendingLeft then
        match finish { cipher with pendingLeft := cipher.pendingLeft - 1 } text with
        | (outs, last, rest) =>
            ((byte ^^^ cipher.pending[64 - cipher.pendingLeft]) :: outs, last, rest)
      else ([], cipher, byte :: text)

variable (nextBlock : σ → Vector Byte 64 × σ)

/-- The second loop: a new block in every turn; as many turns as there are bytes
are enough. -/
def wholeBlocks : (turns : Nat) → Pending σ → List Byte → List Byte × Pending σ
  | 0, cipher, _ => ([], cipher)
  | turns + 1, cipher, text =>
      if text.isEmpty then ([], cipher)
      else
        match nextBlock cipher.state with
        | (block, state) =>
            let take := min text.length 64
            match wholeBlocks turns ⟨state, block, 64 - take⟩ (text.drop take) with
            | (outs, last) =>
                (List.zipWith (· ^^^ ·) (text.take take) block.toList ++ outs, last)

/-- `apply_keystream`. -/
def applyKeystream (cipher : Pending σ) (text : List Byte) : List Byte × Pending σ :=
  match finish cipher text with
  | (front, cipher', rest) =>
      match wholeBlocks nextBlock rest.length cipher' rest with
      | (back, last) => (front ++ back, last)

/-- The keystream byte by byte. -/
def nextByte (cipher : Pending σ) : Byte × Pending σ :=
  if left : 0 < cipher.pendingLeft then
    (cipher.pending[64 - cipher.pendingLeft],
      { cipher with pendingLeft := cipher.pendingLeft - 1 })
  else
    match nextBlock cipher.state with
    | (block, state) => (block[0], ⟨state, block, 63⟩)

variable {nextBlock} {cipher : Pending σ}

theorem steps_of_left {text : List Byte} (inside : text.length ≤ cipher.pendingLeft)
    (within : cipher.pendingLeft ≤ 64) :
    steps (xorStep (nextByte nextBlock)) cipher text =
      (List.zipWith (· ^^^ ·) text (cipher.pending.toList.drop (64 - cipher.pendingLeft)),
        { cipher with pendingLeft := cipher.pendingLeft - text.length }) := by
  induction text generalizing cipher with
  | nil => rfl
  | cons byte text ih =>
      have left : 0 < cipher.pendingLeft := Nat.lt_of_lt_of_le (Nat.succ_pos _) inside
      have start : 64 - cipher.pendingLeft < cipher.pending.toList.length := by
        rw [Vector.length_toList]
        omega
      have one : xorStep (nextByte nextBlock) cipher byte =
          (byte ^^^ cipher.pending[64 - cipher.pendingLeft],
            { cipher with pendingLeft := cipher.pendingLeft - 1 }) := by
        rw [xorStep, nextByte, dif_pos left]
      have next : 64 - (cipher.pendingLeft - 1) = 64 - cipher.pendingLeft + 1 := by omega
      rw [List.length_cons] at inside
      have rest := @ih { cipher with pendingLeft := cipher.pendingLeft - 1 }
        (Nat.le_sub_of_add_le inside) (Nat.le_trans (Nat.sub_le _ _) within)
      dsimp only at rest
      rw [steps_cons, one, rest, next, List.drop_eq_getElem_cons start, List.zipWith_cons_cons,
        List.length_cons, Nat.sub_sub, Nat.add_comm 1, Vector.getElem_toList]

theorem finish_spec (nextBlock : σ → Vector Byte 64 × σ) (cipher : Pending σ)
    (text : List Byte) :
    ∃ front cipher' rest back, finish cipher text = (front, cipher', rest) ∧
      text = back ++ rest ∧ steps (xorStep (nextByte nextBlock)) cipher back = (front, cipher') ∧
      (rest ≠ [] → cipher'.pendingLeft = 0) := by
  induction text generalizing cipher with
  | nil => exact ⟨[], cipher, [], [], rfl, rfl, rfl, fun some => absurd rfl some⟩
  | cons byte text ih =>
      rw [finish]
      by_cases left : 0 < cipher.pendingLeft
      · rw [dif_pos left]
        rcases ih { cipher with pendingLeft := cipher.pendingLeft - 1 } with
          ⟨front, cipher', rest, back, finished, split, same, usedUp⟩
        refine ⟨_, _, _, byte :: back, by rw [finished], by rw [split]; rfl, ?_, usedUp⟩
        rw [steps_cons, xorStep, nextByte, dif_pos left, same]
      · rw [dif_neg left]
        exact ⟨[], cipher, byte :: text, [], rfl, rfl, rfl,
          fun _ => Nat.eq_zero_of_not_pos left⟩

theorem wholeBlocks_eq {turns : Nat} {text : List Byte} (enough : text.length ≤ turns)
    (empty : text ≠ [] → cipher.pendingLeft = 0) :
    wholeBlocks nextBlock turns cipher text = steps (xorStep (nextByte nextBlock)) cipher text := by
  induction turns generalizing cipher text with
  | zero =>
      rw [List.length_eq_zero_iff.mp (Nat.le_zero.mp enough)]
      rfl
  | succ turns ih =>
      rw [wholeBlocks]
      by_cases none : text = []
      · rw [none]
        rfl
      rw [if_neg (by rwa [List.isEmpty_iff])]
      have some : 0 < text.length := List.length_pos_iff.mpr none
      -- The new block counts as one of which nothing is used up.
      have renewed : steps (xorStep (nextByte nextBlock)) cipher text =
          steps (xorStep (nextByte nextBlock))
            ⟨(nextBlock cipher.state).2, (nextBlock cipher.state).1, 64⟩ text := by
        obtain ⟨byte, text, rfl⟩ := List.exists_cons_of_ne_nil none
        have same : nextByte nextBlock cipher = nextByte nextBlock
            ⟨(nextBlock cipher.state).2, (nextBlock cipher.state).1, 64⟩ := by
          rw [nextByte, nextByte, dif_neg (by rw [empty none]; exact Nat.lt_irrefl 0),
            dif_pos (Nat.succ_pos 63)]
          rfl
        rw [steps_cons, steps_cons, xorStep, xorStep, same]
      have length : (text.take (min text.length 64)).length = min text.length 64 := by
        rw [List.length_take]
        omega
      have covered := @steps_of_left _ nextBlock
        ⟨(nextBlock cipher.state).2, (nextBlock cipher.state).1, 64⟩
        (text.take (min text.length 64)) (by rw [length]; exact Nat.min_le_right _ _)
        (Nat.le_refl 64)
      rw [length] at covered
      have later := @ih ⟨(nextBlock cipher.state).2, (nextBlock cipher.state).1,
          64 - min text.length 64⟩ (text.drop (min text.length 64))
        (by rw [List.length_drop]; omega)
        (fun more => by
          have behind := List.length_pos_iff.mpr more
          rw [List.length_drop] at behind
          dsimp only
          omega)
      rw [renewed]
      conv => rhs; rw [← List.take_append_drop (min text.length 64) text]
      rw [steps_append, covered]
      dsimp only
      rw [later]
      rfl

theorem applyKeystream_eq (nextBlock : σ → Vector Byte 64 × σ) (cipher : Pending σ)
    (text : List Byte) :
    cipher.applyKeystream nextBlock text = steps (xorStep (nextByte nextBlock)) cipher text := by
  rcases finish_spec nextBlock cipher text with
    ⟨front, cipher', rest, back, finished, split, same, usedUp⟩
  rw [applyKeystream, finished, split, steps_append, same]
  dsimp only
  rw [wholeBlocks_eq (Nat.le_refl _) usedUp]

end Pending

/-- The states of a generator in a row: all but the last make a block and are
followed by the next one. -/
structure BlockRow (nextBlock : σ → Vector Byte 64 × σ) where
  states : Nat → σ
  blocks : Nat → Vector Byte 64
  count : Nat
  next : ∀ index < count, nextBlock (states index) = (blocks index, states (index + 1))

/-- The byte of a place, of which 64 are in each block. -/
def keystreamByte (blocks : Nat → Vector Byte 64) (place : Nat) : Byte :=
  (blocks (place / 64)).get (Fin.ofNat 64 place)

namespace BlockRow

variable {nextBlock : σ → Vector Byte 64 × σ} {row : BlockRow nextBlock} {place : Nat}
  {cipher : Pending σ}

/-- The cipher has used up so many bytes of the row: what it has left ends a block. -/
structure At (row : BlockRow nextBlock) (place : Nat) (cipher : Pending σ) : Prop where
  short : cipher.pendingLeft < 64
  left : (place + cipher.pendingLeft) % 64 = 0
  state : cipher.state = row.states ((place + 63) / 64)
  pending : 0 < cipher.pendingLeft → cipher.pending = row.blocks (place / 64)

theorem nextByte_at (here : row.At place cipher) (inside : place < 64 * row.count) :
    (cipher.nextByte nextBlock).1 = keystreamByte row.blocks place ∧
      row.At (place + 1) (cipher.nextByte nextBlock).2 := by
  rcases here with ⟨short, left, state, pending⟩
  rw [Pending.nextByte]
  by_cases some : 0 < cipher.pendingLeft
  · rw [dif_pos some]
    have index : 64 - cipher.pendingLeft = place % 64 := by omega
    constructor
    · dsimp only
      simp only [pending some, index]
      rfl
    · refine ⟨by dsimp only; omega, by dsimp only; omega, ?_, fun more => ?_⟩
      · dsimp only
        rw [state]
        congr 1
        omega
      · dsimp only at more ⊢
        rw [pending some]
        congr 1
        omega
  · have index : (place + 63) / 64 = place / 64 := by omega
    have start : place % 64 = 0 := by omega
    have next := row.next (place / 64) (by omega)
    rw [dif_neg some, state, index, next]
    constructor
    · have first : Fin.ofNat 64 place = 0 := Fin.ext start
      dsimp only
      rw [keystreamByte, first]
      rfl
    · refine ⟨Nat.lt_succ_self 63, by dsimp only; omega, ?_, fun _ => ?_⟩
      · dsimp only
        congr 1
        omega
      · dsimp only
        congr 1
        omega

theorem steps_at (here : row.At place cipher) {text : List Byte}
    (inside : place + text.length ≤ 64 * row.count) :
    (steps (xorStep (Pending.nextByte nextBlock)) cipher text).1 =
        text.mapIdx (fun index byte => byte ^^^ keystreamByte row.blocks (place + index)) ∧
      row.At (place + text.length)
        (steps (xorStep (Pending.nextByte nextBlock)) cipher text).2 := by
  induction text generalizing place cipher with
  | nil => exact ⟨rfl, here⟩
  | cons byte text ih =>
      rw [List.length_cons] at inside ⊢
      rcases nextByte_at here (by omega) with ⟨one, next⟩
      rcases ih next (by omega) with ⟨outs, last⟩
      rw [steps_cons, xorStep, one, outs, List.mapIdx_cons]
      simp only [Nat.add_assoc, Nat.add_comm 1] at last ⊢
      exact ⟨rfl, last⟩

end BlockRow

end Corduit.Crypto

/-!
# Block-cipher modes

Cipher feedback and counter mode over a block cipher.  The block cipher is left
open: an arbitrary function of a key and a block.
-/

namespace Corduit.Crypto

open Word

/-- The encryption of one block under a key. -/
abbrev BlockCipher :=
  (key : List Byte) → Vector Byte 16 → Vector Byte 16

/-- `Aes`: a key of one of the three lengths. -/
structure Aes where
  key : List Byte

/-- Keys have 16, 24 or 32 bytes. -/
def Aes.new (key : List Byte) : Except InvalidLength Aes :=
  if key.length = 16 ∨ key.length = 24 ∨ key.length = 32 then .ok ⟨key⟩ else .error .invalidLength

/-- `copy_from_slice` into a block. -/
def blockOf (iv : List Byte) : Option (Vector Byte 16) :=
  if length : iv.length = 16 then some ⟨iv.toArray, length⟩ else none

variable (encryptBlock : BlockCipher)

/-- `Cfb128`: the feedback block and the place in it. -/
structure Cfb128 where
  aes : Aes
  feedback : Vector Byte 16
  offset : Fin 16

namespace Cfb128

/-- A new cipher, fed with the IV. -/
def new (key iv : List Byte) : Except InvalidLength Cfb128 :=
  match blockOf iv with
  | none => .error .invalidLength
  | some feedback =>
      match Aes.new key with
      | .error error => .error error
      | .ok aes => .ok ⟨aes, feedback, 0⟩

/-- At the start of a block the feedback is encrypted. -/
def refill (cipher : Cfb128) : Cfb128 :=
  if cipher.offset = 0 then
    { cipher with feedback := encryptBlock cipher.aes.key cipher.feedback }
  else cipher

/-- The keystream byte of the place. -/
def keystream (cipher : Cfb128) : Byte :=
  cipher.feedback.get cipher.offset

/-- A byte is fed back. -/
def feed (cipher : Cfb128) (byte : Byte) : Cfb128 :=
  { cipher with
    feedback := cipher.feedback.put cipher.offset byte
    offset := cipher.offset + 1 }

/-- The body of the loop of `encrypt`: the byte that comes out is fed back. -/
def encryptByte : ByteStep Cfb128 := fun cipher byte =>
  let cipher := cipher.refill encryptBlock
  (byte ^^^ cipher.keystream, cipher.feed (byte ^^^ cipher.keystream))

/-- Feedback mode, always as encryption. -/
def encrypt (cipher : Cfb128) (buf : List Byte) : List Byte × Cfb128 :=
  steps (encryptByte encryptBlock) cipher buf

variable {encryptBlock} {first second cipher : Cfb128}

theorem refill_of_inside (inside : cipher.offset ≠ 0) : cipher.refill encryptBlock = cipher :=
  if_neg inside

theorem offset_refill (cipher : Cfb128) : (cipher.refill encryptBlock).offset = cipher.offset := by
  by_cases start : cipher.offset = 0
  · rw [refill, if_pos start]
  · rw [refill_of_inside start]

theorem val_offset_feed {byte : Byte} (more : cipher.offset.val + 1 < 16) :
    (cipher.feed byte).offset.val = cipher.offset.val + 1 :=
  Fin.val_add_one_of_lt' more

theorem feedback_feed {byte : Byte} {place : Fin 16} (elsewhere : cipher.offset ≠ place) :
    (cipher.feed byte).feedback.get place = cipher.feedback.get place :=
  Vector.get_put_ne _ _ elsewhere

/-- Two ciphers agree on the places of the block that are still to come. -/
structure Agree (first second : Cfb128) : Prop where
  offset : second.offset = first.offset
  feedback : ∀ place : Fin 16, first.offset ≤ place → 
    second.feedback.get place = first.feedback.get place

theorem Agree.next (agree : Agree first second) (more : first.offset.val + 1 < 16)
    (out out' : Byte) : Agree (first.feed out) (second.feed out') := by
  refine ⟨congrArg (· + 1) agree.offset, fun place behind => ?_⟩
  have behind' : first.offset.val + 1 ≤ place.val := val_offset_feed more ▸ behind
  have elsewhere : first.offset ≠ place := Fin.ne_of_lt behind'
  rw [feedback_feed elsewhere, feedback_feed (agree.offset ▸ elsewhere)]
  exact agree.feedback place (Nat.le_of_succ_le behind')

variable {buf : List Byte}

theorem encrypt_inside (agree : Agree first second) (inside : buf ≠ [] → first.offset ≠ 0)
    (short : first.offset.val + buf.length ≤ 16) :
    (steps (encryptByte encryptBlock) second (steps (encryptByte encryptBlock) first buf).1).1 =
      buf := by
  induction buf generalizing first second with
  | nil => rfl
  | cons byte buf ih =>
      have within := inside (List.cons_ne_nil byte buf)
      have within' : second.offset ≠ 0 := agree.offset ▸ within
      have here : second.keystream = first.keystream := by
        rw [keystream, keystream, ← agree.feedback first.offset (Fin.le_refl _)]
        simp only [agree.offset]
      rw [List.length_cons] at short
      rw [steps_cons, steps_cons, encryptByte, encryptByte, refill_of_inside within,
        refill_of_inside within']
      dsimp only
      rw [here, BitVec.xor_assoc, BitVec.xor_self, BitVec.xor_zero]
      congr 1
      by_cases last : buf = []
      · rw [last]
        rfl
      · have some : 0 < buf.length := List.length_pos_iff.mpr last
        have more : first.offset.val + 1 < 16 := by omega
        apply ih (agree.next more _ byte)
        · intro _ zero
          have next := @val_offset_feed first (byte ^^^ first.keystream) more
          rw [zero] at next
          cases next
        · rw [val_offset_feed more]
          omega

theorem encrypt_twice (fresh : cipher.offset = 0) (short : buf.length ≤ 16) :
    (cipher.encrypt encryptBlock (cipher.encrypt encryptBlock buf).1).1 = buf := by
  cases buf with
  | nil => rfl
  | cons byte buf =>
      rw [encrypt, encrypt, steps_cons, steps_cons, encryptByte, encryptByte]
      have start : (cipher.refill encryptBlock).offset.val = 0 := by
        rw [offset_refill, fresh]
        rfl
      generalize cipher.refill encryptBlock = filled at start
      dsimp only
      rw [BitVec.xor_assoc, BitVec.xor_self, BitVec.xor_zero]
      congr 1
      have more : filled.offset.val + 1 < 16 := by rw [start]; decide
      have agree : Agree filled filled := ⟨rfl, fun _ _ => rfl⟩
      rw [List.length_cons] at short
      apply encrypt_inside (agree.next more _ byte)
      · intro _ zero
        have next := @val_offset_feed filled (byte ^^^ filled.keystream) more
        rw [zero, start] at next
        cases next
      · rw [val_offset_feed more, start]
        omega

theorem first_steps (inside : cipher.offset ≠ 0) (all : cipher.offset.val + buf.length = 16) :
    (steps (encryptByte encryptBlock) cipher buf).2.offset = 0 ∧
      (steps (encryptByte encryptBlock) cipher buf).2.aes = cipher.aes ∧
      (steps (encryptByte encryptBlock) cipher buf).2.feedback.get 0 = cipher.feedback.get 0 := by
  induction buf generalizing cipher with
  | nil => exact absurd cipher.offset.isLt (Nat.not_lt.mpr (Nat.le_of_eq all.symm))
  | cons byte buf ih =>
      rw [List.length_cons] at all
      rw [steps_cons, encryptByte, refill_of_inside inside]
      dsimp only
      generalize byte ^^^ cipher.keystream = out
      have kept : (cipher.feed out).feedback.get 0 = cipher.feedback.get 0 :=
        @feedback_feed cipher out 0 inside
      by_cases last : buf = []
      · subst last
        have end' : cipher.offset = 15 := Fin.ext (by rw [List.length_nil] at all; omega)
        refine ⟨?_, rfl, kept⟩
        change cipher.offset + 1 = 0
        rw [end']
        rfl
      · have some : 0 < buf.length := List.length_pos_iff.mpr last
        have next := @val_offset_feed cipher out (by omega)
        have further := @ih (cipher.feed out)
          (fun zero => by rw [zero] at next; cases next) (by rw [next]; omega)
        exact ⟨further.1, further.2.1, further.2.2.trans kept⟩

theorem keystream_refill (start : cipher.offset = 0) :
    (cipher.refill encryptBlock).keystream =
      (encryptBlock cipher.aes.key cipher.feedback).get 0 := by
  rw [keystream, refill, if_pos start]
  simp only [start]

theorem first_feed (start : cipher.offset = 0) (out : Byte) :
    (cipher.feed out).offset = 1 ∧ (cipher.feed out).feedback.get 0 = out := by
  constructor
  · exact congrArg (· + 1) start
  · simp only [feed, start]
    exact Vector.get_put_self _ _ _

/-- A block cipher that shows what a second encryption does to a longer text. -/
def masking (iv : Byte) : BlockCipher := fun _ block =>
  block.map (· ^^^ (iv ^^^ 1))

theorem encryptByte_twice_ne {iv : Byte} (start : first.offset = 0)
    (start' : second.offset = 0) (apart : first.feedback.get 0 ≠ second.feedback.get 0)
    (byte : Byte) :
    (second.encryptByte (masking iv) (first.encryptByte (masking iv) byte).1).1 ≠ byte := by
  intro same
  rw [encryptByte, encryptByte] at same
  dsimp only at same
  rw [keystream_refill start, keystream_refill start', masking, Vector.get_map_eq,
    masking, Vector.get_map_eq, BitVec.xor_assoc] at same
  have none := (BitVec.xor_right_inj byte).mp (same.trans (BitVec.xor_zero).symm)
  exact apart ((BitVec.xor_left_inj _).mp (BitVec.xor_eq_zero_iff.mp none))

/-- For a text of more than a block there is a block cipher with which a second
encryption does not take the first one back. -/
theorem encrypt_twice_ne (fresh : cipher.offset = 0) (long : 16 < buf.length) :
    (cipher.encrypt (masking (cipher.feedback.get 0))
      (cipher.encrypt (masking (cipher.feedback.get 0)) buf).1).1 ≠ buf := by
  obtain ⟨byte, text, rfl⟩ := List.exists_cons_of_length_pos (Nat.zero_lt_of_lt long)
  have more : 15 < text.length := Nat.lt_of_succ_lt_succ long
  obtain ⟨middle, last, rest, text_eq, length⟩ :
      ∃ middle last rest, text = middle ++ last :: rest ∧ middle.length = 15 :=
    ⟨text.take 15, text[15], text.drop 16, by
      rw [← List.drop_eq_getElem_cons more, List.take_append_drop], by
      rw [List.length_take]; omega⟩
  subst text_eq
  generalize mask_eq : masking (cipher.feedback.get 0) = block
  intro same
  rw [encrypt, encrypt, steps_cons, steps_cons] at same
  dsimp only at same
  have tails := (List.cons.inj same).2
  -- The keystream of the first byte is one.
  have one : (cipher.refill block).keystream = 1 := by
    rw [keystream_refill fresh, ← mask_eq, masking, Vector.get_map_eq, ← BitVec.xor_assoc,
      BitVec.xor_self, BitVec.zero_xor]
  have filled : (cipher.refill block).offset = 0 := (offset_refill cipher).trans fresh
  have out : cipher.encryptByte block byte =
      (byte ^^^ 1, (cipher.refill block).feed (byte ^^^ 1)) := by
    rw [encryptByte, one]
  have back : cipher.encryptByte block (byte ^^^ 1) = (byte, (cipher.refill block).feed byte) := by
    rw [encryptByte, one, BitVec.xor_assoc, BitVec.xor_self, BitVec.xor_zero]
  rw [out] at tails
  dsimp only at tails
  rw [back, steps_append] at tails
  dsimp only at tails
  -- Sixteen bytes on, the first places of the feedback are what the first byte left.
  have inside : ∀ byte, ((cipher.refill block).feed byte).offset ≠ 0 := fun byte => by
    rw [(first_feed filled byte).1]
    decide
  have rest' : ∀ byte, ∀ buf : List Byte, buf.length = 15 →
      ((cipher.refill block).feed byte).offset.val + buf.length = 16 := fun byte buf length => by
    rw [(first_feed filled byte).1, length]
    rfl
  have firstSteps := @first_steps block _ _ (inside (byte ^^^ 1)) (rest' _ middle length)
  have secondSteps := @first_steps block _ _ (inside byte)
    (rest' byte (steps (encryptByte block) ((cipher.refill block).feed (byte ^^^ 1)) middle).1
      ((length_steps _ _ _).trans length))
  rw [(first_feed filled _).2] at firstSteps secondSteps
  rw [steps_append, steps_cons, steps_cons] at tails
  have behind := List.append_inj_right tails (by rw [length_steps, length_steps])
  subst mask_eq
  refine encryptByte_twice_ne firstSteps.1 secondSteps.1 ?_ last (List.cons.inj behind).1
  rw [firstSteps.2.2, secondSteps.2.2]
  intro equal
  have none := (BitVec.xor_right_inj byte).mp (equal.trans (BitVec.xor_zero).symm)
  cases none

end Cfb128

/-- Counter mode. -/
structure Ctr where
  aes : Aes
  counter : Vector Byte 16
  keystream : Vector Byte 16
  offset : Nat
  offset_le : offset ≤ 16

namespace Ctr

/-- A new cipher, at the IV. -/
def new (key iv : List Byte) : Except InvalidLength Ctr :=
  match blockOf iv with
  | none => .error .invalidLength
  | some counter =>
      match Aes.new key with
      | .error error => .error error
      | .ok aes => .ok ⟨aes, counter, Vector.replicate 16 0, 16, Nat.le_refl 16⟩

/-- The loop of `refill` over the counter, from its last byte on, for as long as
there is a carry. -/
def increment (counter : Vector Byte 16) : Vector Byte 16 :=
  ((List.finRange 16).reverse.foldl
    (fun (counter, carried) index =>
      if carried then (counter.put index (counter.get index + 1), counter.get index + 1 == 0)
      else (counter, false))
    (counter, true)).1

/-- The next block of the keystream. -/
def refill (cipher : Ctr) : Ctr where
  aes := cipher.aes
  counter := increment cipher.counter
  keystream := encryptBlock cipher.aes.key cipher.counter
  offset := 0
  offset_le := Nat.zero_le 16

/-- The body of the loop of `apply_keystream`. -/
def nextByte (cipher : Ctr) : Byte × Ctr :=
  if inside : cipher.offset < 16 then
    (cipher.keystream[cipher.offset],
      { cipher with offset := cipher.offset + 1, offset_le := inside })
  else
    let filled := cipher.refill encryptBlock
    (filled.keystream[0], { filled with offset := 1, offset_le := by decide })

/-- `apply_keystream`. -/
def applyKeystream (cipher : Ctr) (buf : List Byte) : List Byte × Ctr :=
  steps (xorStep (nextByte encryptBlock)) cipher buf

end Ctr

end Corduit.Crypto
