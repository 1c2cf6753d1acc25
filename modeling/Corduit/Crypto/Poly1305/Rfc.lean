import Mathlib.Algebra.BigOperators.Ring.Finset
import Mathlib.Data.Nat.ModEq
import Mathlib.Tactic.Ring
import Corduit.Crypto.Poly1305.Core

/-!
# Poly1305 is its polynomial

Every block is a coefficient, with one bit behind its last byte, and the clamped
first half of the key is the point.  The limbs of the accumulator are below 26 bits
but for the second, which may have 256 more: that bound is kept from block to block,
and leaves room for all sums, products and carries.
-/

namespace Corduit.Crypto.Poly1305

open Word Word.Checked

/-- `2^130 - 5`. -/
def PRIME : Nat := 2 ^ 130 - 5

theorem two_pow_130 : 2 ^ 130 = PRIME + 5 := by
  decide

/-- The clamped point. -/
def clamp (r : Nat) : Nat :=
  r &&& 0x0ffffffc0ffffffc0ffffffc0fffffff

/-- A block of up to 16 bytes with the bit behind its last byte. -/
def coefficient (message : List Byte) (index : Nat) : Nat :=
  let block := slice message (16 * index) 16
  ofLeBytes block + 2 ^ (8 * block.length)

/-- The first blocks as a polynomial. -/
def evaluate (r : Nat) (message : List Byte) (count : Nat) : Nat :=
  ∑ index ∈ Finset.range count, coefficient message index * r ^ (count - index)

/-- The number that the tag spells. -/
def tagNumber (key message : List Byte) : Nat :=
  (evaluate (clamp (ofLeBytes (slice key 0 16))) message ((message.length + 15) / 16) % PRIME +
    ofLeBytes (slice key 16 16)) % 2 ^ 128

theorem evaluate_succ (r : Nat) (message : List Byte) (count : Nat) :
    evaluate r message (count + 1) =
      (evaluate r message count + coefficient message count) * r := by
  rw [evaluate, Finset.sum_range_succ, Nat.add_sub_cancel_left, Nat.pow_one, evaluate, Nat.add_mul,
    Finset.sum_mul]
  congr 1
  apply Finset.sum_congr rfl
  intro index member
  have later : count + 1 - index = count - index + 1 :=
    Nat.succ_sub (Nat.le_of_lt (Finset.mem_range.mp member))
  rw [later, Nat.pow_succ, Nat.mul_assoc]

theorem evaluate_append (r : Nat) {front : List Byte} (back : List Byte) {count : Nat}
    (inside : 16 * count ≤ front.length) :
    evaluate r (front ++ back) count = evaluate r front count := by
  apply Finset.sum_congr rfl
  intro index member
  have here : 16 * index + 16 ≤ front.length := by
    have before := Finset.mem_range.mp member
    omega
  have same : slice (front ++ back) (16 * index) 16 = slice front (16 * index) 16 := by
    rw [slice, slice, List.drop_append_of_le_length (by omega),
      List.take_append_of_le_length (by rw [List.length_drop]; omega)]
  rw [coefficient, coefficient, same]

theorem and_MASK26 (value : Nat) : value &&& MASK26 = value % 2 ^ 26 :=
  Nat.and_two_pow_sub_one_eq_mod value 26

theorem or_shl {low : Nat} (count : Nat) (value : Nat) (small : low < 2 ^ count)
    (inside : count ≤ 32) :
    low ||| shl value count = low + 2 ^ count * (value % 2 ^ (32 - count)) := by
  have width : 2 ^ 32 = 2 ^ count * 2 ^ (32 - count) := by
    rw [← Nat.pow_add, Nat.add_sub_cancel' inside]
  have shifted : shl value count = 2 ^ count * (value % 2 ^ (32 - count)) := by
    rw [shl, width, Nat.mul_comm, Nat.mul_mod_mul_left]
  rw [shifted, Nat.or_comm, ← Nat.two_pow_add_eq_or_of_lt small, Nat.add_comm]

theorem load_lt (bytes : List Byte) (offset : Nat) : load bytes offset < 2 ^ 32 := by
  have bound := ofLeBytes_lt (slice bytes offset 4)
  have short : (slice bytes offset 4).length ≤ 4 := by
    rw [slice, List.length_take]
    exact Nat.min_le_left _ _
  exact Nat.lt_of_lt_of_le bound (Nat.pow_le_pow_right (by decide) short)

theorem load_block {block : List Byte} (length : block.length = 16) :
    ofLeBytes block = load block 0 + 2 ^ 32 * load block 4 + 2 ^ 64 * load block 8 +
      2 ^ 96 * load block 12 := by
  have bound := ofLeBytes_lt block
  rw [length] at bound
  rw [load, load, load, load, ofLeBytes_slice (by omega), ofLeBytes_slice (by omega),
    ofLeBytes_slice (by omega), ofLeBytes_slice (by omega)]
  omega

theorem limbsOf_spec {block : List Byte} (length : block.length = 16) {bit : Nat} (one : bit ≤ 1) :
    (limbsOf block (bit * 2 ^ 24)).value = ofLeBytes block + bit * 2 ^ 128 ∧
      (limbsOf block (bit * 2 ^ 24)).AtMost (2 ^ 26) := by
  have t0 := load_lt block 0
  have t1 := load_lt block 4
  have t2 := load_lt block 8
  have t3 := load_lt block 12
  have top : load block 12 / 2 ^ 8 ||| bit * 2 ^ 24 = load block 12 / 2 ^ 8 + bit * 2 ^ 24 := by
    rw [Nat.or_comm, Nat.mul_comm, ← Nat.two_pow_add_eq_or_of_lt (by omega), Nat.add_comm]
  have limbs : limbsOf block (bit * 2 ^ 24) =
      ⟨load block 0 % 2 ^ 26, load block 0 / 2 ^ 26 + 2 ^ 6 * (load block 4 % 2 ^ 20),
        load block 4 / 2 ^ 20 + 2 ^ 12 * (load block 8 % 2 ^ 14),
        load block 8 / 2 ^ 14 + 2 ^ 18 * (load block 12 % 2 ^ 8),
        load block 12 / 2 ^ 8 + bit * 2 ^ 24⟩ := by
    rw [limbsOf]
    simp only [Nat.shiftRight_eq_div_pow, and_MASK26, top]
    rw [or_shl 6 _ (by omega) (by omega), or_shl 12 _ (by omega) (by omega),
      or_shl 18 _ (by omega) (by omega)]
    congr 1 <;> omega
  rw [limbs, load_block length]
  constructor
  · rw [Limbs.value]
    dsimp only
    omega
  · constructor <;> dsimp only <;> omega

theorem carry_spec {d : Nat} (small : d < 2 ^ 58) :
    ∃ low c, carry d = .ok (low, c) ∧ d = low + 2 ^ 26 * c ∧ low < 2 ^ 26 ∧ c < 2 ^ 32 := by
  have short : d / 2 ^ 26 < 2 ^ 32 := by omega
  refine ⟨d % 2 ^ 26, d / 2 ^ 26, ?_, (Nat.mod_add_div d _).symm, Nat.mod_lt _ (by decide), short⟩
  rw [carry, Nat.shiftRight_eq_div_pow, fit_of_lt short, ok_bind, and_MASK26]
  rfl

/-- What is between two blocks: the second limb may be a little larger. -/
structure Carried (h : Limbs) : Prop where
  h0 : h.h0 < 2 ^ 26
  h1 : h.h1 < 2 ^ 26 + 2 ^ 8
  h2 : h.h2 < 2 ^ 26
  h3 : h.h3 < 2 ^ 26
  h4 : h.h4 < 2 ^ 26

/-- The bound of a limb behind the addition of a block. -/
def limbBound : Nat := 2 ^ 27 + 2 ^ 8

/-- The bound of a product with a limb of `r` or its fivefold. -/
def productBound : Nat := limbBound * (5 * 2 ^ 26)

/-- The bound of five products. -/
def rowBound : Nat := 5 * productBound

theorem reduce_spec {d0 d1 d2 d3 d4 : Nat} (small0 : d0 ≤ rowBound) (small1 : d1 ≤ rowBound)
    (small2 : d2 ≤ rowBound) (small3 : d3 ≤ rowBound) (small4 : d4 ≤ rowBound) :
    ∃ h, reduce d0 d1 d2 d3 d4 = .ok h ∧ Carried h ∧
      ∃ q, d0 + 2 ^ 26 * d1 + 2 ^ 52 * d2 + 2 ^ 78 * d3 + 2 ^ 104 * d4 = h.value + PRIME * q := by
  have room : rowBound + 2 ^ 32 < 2 ^ 58 := by decide
  have least : rowBound + 2 ^ 32 < 201 * 2 ^ 50 := by decide
  rcases carry_spec (show d0 < 2 ^ 58 by omega) with ⟨h0, c0, run0, split0, low0, short0⟩
  rcases carry_spec (show d1 + c0 < 2 ^ 58 by omega) with ⟨h1, c1, run1, split1, low1, short1⟩
  rcases carry_spec (show d2 + c1 < 2 ^ 58 by omega) with ⟨h2, c2, run2, split2, low2, short2⟩
  rcases carry_spec (show d3 + c2 < 2 ^ 58 by omega) with ⟨h3, c3, run3, split3, low3, short3⟩
  rcases carry_spec (show d4 + c3 < 2 ^ 58 by omega) with ⟨h4, c4, run4, split4, low4, short4⟩
  rcases carry_spec (show h0 + c4 * 5 < 2 ^ 58 by omega) with ⟨l0, c5, run5, split5, low5, short5⟩
  have sum1 : (fit 64 (d1 + c0) : Computed Nat) = .ok (d1 + c0) := fit_of_lt (by omega)
  have sum2 : (fit 64 (d2 + c1) : Computed Nat) = .ok (d2 + c1) := fit_of_lt (by omega)
  have sum3 : (fit 64 (d3 + c2) : Computed Nat) = .ok (d3 + c2) := fit_of_lt (by omega)
  have sum4 : (fit 64 (d4 + c3) : Computed Nat) = .ok (d4 + c3) := fit_of_lt (by omega)
  have sum5 : (fit 64 (h0 + c4 * 5) : Computed Nat) = .ok (h0 + c4 * 5) := fit_of_lt (by omega)
  have sum6 : (fit 64 (h1 + c5) : Computed Nat) = .ok (h1 + c5) := fit_of_lt (by omega)
  refine ⟨⟨l0, h1 + c5, h2, h3, h4⟩, ?_, ⟨low5, ?_, low2, low3, low4⟩, c4, ?_⟩
  · have casts : (⟨l0 % 2 ^ 32, (h1 + c5) % 2 ^ 32, h2 % 2 ^ 32, h3 % 2 ^ 32, h4 % 2 ^ 32⟩ : Limbs) =
        ⟨l0, h1 + c5, h2, h3, h4⟩ := by
      congr 1 <;> omega
    simp only [reduce, run0, run1, run2, run3, run4, run5, sum1, sum2, sum3, sum4, sum5, sum6,
      ok_bind, casts]
    rfl
  · dsimp only
    omega
  · have fold : PRIME * c4 + 5 * c4 = 2 ^ 130 * c4 := by
      rw [← Nat.add_mul, two_pow_130]
    rw [Limbs.value]
    dsimp only
    omega

theorem row_le {h : Limbs} (bound : h.AtMost limbBound) {a0 a1 a2 a3 a4 : Nat}
    (small0 : a0 ≤ 5 * 2 ^ 26) (small1 : a1 ≤ 5 * 2 ^ 26) (small2 : a2 ≤ 5 * 2 ^ 26)
    (small3 : a3 ≤ 5 * 2 ^ 26) (small4 : a4 ≤ 5 * 2 ^ 26) : h.row a0 a1 a2 a3 a4 ≤ rowBound := by
  have first : h.h0 * a0 ≤ productBound := Nat.mul_le_mul bound.h0 small0
  have second : h.h1 * a1 ≤ productBound := Nat.mul_le_mul bound.h1 small1
  have third : h.h2 * a2 ≤ productBound := Nat.mul_le_mul bound.h2 small2
  have fourth : h.h3 * a3 ≤ productBound := Nat.mul_le_mul bound.h3 small3
  have fifth : h.h4 * a4 ≤ productBound := Nat.mul_le_mul bound.h4 small4
  unfold Limbs.row rowBound
  omega

theorem value_mul (h r : Limbs) :
    h.value * r.value + 5 * (h.row 0 r.h4 r.h3 r.h2 r.h1 + 2 ^ 26 * h.row 0 0 r.h4 r.h3 r.h2 +
        2 ^ 52 * h.row 0 0 0 r.h4 r.h3 + 2 ^ 78 * h.row 0 0 0 0 r.h4) =
      h.row r.h0 (5 * r.h4) (5 * r.h3) (5 * r.h2) (5 * r.h1) +
        2 ^ 26 * h.row r.h1 r.h0 (5 * r.h4) (5 * r.h3) (5 * r.h2) +
        2 ^ 52 * h.row r.h2 r.h1 r.h0 (5 * r.h4) (5 * r.h3) +
        2 ^ 78 * h.row r.h3 r.h2 r.h1 r.h0 (5 * r.h4) +
        2 ^ 104 * h.row r.h4 r.h3 r.h2 r.h1 r.h0 +
        2 ^ 130 * (h.row 0 r.h4 r.h3 r.h2 r.h1 + 2 ^ 26 * h.row 0 0 r.h4 r.h3 r.h2 +
          2 ^ 52 * h.row 0 0 0 r.h4 r.h3 + 2 ^ 78 * h.row 0 0 0 0 r.h4) := by
  simp only [Limbs.value, Limbs.row]
  ring

theorem multiply_spec {h r : Limbs} (bound : h.AtMost limbBound) (small : r.AtMost (2 ^ 26)) :
    ∃ h', multiply h r = .ok h' ∧ Carried h' ∧ h'.value ≡ h.value * r.value [MOD PRIME] := by
  have wrap : ∀ limb, limb ≤ 2 ^ 26 → limb * 5 % 2 ^ 32 = 5 * limb := fun limb le => by omega
  have five : ∀ limb, limb ≤ 2 ^ 26 → 5 * limb ≤ 5 * 2 ^ 26 := fun limb le =>
    Nat.mul_le_mul_left 5 le
  have one : ∀ limb, limb ≤ 2 ^ 26 → limb ≤ 5 * 2 ^ 26 := fun limb le => by omega
  have fits : ∀ d, d ≤ rowBound → (fit 64 d : Computed Nat) = .ok d := fun d le =>
    fit_of_lt (Nat.lt_of_le_of_lt le (by decide))
  rcases small with ⟨r0, r1, r2, r3, r4⟩
  have d0 := row_le bound (one _ r0) (five _ r4) (five _ r3) (five _ r2) (five _ r1)
  have d1 := row_le bound (one _ r1) (one _ r0) (five _ r4) (five _ r3) (five _ r2)
  have d2 := row_le bound (one _ r2) (one _ r1) (one _ r0) (five _ r4) (five _ r3)
  have d3 := row_le bound (one _ r3) (one _ r2) (one _ r1) (one _ r0) (five _ r4)
  have d4 := row_le bound (one _ r4) (one _ r3) (one _ r2) (one _ r1) (one _ r0)
  rcases reduce_spec d0 d1 d2 d3 d4 with ⟨h', reduced, carried, q, same⟩
  refine ⟨h', ?_, carried, ?_⟩
  · simp only [multiply, wrap _ r1, wrap _ r2, wrap _ r3, wrap _ r4, fits _ d0, fits _ d1,
      fits _ d2, fits _ d3, fits _ d4, ok_bind]
    exact reduced
  · have product := value_mul h r
    rw [same, two_pow_130] at product
    generalize h.row 0 r.h4 r.h3 r.h2 r.h1 + 2 ^ 26 * h.row 0 0 r.h4 r.h3 r.h2 +
      2 ^ 52 * h.row 0 0 0 r.h4 r.h3 + 2 ^ 78 * h.row 0 0 0 0 r.h4 = high at product
    have split : h.value * r.value = h'.value + PRIME * (q + high) := by
      rw [Nat.mul_add]
      rw [Nat.add_mul] at product
      omega
    rw [split, Nat.ModEq, Nat.add_mul_mod_self_left]

theorem add_spec {h block : Limbs} (carried : Carried h) (small : block.AtMost (2 ^ 26)) :
    ∃ h', add h block = .ok h' ∧ h'.AtMost limbBound ∧ h'.value = h.value + block.value := by
  have fits : ∀ limb limb', limb ≤ 2 ^ 26 + 2 ^ 8 → limb' ≤ 2 ^ 26 →
      (fit 32 (limb + limb') : Computed Nat) = .ok (limb + limb') ∧ limb + limb' ≤ limbBound := by
    intro limb limb' le le'
    exact ⟨fit_of_lt (by omega), by unfold limbBound; omega⟩
  rcases carried with ⟨h0, h1, h2, h3, h4⟩
  rcases small with ⟨b0, b1, b2, b3, b4⟩
  have sum0 := fits h.h0 block.h0 (by omega) b0
  have sum1 := fits h.h1 block.h1 (by omega) b1
  have sum2 := fits h.h2 block.h2 (by omega) b2
  have sum3 := fits h.h3 block.h3 (by omega) b3
  have sum4 := fits h.h4 block.h4 (by omega) b4
  refine ⟨⟨h.h0 + block.h0, h.h1 + block.h1, h.h2 + block.h2, h.h3 + block.h3, h.h4 + block.h4⟩,
    ?_, ⟨sum0.2, sum1.2, sum2.2, sum3.2, sum4.2⟩, ?_⟩
  · rw [add, sum0.1, ok_bind, sum1.1, ok_bind, sum2.1, ok_bind, sum3.1, ok_bind, sum4.1, ok_bind]
    rfl
  · simp only [Limbs.value]
    omega

variable {r h : Limbs}

theorem turn_spec (small : r.AtMost (2 ^ 26)) (carried : Carried h) {block : List Byte}
    (length : block.length = 16) {bit hibit : Nat} (one : bit ≤ 1) (top : hibit = bit * 2 ^ 24) :
    ∃ h', turn r h block hibit = .ok h' ∧ Carried h' ∧
      h'.value ≡ (h.value + (ofLeBytes block + bit * 2 ^ 128)) * r.value [MOD PRIME] := by
  rcases limbsOf_spec length one with ⟨value, limbs⟩
  rcases add_spec carried limbs with ⟨sum, added, bound, total⟩
  rcases multiply_spec bound small with ⟨h', multiplied, carried', product⟩
  refine ⟨h', ?_, carried', ?_⟩
  · rw [turn, top, added, ok_bind, multiplied]
  · rwa [total, value] at product

/-- The accumulator is what the blocks evaluate to. -/
structure Holds (r h : Limbs) (front : List Byte) : Prop where
  carried : Carried h
  whole : front.length % 16 = 0
  value : h.value ≡ evaluate r.value front (front.length / 16) [MOD PRIME]

theorem blocks_spec (small : r.AtMost (2 ^ 26)) {front m : List Byte} (holds : Holds r h front)
    (whole : m.length % 16 = 0) :
    ∃ h', blocks r h m (1 <<< 24) = .ok h' ∧ Holds r h' (front ++ m) := by
  have turns : ∀ count ≤ m.length / 16, ∃ h',
      (List.range count).foldlM (fun h i => turn r h (slice m (16 * i) 16) (1 <<< 24)) h = .ok h' ∧
        Carried h' ∧
          h'.value ≡ evaluate r.value (front ++ m) (front.length / 16 + count) [MOD PRIME] := by
    intro count inside
    induction count with
    | zero =>
        refine ⟨h, rfl, holds.carried, ?_⟩
        rw [Nat.add_zero, evaluate_append _ _ (Nat.mul_div_le _ _)]
        exact holds.value
    | succ count ih =>
        rcases ih (Nat.le_of_succ_le inside) with ⟨before, run, carried, value⟩
        have length : (slice m (16 * count) 16).length = 16 := length_slice (by omega)
        rcases @turn_spec r before small carried _ length 1 (1 <<< 24) (Nat.le_refl 1) rfl with
          ⟨h', turned, carried', product⟩
        refine ⟨h', ?_, carried', ?_⟩
        · rw [List.range_succ, List.foldlM_append, run, ok_bind, List.foldlM_cons, turned, ok_bind]
          rfl
        · have here : coefficient (front ++ m) (front.length / 16 + count) =
              ofLeBytes (slice m (16 * count) 16) + 1 * 2 ^ 128 := by
            have start : 16 * (front.length / 16 + count) - front.length = 16 * count := by
              have whole := holds.whole
              omega
            rw [coefficient, slice_skip (by have whole := holds.whole; omega), start, length,
              Nat.one_mul]
          rw [← Nat.add_assoc, evaluate_succ, here]
          exact product.trans ((value.add_right _).mul_right _)
  rcases turns _ (Nat.le_refl _) with ⟨h', run, carried, value⟩
  have wholes : (front ++ m).length / 16 = front.length / 16 + m.length / 16 ∧
      (front ++ m).length % 16 = 0 := by
    have whole' := holds.whole
    rw [List.length_append]
    omega
  exact ⟨h', run, carried, wholes.2, wholes.1 ▸ value⟩

/-- The authenticator has taken a message: its whole blocks are in the accumulator. -/
structure Took (start mac : Poly1305) (message : List Byte) : Prop where
  r : mac.r = start.r
  pad : mac.pad = start.pad
  short : mac.buffer.length < 16
  split : ∃ front, message = front ++ mac.buffer ∧ Holds mac.r mac.h front

variable {start before : Poly1305} {message : List Byte}

section

variable (small : start.r.AtMost (2 ^ 26)) (took : Took start before message)

include small took

theorem fill_spec (m : List Byte) :
    ∃ after rest, fill before m = .ok (after, rest) ∧ (rest = [] ∨ after.buffer = []) ∧
      ∃ taken, m = taken ++ rest ∧ Took start after (message ++ taken) := by
  rcases took with ⟨r_eq, pad_eq, short, front, rfl, holds⟩
  rw [fill]
  by_cases begun : before.buffer.length > 0
  · rw [if_pos begun, sub_of_le (Nat.le_of_lt short), ok_bind]
    dsimp only
    have parts : m.take (min (16 - before.buffer.length) m.length) ++
        m.drop (min (16 - before.buffer.length) m.length) = m := List.take_append_drop _ _
    have length : (before.buffer ++ m.take (min (16 - before.buffer.length) m.length)).length =
        before.buffer.length + min (16 - before.buffer.length) m.length := by
      rw [List.length_append, List.length_take_of_le (Nat.min_le_right _ _)]
    by_cases full :
        (before.buffer ++ m.take (min (16 - before.buffer.length) m.length)).length = 16
    · rw [if_pos full]
      rcases @blocks_spec _ _ (r_eq ▸ small) _ (before.buffer ++ _) holds (by rw [full]) with
        ⟨h', run, holds'⟩
      rw [run, ok_bind]
      refine ⟨_, _, rfl, .inr rfl, _, parts.symm, r_eq, pad_eq, Nat.succ_pos 15, _, ?_, holds'⟩
      rw [List.append_assoc, List.append_nil]
    · rw [if_neg full]
      refine ⟨_, _, rfl, .inl ?_, _, parts.symm, r_eq, pad_eq, ?_, front, ?_, holds⟩
      · rw [List.drop_eq_nil_iff]
        omega
      · dsimp only
        omega
      · rw [List.append_assoc]
  · have empty : before.buffer = [] := List.length_eq_zero_iff.mp (Nat.le_zero.mp (not_lt.mp begun))
    rw [if_neg begun]
    refine ⟨_, _, rfl, .inr empty, [], rfl, r_eq, pad_eq, short, front, ?_, holds⟩
    rw [List.append_nil]

theorem update_spec (m : List Byte) :
    ∃ after, update before m = .ok after ∧ Took start after (message ++ m) := by
  rcases fill_spec small took m with
    ⟨middle, rest, filled, ends, taken, rfl, r_eq, pad_eq, short, front, split, holds⟩
  rw [update, filled, ok_bind, ← List.append_assoc, split]
  dsimp only
  by_cases long : rest.length ≥ 16
  · have some : rest ≠ [] := fun none => by rw [none] at long; cases long
    have empty := ends.resolve_left some
    have size : (rest.take (rest.length - rest.length % 16)).length =
        rest.length - rest.length % 16 := List.length_take_of_le (Nat.sub_le _ _)
    rcases @blocks_spec _ _ (r_eq ▸ small) _ (rest.take _) holds (by rw [size]; omega) with
      ⟨h', run, holds'⟩
    rw [if_pos long, if_pos long, run, ok_bind]
    refine ⟨_, rfl, r_eq, pad_eq, ?_, _, ?_, holds'⟩
    · dsimp only
      split
      · exact short
      · rw [List.length_drop]
        omega
    · have tail : (if (rest.drop (rest.length - rest.length % 16)).isEmpty then middle.buffer
          else rest.drop (rest.length - rest.length % 16)) =
          rest.drop (rest.length - rest.length % 16) := by
        split
        · rename_i none
          rw [empty, List.isEmpty_iff.mp none]
        · rfl
      dsimp only
      rw [tail, empty, List.append_nil, List.append_assoc, List.take_append_drop]
  · rw [if_neg long, if_neg long]
    refine ⟨_, rfl, r_eq, pad_eq, ?_, front, ?_, holds⟩
    · dsimp only
      split
      · exact short
      · omega
    · dsimp only
      rcases ends with rfl | empty
      · rw [List.append_nil]
        rfl
      · rw [empty, List.append_nil]
        cases rest with
        | nil => rfl
        | cons byte rest => rfl

theorem updates_spec (parts : List (List Byte)) :
    ∃ after, parts.foldlM update before = .ok after ∧
      Took start after (message ++ parts.flatten) := by
  induction parts generalizing before message with
  | nil =>
      refine ⟨before, rfl, ?_⟩
      rwa [List.flatten_nil, List.append_nil]
  | cons part parts ih =>
      rcases update_spec small took part with ⟨middle, updated, took'⟩
      rcases ih took' with ⟨after, run, took''⟩
      refine ⟨after, ?_, ?_⟩
      · rw [List.foldlM_cons, updated, ok_bind, run]
      · rwa [List.flatten_cons, ← List.append_assoc]

end

theorem and_eq_limb {value mask point : Nat} (index : Nat)
    (masked : mask = 0x0ffffffc0ffffffc0ffffffc0fffffff / 2 ^ (26 * index) % 2 ^ 26)
    (limb : value % 2 ^ 26 = point / 2 ^ (26 * index) % 2 ^ 26) :
    value &&& mask = clamp point / 2 ^ (26 * index) % 2 ^ 26 := by
  have small : mask < 2 ^ 26 := masked ▸ Nat.mod_lt _ (by decide)
  have inside : value &&& mask < 2 ^ 26 := Nat.and_lt_two_pow value small
  rw [clamp, Nat.and_div_two_pow, Nat.and_mod_two_pow, ← limb, ← masked,
    ← Nat.mod_eq_of_lt inside, Nat.and_mod_two_pow, Nat.mod_eq_of_lt small]

theorem new_spec (key : Octets 32) :
    (new key).r.value = clamp (ofLeBytes (slice key.bytes 0 16)) ∧
      (new key).r.AtMost (2 ^ 26) ∧ Took (new key) (new key) [] := by
  have length := key.length_bytes
  have bound := ofLeBytes_lt (slice key.bytes 0 16)
  have half : (slice key.bytes 0 16).length = 16 := length_slice (by omega)
  rw [half] at bound
  have loads : ∀ offset ≤ 12,
      load key.bytes offset = ofLeBytes (slice key.bytes 0 16) / 256 ^ offset % 256 ^ 4 := by
    intro offset inside
    rw [load, ← Nat.zero_add offset, ← @slice_slice _ key.bytes 0 16 offset 4 (by omega),
      Nat.zero_add, ofLeBytes_slice (by omega)]
  generalize ofLeBytes (slice key.bytes 0 16) = point at bound loads ⊢
  have limbs : (new key).r = ⟨clamp point / 2 ^ (26 * 0) % 2 ^ 26,
      clamp point / 2 ^ (26 * 1) % 2 ^ 26, clamp point / 2 ^ (26 * 2) % 2 ^ 26,
      clamp point / 2 ^ (26 * 3) % 2 ^ 26, clamp point / 2 ^ (26 * 4) % 2 ^ 26⟩ := by
    rw [new]
    simp only [Nat.shiftRight_eq_div_pow]
    rw [loads 0 (by omega), loads 3 (by omega), loads 6 (by omega), loads 9 (by omega),
      loads 12 (by omega)]
    congr 1
    · exact and_eq_limb 0 (by decide) (by omega)
    · exact and_eq_limb 1 (by decide) (by omega)
    · exact and_eq_limb 2 (by decide) (by omega)
    · exact and_eq_limb 3 (by decide) (by omega)
    · exact and_eq_limb 4 (by decide) (by omega)
  have small : clamp point < 2 ^ 130 := Nat.and_lt_two_pow point (by decide)
  refine ⟨?_, ?_, rfl, rfl, Nat.succ_pos 15, [], rfl, ⟨?_, rfl, rfl⟩⟩
  · rw [limbs, Limbs.value]
    dsimp only
    omega
  · rw [limbs]
    constructor <;> exact Nat.le_of_lt (Nat.mod_lt _ (by decide))
  · constructor <;> exact Nat.pos_of_ne_zero (by decide)

theorem MASK26_eq : MASK26 = 2 ^ 26 - 1 :=
  rfl

/-- The last carries leave all limbs below 26 bits: the second carries only where the
others are so full that none is left of it. -/
theorem carryFully_spec (carried : Carried h) :
    ∃ h', carryFully h = .ok h' ∧ h'.AtMost MASK26 ∧ h'.value ≡ h.value [MOD PRIME] := by
  rcases h with ⟨h0, h1, h2, h3, h4⟩
  rcases carried with ⟨small0, small1, small2, small3, small4⟩
  dsimp only at small0 small1 small2 small3 small4
  generalize c1_eq : h1 / 2 ^ 26 = c1
  generalize c2_eq : (h2 + c1) / 2 ^ 26 = c2
  generalize c3_eq : (h3 + c2) / 2 ^ 26 = c3
  generalize c4_eq : (h4 + c3) / 2 ^ 26 = c4
  generalize c0_eq : (h0 + c4 * 5) / 2 ^ 26 = c0
  have fold : PRIME * c4 + 5 * c4 = 2 ^ 130 * c4 := by
    rw [← Nat.add_mul, two_pow_130]
  refine ⟨⟨(h0 + c4 * 5) % 2 ^ 26, h1 % 2 ^ 26 + c0, (h2 + c1) % 2 ^ 26, (h3 + c2) % 2 ^ 26,
    (h4 + c3) % 2 ^ 26⟩, ?_, ?_, ?_⟩
  · simp only [carryFully, Nat.shiftRight_eq_div_pow, and_MASK26, c1_eq]
    rw [fit_of_lt (by omega), ok_bind]
    simp only [c2_eq]
    rw [fit_of_lt (by omega), ok_bind]
    simp only [c3_eq]
    rw [fit_of_lt (by omega), ok_bind]
    simp only [c4_eq]
    rw [fit_of_lt (by omega), ok_bind]
    simp only [c0_eq]
    rw [fit_of_lt (by omega), ok_bind]
    rfl
  · rw [MASK26_eq]
    constructor <;> dsimp only <;> omega
  · have split : Limbs.value ⟨h0, h1, h2, h3, h4⟩ =
        Limbs.value ⟨(h0 + c4 * 5) % 2 ^ 26, h1 % 2 ^ 26 + c0, (h2 + c1) % 2 ^ 26,
          (h3 + c2) % 2 ^ 26, (h4 + c3) % 2 ^ 26⟩ + PRIME * c4 := by
      simp only [Limbs.value]
      omega
    rw [split, Nat.ModEq, Nat.add_mul_mod_self_left]

theorem select_zero {value : Nat} (small : value < 2 ^ 32) (other : Nat) :
    select 0 value other = value := by
  rw [select, Nat.and_zero, Nat.or_zero, Nat.sub_zero, Nat.and_two_pow_sub_one_eq_mod,
    Nat.mod_eq_of_lt small]

theorem select_ones {value : Nat} (small : value < 2 ^ 32) (other : Nat) :
    select (2 ^ 32 - 1) other value = value := by
  rw [select, Nat.sub_self, Nat.and_zero, Nat.zero_or, Nat.and_two_pow_sub_one_eq_mod,
    Nat.mod_eq_of_lt small]

theorem subtract_spec (small : h.AtMost MASK26) :
    (subtract h).value = h.value % PRIME ∧ (subtract h).AtMost MASK26 := by
  rcases h with ⟨h0, h1, h2, h3, h4⟩
  rw [MASK26_eq] at small ⊢
  rcases small with ⟨small0, small1, small2, small3, small4⟩
  dsimp only at small0 small1 small2 small3 small4
  have fold := two_pow_130
  simp only [subtract, Nat.shiftRight_eq_div_pow, and_MASK26]
  generalize g0_eq : (h0 + 5) % 2 ^ 32 = g0
  generalize g1_eq : (h1 + g0 / 2 ^ 26) % 2 ^ 32 = g1
  generalize g2_eq : (h2 + g1 / 2 ^ 26) % 2 ^ 32 = g2
  generalize g3_eq : (h3 + g2 / 2 ^ 26) % 2 ^ 32 = g3
  generalize g4_eq : (h4 + g3 / 2 ^ 26) % 2 ^ 32 = g4
  have sum : h0 + 2 ^ 26 * h1 + 2 ^ 52 * h2 + 2 ^ 78 * h3 + 2 ^ 104 * h4 + 5 =
      g0 % 2 ^ 26 + 2 ^ 26 * (g1 % 2 ^ 26) + 2 ^ 52 * (g2 % 2 ^ 26) + 2 ^ 78 * (g3 % 2 ^ 26) +
        2 ^ 104 * (g4 % 2 ^ 26) + 2 ^ 130 * (g4 / 2 ^ 26) := by
    omega
  have cases : g4 / 2 ^ 26 = 0 ∨ g4 / 2 ^ 26 = 1 := by omega
  rcases cases with below | above
  · have mask : (2 ^ 32 - g4 / 2 ^ 26) % 2 ^ 32 = 0 := by omega
    rw [mask, select_zero (by omega), select_zero (by omega), select_zero (by omega),
      select_zero (by omega), select_zero (by omega)]
    refine ⟨(Nat.mod_eq_of_lt ?_).symm, ⟨small0, small1, small2, small3, small4⟩⟩
    rw [Limbs.value]
    dsimp only
    omega
  · have mask : (2 ^ 32 - g4 / 2 ^ 26) % 2 ^ 32 = 2 ^ 32 - 1 := by omega
    have bound : ∀ g : Nat, g % 2 ^ 26 < 2 ^ 32 := fun g => by omega
    rw [mask, select_ones (bound g0), select_ones (bound g1), select_ones (bound g2),
      select_ones (bound g3), select_ones (bound g4)]
    constructor
    · have split : Limbs.value ⟨h0, h1, h2, h3, h4⟩ = Limbs.value ⟨g0 % 2 ^ 26, g1 % 2 ^ 26,
          g2 % 2 ^ 26, g3 % 2 ^ 26, g4 % 2 ^ 26⟩ + PRIME * 1 := by
        simp only [Limbs.value]
        omega
      have least : Limbs.value ⟨g0 % 2 ^ 26, g1 % 2 ^ 26, g2 % 2 ^ 26, g3 % 2 ^ 26,
          g4 % 2 ^ 26⟩ < PRIME := by
        have small : 10 < PRIME := by decide
        simp only [Limbs.value]
        omega
      rw [split, Nat.add_mul_mod_self_left, Nat.mod_eq_of_lt least]
    · constructor <;> dsimp only <;> omega

theorem addPad_spec (small : h.AtMost MASK26) {pad : Vector Nat 4}
    (pads : ∀ index, pad.get index < 2 ^ 32) :
    (addPad (words h) pad).length = 16 ∧
      ofLeBytes (addPad (words h) pad) =
        (h.value + (pad.get 0 + 2 ^ 32 * pad.get 1 + 2 ^ 64 * pad.get 2 + 2 ^ 96 * pad.get 3)) %
          2 ^ 128 := by
  change _ ∧ _ = (h.value + (pad[0] + 2 ^ 32 * pad[1] + 2 ^ 64 * pad[2] + 2 ^ 96 * pad[3])) %
    2 ^ 128
  rw [MASK26_eq] at small
  rcases small with ⟨small0, small1, small2, small3, small4⟩
  have pad0 : pad[0] < 2 ^ 32 := pads 0
  have pad1 : pad[1] < 2 ^ 32 := pads 1
  have pad2 : pad[2] < 2 ^ 32 := pads 2
  have pad3 : pad[3] < 2 ^ 32 := pads 3
  have spelled : ∀ f : Nat, ofLeBytes (toLeBytes 4 (BitVec.ofNat 32 f)) = f % 2 ^ 32 := fun f =>
    ofLeBytes_toLeBytes _ (by decide)
  have w0 : (words h)[0] = h.h0 + 2 ^ 26 * (h.h1 % 2 ^ 6) := or_shl 26 _ (by omega) (by omega)
  have w1 : (words h)[1] = h.h1 / 2 ^ 6 + 2 ^ 20 * (h.h2 % 2 ^ 12) := by
    rw [← Nat.shiftRight_eq_div_pow]
    exact or_shl 20 _ (by rw [Nat.shiftRight_eq_div_pow]; omega) (by omega)
  have w2 : (words h)[2] = h.h2 / 2 ^ 12 + 2 ^ 14 * (h.h3 % 2 ^ 18) := by
    rw [← Nat.shiftRight_eq_div_pow]
    exact or_shl 14 _ (by rw [Nat.shiftRight_eq_div_pow]; omega) (by omega)
  have w3 : (words h)[3] = h.h3 / 2 ^ 18 + 2 ^ 8 * (h.h4 % 2 ^ 24) := by
    rw [← Nat.shiftRight_eq_div_pow]
    exact or_shl 8 _ (by rw [Nat.shiftRight_eq_div_pow]; omega) (by omega)
  constructor
  · simp only [addPad, List.length_append, length_toLeBytes]
  · simp only [addPad, ofLeBytes_append, List.length_append, length_toLeBytes, spelled,
      Nat.shiftRight_eq_div_pow, w0, w1, w2, w3, Limbs.value]
    omega

theorem finish_spec {mac : Poly1305} (small : start.r.AtMost (2 ^ 26))
    (took : Took start mac message) :
    ∃ h', finish mac = .ok h' ∧ Carried h' ∧
      h'.value ≡ evaluate start.r.value message ((message.length + 15) / 16) [MOD PRIME] := by
  rcases took with ⟨r_eq, _, short, front, rfl, ⟨carried, whole, value⟩⟩
  rw [finish, r_eq, List.length_append]
  rw [r_eq] at value
  by_cases some : mac.buffer.length > 0
  · have length : (mac.buffer ++ [1] ++ List.replicate (15 - mac.buffer.length) 0).length = 16 := by
      rw [List.length_append, List.length_append, List.length_replicate, List.length_singleton]
      omega
    have count : (front.length + mac.buffer.length + 15) / 16 = front.length / 16 + 1 := by omega
    have start_eq : 16 * (front.length / 16) = front.length := by omega
    have zeros : ∀ n, ofLeBytes (List.replicate n 0) = 0 := by
      intro n
      induction n with
      | zero => rfl
      | succ n ih =>
          have one := ofLeBytes_append [0] (List.replicate n 0)
          rwa [ih, Nat.mul_zero] at one
    have last : coefficient (front ++ mac.buffer) (front.length / 16) =
        ofLeBytes (mac.buffer ++ [1] ++ List.replicate (15 - mac.buffer.length) 0) + 0 * 2 ^ 128 := by
      have one : ofLeBytes [1] = 1 := rfl
      rw [coefficient, start_eq, slice_skip (Nat.le_refl _), Nat.sub_self, slice, List.drop_zero,
        List.take_of_length_le (Nat.le_of_lt short), ofLeBytes_append, ofLeBytes_append, zeros,
        one, Nat.mul_zero, Nat.mul_one, Nat.zero_mul, Nat.pow_mul]
      rfl
    rcases turn_spec small carried length (Nat.zero_le 1) rfl with ⟨h', turned, carried', product⟩
    refine ⟨h', ?_, carried', ?_⟩
    · rw [if_pos some, blocks, length]
      change (turn _ _ (slice _ 0 16) 0 >>= _) = _
      rw [slice, List.drop_zero, List.take_of_length_le (Nat.le_of_eq length)]
      exact (congrArg (· >>= _) turned).trans (ok_bind _ _)
    · rw [count, evaluate_succ, last, evaluate_append _ _ (Nat.mul_div_le _ _)]
      exact product.trans ((value.add_right _).mul_right _)
  · have empty : mac.buffer = [] := List.length_eq_zero_iff.mp (Nat.le_zero.mp (not_lt.mp some))
    have count : (front.length + ([] : List Byte).length + 15) / 16 = front.length / 16 := by
      rw [List.length_nil]
      omega
    refine ⟨mac.h, if_neg some, carried, ?_⟩
    rw [empty, List.append_nil, count]
    exact value

/-- Nothing overflows wherever the message is cut, the limbs that are packed are below
26 bits each and below the prime together, and the tag spells the polynomial of the
message at the clamped point and the second half of the key. -/
theorem mac_eq_polynomial (key : Octets 32) (parts : List (List Byte)) :
    ∃ after limbs tag, parts.foldlM update (new key) = .ok after ∧ reduced after = .ok limbs ∧
      limbs.AtMost MASK26 ∧ limbs.value < PRIME ∧ mac key parts = .ok tag ∧ tag.length = 16 ∧
        ofLeBytes tag = tagNumber key.bytes parts.flatten := by
  rcases new_spec key with ⟨point, small, started⟩
  rcases updates_spec small started parts with ⟨after, run, took⟩
  rw [List.nil_append] at took
  rcases finish_spec small took with ⟨h, finished, carried, value⟩
  rcases carryFully_spec carried with ⟨h', carries, full, same⟩
  rcases subtract_spec full with ⟨below, limbs⟩
  have padded : ∀ index, (new key).pad.get index = load key.bytes (16 + 4 * index) :=
    fun index => Vector.getElem_ofFn _
  rcases addPad_spec limbs (fun index => padded index ▸ load_lt _ _) with ⟨length, spelled⟩
  have packed : reduced after = .ok (subtract h') := by
    rw [reduced, finished, ok_bind, carries]
    rfl
  refine ⟨after, subtract h', addPad (words (subtract h')) (new key).pad, run, packed, limbs, ?_,
    ?_, length, ?_⟩
  · rw [below]
    exact Nat.mod_lt _ (by decide)
  · rw [mac, run, ok_bind, finalize, packed, took.pad]
    rfl
  · have half : (slice key.bytes 16 16).length = 16 :=
      length_slice (Nat.le_of_eq key.length_bytes.symm)
    have second := load_block half
    simp only [load, slice_slice (show 0 + 4 ≤ 16 by omega), slice_slice (show 4 + 4 ≤ 16 by omega),
      slice_slice (show 8 + 4 ≤ 16 by omega), slice_slice (show 12 + 4 ≤ 16 by omega)] at second
    rw [spelled, below, same.trans value, point, tagNumber, second]
    simp only [padded, load]
    rfl

end Corduit.Crypto.Poly1305
