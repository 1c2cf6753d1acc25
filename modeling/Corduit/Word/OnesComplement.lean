import Corduit.Transition.Core
import Corduit.Word.BigEndian

/-!
# One's-complement sums

Internet checksums add 16-bit words with end-around carry.  Such a sum is
determined by the plain sum of the words: it is congruent to it modulo
`2 ^ 16 - 1`, and it is zero only when all words are.  Programs add plainly in
a wider register and fold the carries at the end; the two agree as long as the
register does not overflow.
-/

namespace Corduit.Word

open Transition

/-- The 16-bit words of a byte string, an odd last byte padded with zero. -/
def words : List Byte → List Nat
  | [] => []
  | [high] => [256 * high.toNat]
  | high :: low :: rest => (256 * high.toNat + low.toNat) :: words rest

/-- Addition with end-around carry. -/
def onesAdd (first second : Nat) : Nat :=
  if first + second < 2 ^ 16 then first + second else first + second - (2 ^ 16 - 1)

/-- The one's-complement sum of a byte string. -/
def onesSum (data : List Byte) : Nat :=
  (words data).foldl onesAdd 0

/-- The plain sum of the words. -/
def wordSum (data : List Byte) : Nat :=
  (words data).sum

theorem word_lt (data : List Byte) : ∀ word ∈ words data, word < 2 ^ 16 := by
  fun_induction words data with
  | case1 => simp
  | case2 high =>
      have bound := high.isLt
      simp only [List.mem_singleton, forall_eq]
      omega
  | case3 high low rest ih =>
      have highBound := high.isLt
      have lowBound := low.isLt
      simp only [List.forall_mem_cons]
      exact ⟨by omega, ih⟩

/-- A number below `2 ^ 16` stands for a plain sum. -/
structure Represents (folded plain : Nat) : Prop where
  bounded : folded < 2 ^ 16
  congruent : folded % (2 ^ 16 - 1) = plain % (2 ^ 16 - 1)
  zero : folded = 0 ↔ plain = 0

/-- A plain sum has one representative. -/
theorem Represents.unique {first second plain : Nat} (left : Represents first plain)
    (right : Represents second plain) : first = second := by
  have firstBound := left.bounded
  have secondBound := right.bounded
  have congruent := left.congruent.trans right.congruent.symm
  have zero := left.zero.trans right.zero.symm
  omega

theorem Represents.onesAdd {folded plain word : Nat} (holds : Represents folded plain)
    (small : word < 2 ^ 16) : Represents (onesAdd folded word) (plain + word) := by
  have bounded := holds.bounded
  have congruent := holds.congruent
  have zero := holds.zero
  unfold Word.onesAdd
  split
  · exact ⟨by omega, by omega, by omega⟩
  · exact ⟨by omega, by omega, by omega⟩

theorem represents_foldl {sums : List Nat} (small : ∀ word ∈ sums, word < 2 ^ 16)
    {folded plain : Nat} (holds : Represents folded plain) :
    Represents (sums.foldl onesAdd folded) (plain + sums.sum) := by
  induction sums generalizing folded plain with
  | nil => simpa using holds
  | cons word sums ih =>
      simp only [List.forall_mem_cons] at small
      have rest := ih small.2 (holds.onesAdd small.1)
      simpa [Nat.add_assoc] using rest

theorem represents_onesSum (data : List Byte) : Represents (onesSum data) (wordSum data) := by
  have zero : Represents 0 0 := ⟨by omega, rfl, Iff.rfl⟩
  have sum := represents_foldl (word_lt data) zero
  rwa [Nat.zero_add] at sum

/-- A sum is all ones exactly when the plain sum is a positive multiple of
`2 ^ 16 - 1`. -/
theorem onesSum_eq_allOnes {data : List Byte} (positive : 0 < wordSum data)
    (multiple : wordSum data % (2 ^ 16 - 1) = 0) : onesSum data = 0xFFFF := by
  exact (represents_onesSum data).unique ⟨by omega, by omega, by omega⟩

@[simp]
theorem wordSum_nil : wordSum [] = 0 :=
  rfl

@[simp]
theorem wordSum_cons_cons (high low : Byte) (rest : List Byte) :
    wordSum (high :: low :: rest) = 256 * high.toNat + low.toNat + wordSum rest := by
  simp [wordSum, words]

theorem wordSum_append {front : List Byte} (even : front.length % 2 = 0) (back : List Byte) :
    wordSum (front ++ back) = wordSum front + wordSum back := by
  fun_induction words front with
  | case1 => simp
  | case2 high => simp at even
  | case3 high low rest ih =>
      simp only [List.length_cons] at even
      simp only [List.cons_append, wordSum_cons_cons, ih (by omega)]
      omega

theorem wordSum_le (data : List Byte) : 2 * wordSum data ≤ 65535 * (data.length + 1) := by
  fun_induction words data with
  | case1 => simp
  | case2 high =>
      have bound := high.isLt
      simp only [wordSum, words, List.sum_cons, List.sum_nil, List.length_cons, List.length_nil]
      omega
  | case3 high low rest ih =>
      have highBound := high.isLt
      have lowBound := low.isLt
      simp only [wordSum_cons_cons, List.length_cons]
      omega

theorem wordSum_toBeBytes (value : BitVec 16) : wordSum (toBeBytes 2 value) = value.toNat := by
  have spelled := ofBeBytes_toBeBytes 2 value
  have bound := value.isLt
  rw [Nat.mod_eq_of_lt (by omega)] at spelled
  simp only [toBeBytes, ofBeBytes_cons] at spelled ⊢
  simp only [wordSum_cons_cons, wordSum_nil, List.length_cons, List.length_nil] at spelled ⊢
  simp only [ofBeBytes, List.foldl_nil] at spelled
  omega

/-- One turn of the folding loop on a 32-bit register. -/
def foldCarry : Step (BitVec 32) := fun sum =>
  if sum >>> 16 ≠ 0 then some ((sum &&& 0xFFFF#32) + (sum >>> 16)) else none

/-- Fold the carries of a register; every turn lowers its value. -/
def foldCarries (sum : BitVec 32) : BitVec 32 :=
  drain foldCarry sum.toNat sum

theorem foldCarry_eq_some {sum sum' : BitVec 32} (turn : foldCarry sum = some sum') :
    2 ^ 16 ≤ sum.toNat ∧ sum'.toNat = sum.toNat % 2 ^ 16 + sum.toNat / 2 ^ 16 := by
  unfold foldCarry at turn
  split at turn
  · rename_i carries
    obtain rfl := Option.some.inj turn
    have bound := sum.isLt
    have high : (sum >>> 16).toNat = sum.toNat / 2 ^ 16 := by
      rw [BitVec.toNat_ushiftRight, Nat.shiftRight_eq_div_pow]
    have low : (sum &&& 0xFFFF#32).toNat = sum.toNat % 2 ^ 16 := by
      rw [BitVec.toNat_and]
      exact Nat.and_two_pow_sub_one_eq_mod sum.toNat 16
    have nonzero : (sum >>> 16).toNat ≠ 0 := fun zero =>
      carries (BitVec.eq_of_toNat_eq zero)
    rw [high] at nonzero
    refine ⟨by omega, ?_⟩
    rw [BitVec.toNat_add, low, high, Nat.mod_eq_of_lt (by omega)]
  · contradiction

theorem foldCarry_eq_none {sum : BitVec 32} (stopped : foldCarry sum = none) :
    sum.toNat < 2 ^ 16 := by
  unfold foldCarry at stopped
  split at stopped
  · contradiction
  · rename_i noCarries
    have zero : (sum >>> 16).toNat = 0 := by
      rw [not_not.mp noCarries]
      rfl
    rw [BitVec.toNat_ushiftRight, Nat.shiftRight_eq_div_pow] at zero
    omega

/-- Folding finds the representative of the register's value. -/
theorem represents_foldCarries (sum : BitVec 32) :
    Represents (foldCarries sum).toNat sum.toNat := by
  have stopped : foldCarry (foldCarries sum) = none := by
    refine drain_terminal BitVec.toNat ?_ _ le_rfl
    intro first second turn
    rcases foldCarry_eq_some turn with ⟨large, value⟩
    omega
  obtain ⟨congruent, zero⟩ : (foldCarries sum).toNat % (2 ^ 16 - 1) = sum.toNat % (2 ^ 16 - 1) ∧
      ((foldCarries sum).toNat = 0 ↔ sum.toNat = 0) := by
    refine drain_invariant (fun folded : BitVec 32 =>
      folded.toNat % (2 ^ 16 - 1) = sum.toNat % (2 ^ 16 - 1) ∧
        (folded.toNat = 0 ↔ sum.toNat = 0)) ?_ _ ⟨rfl, Iff.rfl⟩
    rintro first second turn ⟨congruent, zero⟩
    rcases foldCarry_eq_some turn with ⟨large, value⟩
    exact ⟨by omega, by omega⟩
  exact ⟨foldCarry_eq_none stopped, congruent, zero⟩

end Corduit.Word
