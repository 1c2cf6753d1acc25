import Mathlib.Data.BitVec
import Mathlib.Tactic.Ring

/-!
# Serial-number arithmetic

Sequence numbers of width `w` live on a circle; two of them are compared
through the sign of their wrapped difference.  The comparison is not a
transitive order on the whole circle.  On numbers that lie within half a
circle of a common base it agrees with the order of their offsets, wherever
the base lies; that agreement is what the window lemmas below state.
-/

namespace Corduit.Word.Serial

variable {w : Nat}

/-- The wrapped difference `first - second` is negative. -/
def before (first second : BitVec w) : Bool :=
  decide ((first - second).toInt < 0)

/-- The wrapped difference `first - second` is positive. -/
def after (first second : BitVec w) : Bool :=
  decide (0 < (first - second).toInt)

/-- Equal, or `before`. -/
def beforeOrEq (first second : BitVec w) : Bool :=
  first == second || before first second

section

variable (first second : BitVec w)

theorem before_iff :
    before first second = true ↔ 2 ^ w ≤ 2 * (first - second).toNat := by
  have bound := (first - second).isLt
  simp only [before, decide_eq_true_eq, BitVec.toInt_eq_toNat_cond]
  split <;> omega

theorem after_iff :
    after first second = true ↔
      0 < (first - second).toNat ∧ 2 * (first - second).toNat < 2 ^ w := by
  have bound := (first - second).isLt
  simp only [after, decide_eq_true_eq, BitVec.toInt_eq_toNat_cond]
  split <;> omega

theorem sub_toNat_eq_zero_iff :
    (first - second).toNat = 0 ↔ first = second := by
  constructor
  · intro zero
    have difference : first - second = 0#w := BitVec.eq_of_toNat_eq (by simpa using zero)
    exact sub_eq_zero.mp difference
  · rintro rfl
    simp

/-- Every pair is before-or-equal or after, and never both. -/
theorem after_eq_not_beforeOrEq :
    after first second = !beforeOrEq first second := by
  have zero := sub_toNat_eq_zero_iff first second
  have isBefore := before_iff first second
  have isAfter := after_iff first second
  by_cases equal : first = second
  · subst second
    simp [beforeOrEq, after]
  · have distance : 0 < (first - second).toNat := by
      have nonzero := mt zero.mp equal
      omega
    cases beforeCase : before first second with
    | true =>
        have half := isBefore.mp beforeCase
        have notAfter : after first second ≠ true := fun positive => by
          have bound := (isAfter.mp positive).2
          omega
        simp [beforeOrEq, beforeCase, notAfter]
    | false =>
        have half : ¬ 2 ^ w ≤ 2 * (first - second).toNat := fun bound => by
          simp [isBefore.mpr bound] at beforeCase
        have positive : after first second = true :=
          isAfter.mpr ⟨distance, by omega⟩
        simp [beforeOrEq, beforeCase, positive, equal]

end

/-- The sequence number `offset` places after `base`. -/
def place (base : BitVec w) (offset : Nat) : BitVec w :=
  base + BitVec.ofNat w offset

section

variable (base : BitVec w)

@[simp]
theorem place_zero : place base 0 = base := by
  simp [place]

theorem place_add (offset length : Nat) :
    place base (offset + length) = place base offset + BitVec.ofNat w length := by
  rw [place, place, BitVec.ofNat_add, add_assoc]

theorem place_sub_place {low high : Nat} (ordered : low ≤ high) :
    place base high - place base low = BitVec.ofNat w (high - low) := by
  rcases Nat.exists_eq_add_of_le ordered with ⟨length, rfl⟩
  rw [place_add, Nat.add_sub_cancel_left]
  ring

/-- Within one circle the wrapped difference recovers the offset. -/
theorem place_sub_place_toNat {low high : Nat} (ordered : low ≤ high) (bound : high < 2 ^ w) :
    (place base high - place base low).toNat = high - low := by
  rw [place_sub_place base ordered, BitVec.toNat_ofNat]
  exact Nat.mod_eq_of_lt (by omega)

theorem place_sub_place_toNat_of_lt {low high : Nat} (ordered : low < high) (bound : high < 2 ^ w) :
    (place base low - place base high).toNat = 2 ^ w - (high - low) := by
  have swapped : place base low - place base high =
      -(place base high - place base low) := by ring
  rw [swapped, BitVec.toNat_neg, place_sub_place_toNat base ordered.le bound]
  exact Nat.mod_eq_of_lt (by omega)

end

/-- Every sequence number has a place after `base`. -/
theorem place_sub_toNat (base value : BitVec w) : place base (value - base).toNat = value := by
  rw [place, BitVec.ofNat_toNat, BitVec.setWidth_eq]
  ring

variable (base : BitVec w) {first second : Nat}

theorem place_inj (firstBound : first < 2 ^ w) (secondBound : second < 2 ^ w) :
    place base first = place base second ↔ first = second := by
  constructor
  · intro equal
    have offsets : BitVec.ofNat w first = BitVec.ofNat w second := add_left_cancel equal
    have values := congrArg BitVec.toNat offsets
    simpa [Nat.mod_eq_of_lt, firstBound, secondBound] using values
  · rintro rfl
    rfl

theorem after_place (firstBound : 2 * first < 2 ^ w) (secondBound : 2 * second ≤ 2 ^ w) :
    after (place base first) (place base second) = true ↔ second < first := by
  have positive := Nat.two_pow_pos w
  rw [after_iff]
  rcases Nat.lt_or_ge first second with smaller | larger
  · rw [place_sub_place_toNat_of_lt base smaller (by omega)]
    omega
  · rw [place_sub_place_toNat base larger (by omega)]
    omega

theorem beforeOrEq_place (firstBound : 2 * first < 2 ^ w) (secondBound : 2 * second < 2 ^ w) :
    beforeOrEq (place base first) (place base second) = true ↔ first ≤ second := by
  have positive := after_place base firstBound secondBound.le
  rw [after_eq_not_beforeOrEq] at positive
  cases comparison : beforeOrEq (place base first) (place base second) with
  | true => simpa [comparison] using positive
  | false => simpa [comparison] using positive

end Corduit.Word.Serial
