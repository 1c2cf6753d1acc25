import Mathlib.Data.BitVec
import Mathlib.Order.Defs.Unbundled

/-!
# Machine words

Fixed-width values whose width matters are bit vectors.  Sizes and counters of
type `usize` are natural numbers: what they count lives in memory, so their
sums stay in range, while the operations whose edge behaviour programs rely on
(saturation, and the wrap of a subtraction that goes below zero) are spelled
out here.
-/

namespace Corduit.Word

/-- One byte. -/
abbrev Byte := BitVec 8

/-- The largest `usize` of a 64-bit target. -/
def usizeMax : Nat :=
  2 ^ 64 - 1

/-- `usize::saturating_add`. -/
def saturatingAdd (first second : Nat) : Nat :=
  min (first + second) usizeMax

/-- `usize` subtraction without overflow checks: below zero it wraps. -/
def wrappingSub (first second : Nat) : Nat :=
  if second ≤ first then first - second else first + 2 ^ 64 - second

theorem wrappingSub_of_le {first second : Nat} (enough : second ≤ first) :
    wrappingSub first second = first - second :=
  if_pos enough

/-- Subtraction with overflow checks: below zero the program stops. -/
def checkedSub (first second : Nat) : Option Nat :=
  if second ≤ first then some (first - second) else none

theorem checkedSub_of_le {first second : Nat} (enough : second ≤ first) :
    checkedSub first second = some (first - second) :=
  if_pos enough

/-- The unsigned order of bit vectors is a strict total order. -/
instance isStrictTotalOrder_bitVec {w : Nat} : IsStrictTotalOrder (BitVec w) (· < ·) where
  trichotomous first second notLess notGreater :=
    BitVec.eq_of_toNat_eq (by
      simp only [BitVec.lt_def] at notLess notGreater
      omega)
  irrefl value := by simp
  trans first second third := BitVec.lt_trans

/-!
# Registers

Vectors of a fixed length that are read with `Vector.get` and written place by
place, with the lengths at which a place is written as a numeral.
-/

instance neZeroFour : NeZero 4 :=
  ⟨Nat.succ_ne_zero 3⟩

instance neZeroEight : NeZero 8 :=
  ⟨Nat.succ_ne_zero 7⟩

instance neZeroSixteen : NeZero 16 :=
  ⟨Nat.succ_ne_zero 15⟩

end Corduit.Word

namespace Vector

variable {α β : Type} {n : Nat}

/-- Another element at a place. -/
def put (vector : Vector α n) (place : Fin n) (element : α) : Vector α n :=
  vector.set place.val element place.isLt

@[simp]
theorem get_put_self (vector : Vector α n) (place : Fin n) (element : α) :
    (vector.put place element).get place = element :=
  Vector.getElem_set_self place.isLt

theorem get_put_ne (vector : Vector α n) {place other : Fin n} (element : α)
    (elsewhere : place ≠ other) : (vector.put place element).get other = vector.get other :=
  Vector.getElem_set_ne place.isLt other.isLt fun same => elsewhere (Fin.ext same)

theorem ext_get {first second : Vector α n} (same : ∀ place, first.get place = second.get place) :
    first = second :=
  Vector.ext fun i inside => same ⟨i, inside⟩

theorem get_map_eq (transform : α → β) (vector : Vector α n) (place : Fin n) :
    (vector.map transform).get place = transform (vector.get place) :=
  Vector.getElem_map transform place.isLt

end Vector
