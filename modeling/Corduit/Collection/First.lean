import Mathlib.Data.List.Basic
import Mathlib.Data.List.Induction
import Mathlib.Data.Option.Basic
import Mathlib.Order.Lattice

/-!
# First matches

The first item of a list that passes a test, with its position.  The test may
depend on the position, as it does in a loop that carries a state along.
-/

namespace Corduit.Collection

universe u

variable {α : Type u}

/-- The first item that passes the test, and where it stands. -/
def firstMatch : (Nat → α → Bool) → List α → Option (α × Nat)
  | _, [] => none
  | test, item :: items =>
      if test 0 item then
        some (item, 0)
      else
        (firstMatch (fun index => test (index + 1)) items).map fun found =>
          (found.1, found.2 + 1)

/-- No item before the position passes the test. -/
def Reaches (test : Nat → α → Bool) (items : List α) (index : Nat) : Prop :=
  ∀ earlier item, earlier < index → items[earlier]? = some item → test earlier item = false

section Reaching

variable {test other : Nat → α → Bool} {items : List α}

theorem reaches_zero : Reaches test items 0 :=
  fun _ _ earlier => absurd earlier (Nat.not_lt_zero _)

theorem reaches_succ_iff (item : α) (index : Nat) :
    Reaches test (item :: items) (index + 1) ↔
      test 0 item = false ∧ Reaches (fun index => test (index + 1)) items index := by
  constructor
  · intro reaches
    constructor
    · exact reaches 0 item (Nat.succ_pos index) rfl
    · intro earlier found before present
      exact reaches (earlier + 1) found (Nat.succ_lt_succ before) present
  · rintro ⟨first, rest⟩ earlier found before present
    cases earlier with
    | zero =>
        obtain rfl : item = found := Option.some.inj present
        exact first
    | succ earlier => exact rest earlier found (Nat.lt_of_succ_lt_succ before) present

/-- Where two tests agree as far as the second one reaches, the first one
reaches as far. -/
theorem Reaches.congr {index : Nat} (reaches : Reaches other items index)
    (agree : ∀ index item, items[index]? = some item → Reaches other items index →
      test index item = other index item) : Reaches test items index := by
  intro earlier item before present
  have reached : Reaches other items earlier :=
    fun first found lower => reaches first found (Nat.lt_trans lower before)
  rw [agree earlier item present reached]
  exact reaches earlier item before present

end Reaching

theorem firstMatch_cons_of_true {test : Nat → α → Bool} {item : α} (items : List α)
    (passes : test 0 item = true) : firstMatch test (item :: items) = some (item, 0) := by
  rw [firstMatch, if_pos passes]

theorem firstMatch_cons_of_false {test : Nat → α → Bool} {item : α} (items : List α)
    (fails : test 0 item = false) :
    firstMatch test (item :: items) =
      (firstMatch (fun index => test (index + 1)) items).map fun found =>
        (found.1, found.2 + 1) := by
  rw [firstMatch, if_neg (by rw [fails]; exact Bool.false_ne_true)]

theorem shifted_ne_zero (found : Option (α × Nat)) (item : α) :
    (found.map fun found => (found.1, found.2 + 1)) ≠ some (item, 0) := by
  cases found with
  | none => simp
  | some found => simp

theorem shift_injective :
    Function.Injective (Option.map fun found : α × Nat => (found.1, found.2 + 1)) := by
  apply Option.map_injective
  rintro ⟨item, index⟩ ⟨item', index'⟩ same
  simpa using same

/-- Two tests select the same item exactly if they agree as far as the second
one reaches. -/
theorem firstMatch_eq_iff (test other : Nat → α → Bool) (items : List α) :
    firstMatch test items = firstMatch other items ↔
      ∀ index item, items[index]? = some item → Reaches other items index →
        test index item = other index item := by
  induction items generalizing test other with
  | nil => simp [firstMatch]
  | cons item items ih =>
      cases first : test 0 item <;> cases second : other 0 item
      · -- neither takes the first item
        rw [firstMatch_cons_of_false items first, firstMatch_cons_of_false items second,
          shift_injective.eq_iff, ih]
        constructor
        · intro agree index found present reaches
          cases index with
          | zero =>
              obtain rfl : item = found := Option.some.inj present
              rw [first, second]
          | succ index =>
              exact agree index found present ((reaches_succ_iff item index).mp reaches).2
        · intro agree index found present reaches
          exact agree (index + 1) found present
            ((reaches_succ_iff item index).mpr ⟨second, reaches⟩)
      · rw [firstMatch_cons_of_false items first, firstMatch_cons_of_true items second]
        constructor
        · intro same
          exact absurd same (shifted_ne_zero _ item)
        · intro agree
          have differ := agree 0 item rfl reaches_zero
          rw [first, second] at differ
          exact absurd differ Bool.false_ne_true
      · rw [firstMatch_cons_of_true items first, firstMatch_cons_of_false items second]
        constructor
        · intro same
          exact absurd same.symm (shifted_ne_zero _ item)
        · intro agree
          have differ := agree 0 item rfl reaches_zero
          rw [first, second] at differ
          exact absurd differ.symm Bool.false_ne_true
      · -- both take it, and neither reaches further
        rw [firstMatch_cons_of_true items first, firstMatch_cons_of_true items second]
        constructor
        · intro _ index found present reaches
          cases index with
          | zero =>
              obtain rfl : item = found := Option.some.inj present
              rw [first, second]
          | succ index =>
              have fails := ((reaches_succ_iff item index).mp reaches).1
              rw [second] at fails
              exact absurd fails.symm Bool.false_ne_true
        · intro _
          rfl

end Corduit.Collection

/-!
# The first best item

A scan that keeps the item with the least measure.  Items without a measure
only count when there is no other, and of equals the first is kept.
-/

namespace Corduit.Collection

universe u v

variable {α : Type u} {β : Type v}

/-- The item stands in the list, every measured item before it measures more and
none behind it measures less; without a measure it is the first of a list
without measures. -/
def FirstBest [LT β] [LE β] (items : List α) (measure : α → Option β) (item : α) : Prop :=
  ∃ before after, items = before ++ item :: after ∧
    match measure item with
    | some best =>
        (∀ other ∈ before, ∀ value, measure other = some value → best < value) ∧
          ∀ other ∈ after, ∀ value, measure other = some value → best ≤ value
    | none => before = [] ∧ ∀ other ∈ after, measure other = none

/-- One step of the scan: what is kept is an item and its measure. -/
def keepBest [LT β] [DecidableLT β] (measure : α → Option β) (kept : Option (Option β × α))
    (item : α) : Option (Option β × α) :=
  match kept with
  | some (some current, _) =>
      if (measure item).any (· < current) then some (measure item, item) else kept
  | some (none, _) => if (measure item).isSome then some (measure item, item) else kept
  | none => some (measure item, item)

/-- The scan. -/
def firstBest [LT β] [DecidableLT β] (measure : α → Option β) (items : List α) : Option α :=
  (items.foldl (keepBest measure) none).map Prod.snd

variable [LinearOrder β] {measure : α → Option β}

theorem firstBest_singleton (item : α) : FirstBest [item] measure item := by
  refine ⟨[], [], rfl, ?_⟩
  cases measure item with
  | none => exact ⟨rfl, fun other member => absurd member List.not_mem_nil⟩
  | some best =>
      exact ⟨fun other member => absurd member List.not_mem_nil,
        fun other member => absurd member List.not_mem_nil⟩

variable {items : List α}

/-- A last item that is not better leaves the best one. -/
theorem FirstBest.append {best item : α} (kept : FirstBest items measure best)
    (notBetter : match measure best with
      | some current => ∀ value, measure item = some value → current ≤ value
      | none => measure item = none) :
    FirstBest (items ++ [item]) measure best := by
  rcases kept with ⟨before, after, split, least⟩
  refine ⟨before, after ++ [item], by rw [split, List.append_assoc, List.cons_append], ?_⟩
  cases measured : measure best with
  | none =>
      rw [measured] at least notBetter
      refine ⟨least.1, fun other member => ?_⟩
      rcases List.mem_append.mp member with old | last
      · exact least.2 other old
      · rw [List.mem_singleton.mp last]
        exact notBetter
  | some current =>
      rw [measured] at least notBetter
      refine ⟨least.1, fun other member value found => ?_⟩
      rcases List.mem_append.mp member with old | last
      · exact least.2 other old value found
      · rw [List.mem_singleton.mp last] at found
        exact notBetter value found

/-- A last item that measures less than the best is the best one. -/
theorem FirstBest.replace {best item : α} {value : β} (kept : FirstBest items measure best)
    (measured : measure item = some value)
    (better : ∀ current, measure best = some current → value < current) :
    FirstBest (items ++ [item]) measure item := by
  refine ⟨items, [], rfl, ?_⟩
  rw [measured]
  refine ⟨fun other member value' found => ?_, fun other member => absurd member List.not_mem_nil⟩
  rcases kept with ⟨before, after, split, least⟩
  rw [split] at member
  cases bestMeasure : measure best with
  | none =>
      rw [bestMeasure] at least
      rcases least with ⟨rfl, unmeasured⟩
      rcases List.mem_cons.mp member with rfl | behind
      · rw [bestMeasure] at found
        cases found
      · rw [unmeasured other behind] at found
        cases found
  | some current =>
      rw [bestMeasure] at least
      have less := better current bestMeasure
      rcases List.mem_append.mp member with front | member
      · exact lt_trans less (least.1 other front value' found)
      rcases List.mem_cons.mp member with rfl | behind
      · rw [bestMeasure] at found
        rwa [← Option.some.inj found]
      · exact lt_of_lt_of_le less (least.2 other behind value' found)

/-- The scan keeps the first best item of what it has seen. -/
theorem foldl_keepBest (measure : α → Option β) (nonempty : items ≠ []) :
    ∃ best, items.foldl (keepBest measure) none = some (measure best, best) ∧
      FirstBest items measure best := by
  induction items using List.reverseRecOn with
  | nil => exact absurd rfl nonempty
  | append_singleton items item ih =>
      rw [List.foldl_append]
      by_cases first : items = []
      · subst first
        exact ⟨item, rfl, firstBest_singleton item⟩
      · rcases ih first with ⟨best, scanned, kept⟩
        rw [scanned]
        change ∃ winner, keepBest measure (some (measure best, best)) item =
          some (measure winner, winner) ∧ FirstBest (items ++ [item]) measure winner
        cases bestMeasure : measure best with
        | none =>
            cases measured : measure item with
            | none =>
                refine ⟨best, ?_, kept.append (by rw [bestMeasure]; exact measured)⟩
                rw [bestMeasure, keepBest, measured]
                rfl
            | some value =>
                refine ⟨item, ?_, kept.replace measured fun current same => ?_⟩
                · rw [keepBest, measured]
                  rfl
                · rw [bestMeasure] at same
                  cases same
        | some current =>
            by_cases better : (measure item).any (· < current) = true
            · rcases (Option.any_eq_true _ _).mp better with ⟨value, measured, less⟩
              refine ⟨item, ?_, kept.replace measured fun other same => ?_⟩
              · rw [keepBest, if_pos better]
              · rw [bestMeasure] at same
                rw [← Option.some.inj same]
                exact of_decide_eq_true less
            · refine ⟨best, ?_, kept.append ?_⟩
              · rw [bestMeasure, keepBest, if_neg better]
              · rw [bestMeasure]
                intro value measured
                rw [measured] at better
                exact le_of_not_gt fun less => better (decide_eq_true less)

theorem firstBest_spec (measure : α → Option β) (nonempty : items ≠ []) :
    ∃ best, firstBest measure items = some best ∧ FirstBest items measure best := by
  rcases foldl_keepBest measure nonempty with ⟨best, scanned, kept⟩
  exact ⟨best, by rw [firstBest, scanned]; rfl, kept⟩

end Corduit.Collection
