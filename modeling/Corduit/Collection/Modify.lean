import Mathlib.Algebra.GroupWithZero.Nat
import Mathlib.Data.List.Basic

/-!
# Updating one element of a list

How `List.modify` interacts with concatenation, with quantification over the
elements, with projections it does not affect, and with sums over the list.
-/

namespace Corduit.Collection

universe u v

variable {α : Type u} {β : Type v} {update : α → α}

theorem modify_append_of_lt {front : List α} {index : Nat} (inFront : index < front.length)
    (back : List α) :
    (front ++ back).modify index update = front.modify index update ++ back := by
  induction front generalizing index with
  | nil => simp at inFront
  | cons head front ih =>
      cases index with
      | zero => simp
      | succ index =>
          simp only [List.length_cons] at inFront
          simp [ih (by omega : index < front.length)]

theorem modify_append_length (front back : List α) (index : Nat) :
    (front ++ back).modify (front.length + index) update =
      front ++ back.modify index update := by
  induction front with
  | nil => simp
  | cons head front ih =>
      rw [List.length_cons, Nat.add_right_comm]
      simp [ih]

/-- A property that the update keeps where it is applied holds of the updated
list. -/
theorem forall_mem_modify {property : α → Prop} {list : List α}
    (all : ∀ element ∈ list, property element) {index : Nat}
    (kept : ∀ element, list[index]? = some element → property element →
      property (update element)) :
    ∀ element ∈ list.modify index update, property element := by
  induction list generalizing index with
  | nil => simp
  | cons head list ih =>
      simp only [List.forall_mem_cons] at all
      cases index with
      | zero =>
          simp only [List.modify_zero_cons, List.forall_mem_cons]
          exact ⟨kept head rfl all.1, all.2⟩
      | succ index =>
          simp only [List.modify_succ_cons, List.forall_mem_cons]
          exact ⟨all.1, ih all.2 fun element located => kept element (by simpa using located)⟩

theorem map_modify_of_same {project : α → β} {list : List α}
    (same : ∀ element ∈ list, project (update element) = project element) (index : Nat) :
    (list.modify index update).map project = list.map project := by
  induction list generalizing index with
  | nil => simp
  | cons head list ih =>
      simp only [List.forall_mem_cons] at same
      cases index <;> simp [same.1, ih same.2]

/-- A sum over the list changes by what the update changes. -/
theorem sum_map_modify (update : α → α) (size : α → Nat) {list : List α} {index : Nat} {element : α}
    (located : list[index]? = some element) :
    ((list.modify index update).map size).sum + size element =
      (list.map size).sum + size (update element) := by
  induction list generalizing index with
  | nil => simp at located
  | cons head list ih =>
      cases index with
      | zero =>
          obtain rfl : head = element := by simpa using located
          simp only [List.modify_zero_cons, List.map_cons, List.sum_cons]
          omega
      | succ index =>
          have rest := ih (by simpa using located)
          simp only [List.modify_succ_cons, List.map_cons, List.sum_cons]
          omega

end Corduit.Collection
