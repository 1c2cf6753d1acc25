import Mathlib.Data.List.Sort

/-!
# Priority queues

A priority queue hands out its least element first.  It is a list that is kept
sorted, so that the element to hand out is its head; how a heap lays its
elements out is not part of what it means.
-/

namespace Corduit.Collection

universe u

/-- The elements that wait, the least one first. -/
structure PriorityQueue (α : Type u) [LE α] where
  elements : List α
  sorted : elements.Pairwise (· ≤ ·)

namespace PriorityQueue

variable {α : Type u}

/-- A queue in which nothing waits. -/
def empty [LE α] : PriorityQueue α :=
  ⟨[], List.Pairwise.nil⟩

/-- Take the least element out. -/
def pop? [LE α] : PriorityQueue α → Option (α × PriorityQueue α)
  | ⟨[], _⟩ => none
  | ⟨least :: others, sorted⟩ => some (least, ⟨others, sorted.of_cons⟩)

theorem elements_of_pop? [LE α] {queue rest : PriorityQueue α} {least : α}
    (popped : queue.pop? = some (least, rest)) : queue.elements = least :: rest.elements := by
  rcases queue with ⟨_ | ⟨head, tail⟩, sorted⟩
  · cases popped
  · cases popped
    rfl

section LinearOrder

variable [LinearOrder α]

/-- Put an element in. -/
def push (queue : PriorityQueue α) (element : α) : PriorityQueue α :=
  ⟨queue.elements.orderedInsert (· ≤ ·) element, queue.sorted.orderedInsert element _⟩

theorem perm_push (queue : PriorityQueue α) (element : α) :
    (queue.push element).elements.Perm (element :: queue.elements) :=
  List.perm_orderedInsert (· ≤ ·) element queue.elements

@[simp]
theorem mem_push {queue : PriorityQueue α} {element other : α} :
    other ∈ (queue.push element).elements ↔ other = element ∨ other ∈ queue.elements :=
  List.mem_orderedInsert (· ≤ ·)

end LinearOrder

end PriorityQueue

end Corduit.Collection
