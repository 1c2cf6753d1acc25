import Mathlib.Data.List.Nodup

/-!
# Lists threaded through an arena

A doubly linked list whose cells live in an arena stores, in each cell, the
indices of its two neighbours.  `Threads links order` says that the links spell
out `order`: the neighbours of a cell are the end of what stands before it and
the beginning of what stands behind it.  Splitting the order at a cell is the
only way it is taken apart, so removing a cell and putting one in front are
stated on such splits.
-/

namespace Corduit.Collection

/-- The neighbours of a cell. -/
structure Link where
  prev : Option Nat := none
  next : Option Nat := none
  deriving DecidableEq, Repr

/-- The links of the cells in `order` point at their neighbours in it. -/
structure Threads (links : Nat → Option Link) (order : List Nat) : Prop where
  distinct : order.Nodup
  linked : ∀ before cell after, order = before ++ cell :: after →
    links cell = some ⟨before.getLast?, after.head?⟩

namespace Threads

variable {links links' : Nat → Option Link} {before after order : List Nat} {cell : Nat}

theorem nil : Threads links [] where
  distinct := List.nodup_nil
  linked before cell after split := by simp at split

theorem link (threads : Threads links (before ++ cell :: after)) :
    links cell = some ⟨before.getLast?, after.head?⟩ :=
  threads.linked before cell after rfl

theorem isSome (threads : Threads links order) (member : cell ∈ order) :
    (links cell).isSome = true := by
  rcases List.append_of_mem member with ⟨before, after, rfl⟩
  rw [threads.link]
  rfl

theorem not_mem_before (threads : Threads links (before ++ cell :: after)) : cell ∉ before :=
  fun member => (List.nodup_append.mp threads.distinct).2.2 cell member cell
    List.mem_cons_self rfl

theorem not_mem_after (threads : Threads links (before ++ cell :: after)) : cell ∉ after :=
  (List.nodup_cons.mp (List.nodup_append.mp threads.distinct).2.1).1

/-- The links of the cells are inverse to each other. -/
theorem next_iff_prev (threads : Threads links order) {other : Nat} :
    cell ∈ order ∧ (links cell).bind Link.next = some other ↔
      other ∈ order ∧ (links other).bind Link.prev = some cell := by
  constructor
  · rintro ⟨member, next⟩
    rcases List.append_of_mem member with ⟨before, after, rfl⟩
    rw [threads.link] at next
    rcases List.head?_eq_some_iff.mp next with ⟨rest, rfl⟩
    have linked := threads.linked (before ++ [cell]) other rest (by simp)
    exact ⟨by simp, by simp [linked]⟩
  · rintro ⟨member, prev⟩
    rcases List.append_of_mem member with ⟨before, after, rfl⟩
    rw [threads.link] at prev
    rcases List.getLast?_eq_some_iff.mp prev with ⟨rest, rfl⟩
    have linked := threads.linked rest cell (other :: after) (by simp)
    exact ⟨by simp, by simp [linked]⟩

/-- Following the links walks along the order. -/
theorem next_getElem (threads : Threads links order) {i : Nat} (here : order[i]? = some cell) :
    (links cell).bind Link.next = order[i + 1]? := by
  have split : order = order.take i ++ cell :: order.drop (i + 1) := by
    rcases List.getElem?_eq_some_iff.mp here with ⟨inside, rfl⟩
    rw [List.getElem_cons_drop, List.take_append_drop]
  rw [threads.linked _ _ _ split]
  exact List.head?_drop

theorem head?_eq_iff (threads : Threads links (before ++ cell :: after)) :
    (before ++ cell :: after).head? = some cell ↔ before = [] := by
  cases before with
  | nil => simp
  | cons first before =>
      have other : cell ∉ first :: before := threads.not_mem_before
      simp only [List.cons_append, List.head?_cons, Option.some.injEq, reduceCtorEq, iff_false]
      exact fun same => other (same ▸ List.mem_cons_self)

/-- The neighbours of a cell that left are joined to each other. -/
theorem unlink (threads : Threads links (before ++ cell :: after))
    (relinked : ∀ other ≠ cell, links' other = (links other).map fun link =>
      ⟨if after.head? = some other then before.getLast? else link.prev,
        if before.getLast? = some other then after.head? else link.next⟩) :
    Threads links' (before ++ after) := by
  have parts := List.nodup_append.mp threads.distinct
  have afterNodup := (List.nodup_cons.mp parts.2.1).2
  have apart : ∀ other ∈ before, other ∉ after := fun other inBefore inAfter =>
    parts.2.2 other inBefore other (List.mem_cons_of_mem cell inAfter) rfl
  constructor
  · exact List.nodup_append.mpr ⟨parts.1, afterNodup, fun first inBefore second inAfter same =>
      apart first inBefore (same ▸ inAfter)⟩
  · intro front other back split
    rcases List.append_eq_append_iff.mp split with ⟨rest, rfl, tail_eq⟩ | ⟨rest, rfl, tail_eq⟩
    · -- The cell stands behind the removed one, or right at its place.
      subst tail_eq
      have different : other ≠ cell := by
        rintro rfl
        exact threads.not_mem_after (by simp)
      have notBefore : before.getLast? ≠ some other := fun last =>
        apart other (List.mem_of_getLast? last) (by simp)
      have old := threads.linked (before ++ cell :: rest) other back (by simp)
      rw [relinked other different, old]
      simp only [Option.map_some, notBefore, if_false]
      cases rest with
      | nil => simp
      | cons next rest =>
          have notHead : next ≠ other := by
            rintro rfl
            exact (List.nodup_cons.mp afterNodup).1 (by simp)
          simp [notHead, List.getLast?_append]
    · cases rest with
      | nil =>
          -- Nothing of the front part is left over: the cell was the next one.
          obtain rfl : other :: back = after := by simpa using tail_eq
          rw [List.append_nil] at threads apart
          simp only [List.append_nil] at relinked
          have different : other ≠ cell := by
            rintro rfl
            exact threads.not_mem_after (by simp)
          have notBefore : front.getLast? ≠ some other := fun last =>
            apart other (List.mem_of_getLast? last) (by simp)
          have old := threads.linked (front ++ [cell]) other back (by simp)
          rw [relinked other different, old]
          simp only [Option.map_some, List.head?_cons, if_true, if_neg notBefore]
      | cons first rest =>
          -- The cell stands before the removed one.
          obtain ⟨rfl, rfl⟩ : other = first ∧ back = rest ++ after := by simpa using tail_eq
          have different : other ≠ cell := by
            rintro rfl
            exact threads.not_mem_before (by simp)
          have notAfter : after.head? ≠ some other := fun head =>
            apart other (by simp) (List.mem_of_head? head)
          have old := threads.linked front other (rest ++ cell :: after) (by simp)
          rw [relinked other different, old]
          simp only [Option.map_some, notAfter, if_false]
          cases rest with
          | nil => simp
          | cons next rest =>
              have notLast : (front ++ other :: next :: rest).getLast? ≠ some other := by
                intro last
                have tail := (List.nodup_append.mp parts.1).2.1
                rw [List.getLast?_append_of_ne_nil _ (by simp), List.getLast?_cons_cons] at last
                exact (List.nodup_cons.mp tail).1 (List.mem_of_getLast? last)
              rw [if_neg notLast]
              simp

/-- A new cell in front becomes the neighbour of the old first one. -/
theorem pushFront (threads : Threads links order) (fresh : cell ∉ order)
    (front : links' cell = some ⟨none, order.head?⟩)
    (others : ∀ other ≠ cell, links' other = (links other).map fun link =>
      ⟨if order.head? = some other then some cell else link.prev, link.next⟩) :
    Threads links' (cell :: order) := by
  constructor
  · exact List.nodup_cons.mpr ⟨fresh, threads.distinct⟩
  · intro before other after split
    cases before with
    | nil =>
        obtain ⟨rfl, rfl⟩ : cell = other ∧ order = after := by simpa using split
        exact front
    | cons first before =>
        obtain ⟨rfl, rfl⟩ : cell = first ∧ order = before ++ other :: after := by
          simpa using split
        have different : other ≠ cell := by
          rintro rfl
          exact fresh (by simp)
        rw [others other different, threads.link]
        cases before with
        | nil => simp
        | cons second before =>
            have notHead : second ≠ other := by
              rintro rfl
              exact threads.not_mem_before (by simp)
            simp [notHead]

theorem congr (threads : Threads links order)
    (same : ∀ other ∈ order, links' other = links other) : Threads links' order where
  distinct := threads.distinct
  linked before other after split := by
    subst split
    rw [same other (by simp), threads.link]

end Threads

end Corduit.Collection
