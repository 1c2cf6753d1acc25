import Corduit.Common.Lru.Refinement
import Corduit.Transition.Core

/-!
# Runs of the cache

The remaining operations, then every sequence of calls: the cache never stops
at an index or an `expect`, its replies are those of the reference list, and
after the calls its arena, map and counter fit together.
-/

namespace Corduit.Common.Lru

open Collection Transition

universe u

variable {κ υ : Type u} [DecidableEq κ]

namespace LruCache

variable {cache : LruCache κ υ} {nodes before after : List (Node κ υ)} {capacity : Nat}

namespace Represents

section

variable (holds : cache.Represents capacity nodes)

include holds

theorem makeRoom {key : κ} (absent : cache.map.lookup key = none) :
    ∃ cache' nodes' evicted, cache.makeRoom = some (cache', evicted) ∧
      (cache'.Represents capacity nodes' ∧ cache.Sweeps cache') ∧
      cache'.map.lookup key = none ∧ nodes'.length < capacity ∧
      (nodes'.map Node.entry, evicted) =
        if (nodes.map Node.entry).length = capacity then
          ((nodes.map Node.entry).dropLast, (nodes.map Node.entry).getLast?)
        else (nodes.map Node.entry, none) := by
  rw [LruCache.makeRoom, holds.counted, holds.limited, List.length_map]
  by_cases full : nodes.length = capacity
  · rw [if_pos full, if_pos full]
    rcases holds.evictLru with ⟨cache', nodes', evicted, holds', dropped, absent'⟩
    refine ⟨cache', nodes', _, evicted, holds', absent' key absent, ?_, by rw [dropped]⟩
    have shorter := congrArg List.length dropped
    have positive := holds.limited ▸ cache.positive
    simp only [List.length_dropLast, List.length_map] at shorter
    omega
  · rw [if_neg full, if_neg full]
    exact ⟨cache, nodes, none, rfl, ⟨holds, .refl cache⟩, absent, Nat.lt_of_le_of_ne holds.bounded full, rfl⟩

theorem put (key : κ) (value : υ) :
    ∃ cache' nodes' displaced, cache.put key value = some (cache', displaced) ∧
      (cache'.Represents capacity nodes' ∧ cache.Sweeps cache') ∧
      Reference.put capacity (nodes.map Node.entry) key value =
        (nodes'.map Node.entry, displaced) := by
  unfold LruCache.put Reference.put
  cases located : cache.map.lookup key with
  | some idx =>
      rcases holds.split located with ⟨before, node, after, rfl, rfl, rfl⟩
      rcases holds.slot (by simp : node ∈ _) with ⟨slot, slot_eq, _, value_eq⟩
      obtain ⟨middle, assigned, holds', sweeps⟩ :=
        @setValue _ _ _ _ _ _ _ value _ holds (fun _ => some value) rfl
      rcases holds'.moveToFront with ⟨final, moved, holds'', sweeps'⟩
      refine ⟨final, _, some node.value, ?_, ⟨holds'', sweeps.trans sweeps'⟩, ?_⟩
      · simp [slot_eq, value_eq, assigned, moved]
      · rw [holds.lookup_node, holds.without_node]
        rfl
  | none =>
      obtain ⟨middle, nodes', evicted, made, ⟨holds', sweeps⟩, absent, room, entries⟩ :=
        holds.makeRoom located
      rcases holds'.insertNew absent room value with ⟨final, idx, inserted, holds'', sweeps'⟩
      refine ⟨final, _, evicted.map Prod.snd, ?_, ⟨holds'', sweeps.trans sweeps'⟩, ?_⟩
      · simp [made, inserted]
      · rw [holds.lookup_eq_none located]
        dsimp only
        split at entries
        · next full =>
            rcases Prod.mk.inj entries with ⟨rest, rfl⟩
            rw [if_pos full, List.map_cons, rest]
            rfl
        · next roomy =>
            rcases Prod.mk.inj entries with ⟨rest, rfl⟩
            rw [if_neg roomy, List.map_cons, rest]
            rfl

theorem clear : cache.clear.Represents capacity [] where
  ordered := ⟨Threads.nil, rfl, rfl⟩
  stored node member := by simp at member
  mapped key idx := by simp [LruCache.clear]
  sized := rfl
  counted := rfl
  limited := holds.limited
  bounded := Nat.zero_le _
  freeInside idx member := by simp [LruCache.clear] at member
  freeDistinct := List.nodup_nil

theorem length_le :
    nodes.length ≤ cache.slots.length := by
  have inside : nodes.map Node.idx ⊆ List.range cache.slots.length := fun idx member =>
    List.mem_range.mpr (holds.ordered.lt_length member)
  simpa using (holds.ordered.threads.distinct.subperm inside).length_le

/-- From the slot of a node on, the iteration yields that node and what stands
behind it. -/
theorem iterFrom {bound : Nat} (split : nodes = before ++ after) (enough : after.length ≤ bound) :
    LruCache.iterFrom cache.slots bound (after.map Node.idx).head? =
      some (after.map Node.entry) := by
  induction after generalizing before bound with
  | nil => cases bound <;> rfl
  | cons node after ih =>
      subst split
      obtain ⟨bound, rfl⟩ : ∃ less, bound = less + 1 :=
        Nat.exists_eq_succ_of_ne_zero (by rw [List.length_cons] at enough; omega)
      rcases holds.slot (by simp : node ∈ _) with ⟨slot, slot_eq, key_eq, value_eq⟩
      rcases holds.ordered_split.slot with ⟨_, slot_eq', _, next_eq⟩
      obtain rfl := Option.some.inj (slot_eq.symm.trans slot_eq')
      have rest := ih (List.append_cons before node after) (Nat.le_of_succ_le_succ enough)
      rw [List.map_cons, List.head?_cons, List.map_cons, LruCache.iterFrom, slot_eq]
      simp only [Option.bind_eq_bind, Option.bind_some, key_eq, value_eq, next_eq, rest]
      rfl

theorem iter :
    cache.iter = some (nodes.map Node.entry) := by
  unfold LruCache.iter
  rw [holds.ordered.head]
  exact holds.iterFrom (List.nil_append nodes).symm holds.length_le

end

/-- A call succeeds, keeps the relation and answers as the reference does.  Only where it
removes an entry by its key, a free slot keeps a key. -/
theorem step (holds : cache.Represents capacity nodes) (op : LruOp κ υ) :
    ∃ cache' nodes' reply, cache.step op = some (cache', reply) ∧
      (cache'.Represents capacity nodes' ∧
        (op.Misses cache ∧ cache.Sweeps cache' ∨ ¬op.Misses cache ∧
          ∃ idx ∈ cache'.free, ∃ key, cache'.content idx = some (some key, none))) ∧
      Reference.step capacity (nodes.map Node.entry) op = (nodes'.map Node.entry, reply) := by
  cases op with
  | put key value =>
      rcases holds.put key value with ⟨cache', nodes', displaced, result, holds', reference⟩
      exact ⟨cache', nodes', .value displaced, by simp [LruCache.step, result],
        holds'.imp_right fun sweeps => .inl ⟨trivial, sweeps⟩, by simp [Reference.step, reference]⟩
  | get key =>
      rcases holds.get key with ⟨cache', nodes', found, result, holds', reference⟩
      exact ⟨cache', nodes', .value found, by simp [LruCache.step, result],
        holds'.imp_right fun sweeps => .inl ⟨trivial, sweeps⟩, by simp [Reference.step, reference]⟩
  | getMut key update =>
      rcases holds.getMut key update with ⟨cache', nodes', found, result, holds', reference⟩
      exact ⟨cache', nodes', .value found, by simp [LruCache.step, result],
        holds'.imp_right fun sweeps => .inl ⟨trivial, sweeps⟩, by simp [Reference.step, reference]⟩
  | peek key =>
      exact ⟨cache, nodes, _, by simp [LruCache.step, holds.peek],
        ⟨holds, .inl ⟨trivial, .refl cache⟩⟩, rfl⟩
  | contains key =>
      exact ⟨cache, nodes, _, by simp [LruCache.step, holds.contains],
        ⟨holds, .inl ⟨trivial, .refl cache⟩⟩, rfl⟩
  | pop key =>
      rcases holds.pop key with ⟨cache', nodes', result, ⟨holds', left⟩, reference⟩
      refine ⟨cache', nodes', .value ((nodes.map Node.entry).lookup key), ?_, ⟨holds', ?_⟩, ?_⟩
      · simp [LruCache.step, result]
      · rcases left with ⟨absent, rfl⟩ | ⟨idx, member, located, content⟩
        · exact .inl ⟨absent, .refl _⟩
        · refine .inr ⟨?_, idx, member, key, content⟩
          rw [LruOp.Misses, located]
          exact Option.some_ne_none idx
      · simp [Reference.step, reference]
  | popLru =>
      rcases holds.popLru with ⟨cache', nodes', result, holds', reference⟩
      refine ⟨cache', nodes', .entry (nodes.map Node.entry).getLast?, ?_,
        holds'.imp_right fun sweeps => .inl ⟨trivial, sweeps⟩, ?_⟩
      · simp [LruCache.step, result]
      · simp only [Reference.step, reference]
  | clear =>
      refine ⟨cache.clear, [], .unit, rfl, ⟨holds.clear, .inl ⟨trivial, ?_⟩⟩, rfl⟩
      exact ⟨fun idx member => absurd member List.not_mem_nil, fun _ => rfl⟩
  | iter =>
      exact ⟨cache, nodes, _, by simp [LruCache.step, holds.iter],
        ⟨holds, .inl ⟨trivial, .refl cache⟩⟩, rfl⟩
  | len =>
      refine ⟨cache, nodes, _, rfl, ⟨holds, .inl ⟨trivial, .refl cache⟩⟩, ?_⟩
      simp [Reference.step, holds.counted]

theorem runOps (holds : cache.Represents capacity nodes) (ops : List (LruOp κ υ)) :
    ∃ cache' nodes', cache.runOps ops =
        some (cache', (Reference.runOps capacity (nodes.map Node.entry) ops).2) ∧
      cache'.Represents capacity nodes' ∧
      (Reference.runOps capacity (nodes.map Node.entry) ops).1 = nodes'.map Node.entry := by
  induction ops generalizing cache nodes with
  | nil => exact ⟨cache, nodes, rfl, holds, rfl⟩
  | cons op ops ih =>
      rcases holds.step op with ⟨middle, nodes', reply, stepped, ⟨holds', _⟩, reference⟩
      rcases ih holds' with ⟨final, nodes'', ran, holds'', rest⟩
      refine ⟨final, nodes'', ?_, holds'', ?_⟩
      · simp [LruCache.runOps, Reference.runOps, stepped, reference, ran]
      · simpa [Reference.runOps, reference] using rest

end Represents

/-- The next slot. -/
def next (cache : LruCache κ υ) (idx : Nat) : Option Nat :=
  cache.slots[idx]?.bind Slot.next

/-- The previous slot. -/
def prev (cache : LruCache κ υ) (idx : Nat) : Option Nat :=
  cache.slots[idx]?.bind Slot.prev

/-- The arena, the map and the counter of the cache fit together; `order` lists
the slots in use. -/
structure Consistent (cache : LruCache κ υ) (order : List Nat) : Prop where
  /-- Following `next` from the head walks along the order. -/
  first : cache.head = order.head?
  following : ∀ i idx, order[i]? = some idx → cache.next idx = order[i + 1]?
  last : cache.tail = order.getLast?
  once : order.Nodup
  visited : ∀ idx, idx ∈ order ↔ ∃ key, cache.map.lookup key = some idx
  inverse : ∀ idx other, idx ∈ order ∧ cache.next idx = some other ↔
    other ∈ order ∧ cache.prev other = some idx
  counted : cache.len = order.length
  sized : cache.map.size = order.length
  bounded : cache.len ≤ cache.capacity

omit [DecidableEq κ] in
theorem bind_next (cache : LruCache κ υ) (idx : Nat) :
    (cache.link idx).bind Link.next = cache.next idx := by
  unfold LruCache.link LruCache.next
  rw [Option.bind_map]
  rfl

omit [DecidableEq κ] in
theorem bind_prev (cache : LruCache κ υ) (idx : Nat) :
    (cache.link idx).bind Link.prev = cache.prev idx := by
  unfold LruCache.link LruCache.prev
  rw [Option.bind_map]
  rfl

theorem Represents.consistent (holds : cache.Represents capacity nodes) :
    cache.Consistent (nodes.map Node.idx) where
  first := holds.ordered.head
  following i idx here := by
    rw [← bind_next]
    exact holds.ordered.threads.next_getElem here
  last := holds.ordered.tail
  once := holds.ordered.threads.distinct
  visited idx := by
    simp only [List.mem_map, holds.mapped]
    constructor
    · rintro ⟨node, member, idx_eq⟩
      exact ⟨node.key, node, member, rfl, idx_eq⟩
    · rintro ⟨key, node, member, _, idx_eq⟩
      exact ⟨node, member, idx_eq⟩
  inverse idx other := by
    rw [← bind_next, ← bind_prev]
    exact holds.ordered.threads.next_iff_prev
  counted := by rw [holds.counted, List.length_map]
  sized := by rw [holds.sized, List.length_map]
  bounded := by
    rw [holds.counted, holds.limited]
    exact holds.bounded

/-- Every sequence of calls on a new cache runs through, returns what the
reference list returns and leaves the entries of the reference list, with the
arena consistent. -/
theorem refines_reference (capacity : Nat) (positive : 0 < capacity) (ops : List (LruOp κ υ)) :
    ∃ cache order, (LruCache.new capacity positive).runOps ops =
        some (cache, (Reference.runOps capacity [] ops).2) ∧
      cache.iter = some (Reference.runOps capacity [] ops).1 ∧
      cache.len = (Reference.runOps capacity [] ops).1.length ∧
      cache.capacity = capacity ∧ cache.Consistent order := by
  rcases (Represents.new capacity positive).runOps ops with ⟨cache, nodes, ran, holds, entries⟩
  rw [List.map_nil] at ran entries
  refine ⟨cache, nodes.map Node.idx, ran, ?_, ?_, holds.limited, holds.consistent⟩
  · rw [entries]
    exact holds.iter
  · rw [entries, List.length_map]
    exact holds.counted

/-- Three insertions overflow a cache of two; the entry that was read survives. -/
theorem refines_reference_two :
    ∃ cache order, (LruCache.new 2 (by decide)).runOps
        [LruOp.put 1 10, .put 2 20, .get 1, .put 3 30, .pop 2, .popLru] =
        some (cache, [LruReply.value none, .value none, .value (some 10), .value (some 20),
          .value none, .entry (some (1, 10))]) ∧
      cache.iter = some [(3, 30)] ∧ cache.len = 1 ∧ cache.capacity = 2 ∧
      cache.Consistent order :=
  refines_reference 2 (by decide)
    [LruOp.put 1 10, .put 2 20, .get 1, .put 3 30, .pop 2, .popLru]

/-- What is documented of the free slots: they own neither a key nor a value, none is
free twice, and the slots of the arena are the free ones and those of the map. -/
structure FreeOwnsNothing (cache : LruCache κ υ) : Prop where
  empty : ∀ idx ∈ cache.free, cache.content idx = some (none, none)
  distinct : cache.free.Nodup
  inside : ∀ idx, idx < cache.slots.length ↔
    idx ∈ cache.free ∨ ∃ key, cache.map.lookup key = some idx
  apart : ∀ idx ∈ cache.free, ∀ key, cache.map.lookup key ≠ some idx

/-- The cache behind a call, which always succeeds. -/
def advance (cache : LruCache κ υ) (op : LruOp κ υ) : LruCache κ υ :=
  ((cache.step op).map Prod.fst).getD cache

/-- A cache that fits together, with every slot free or counted and nothing in the free
ones. -/
def Swept (cache : LruCache κ υ) : Prop :=
  (∃ nodes, cache.Represents cache.capacity nodes) ∧ cache.Balanced ∧
    ∀ idx ∈ cache.free, cache.content idx = some (none, none)

theorem Represents.covers (holds : cache.Represents capacity nodes) (balanced : cache.Balanced)
    {idx : Nat} (inside : idx < cache.slots.length) :
    idx ∈ cache.free ∨ idx ∈ nodes.map Node.idx := by
  have distinct : (cache.free ++ nodes.map Node.idx).Nodup := by
    refine List.Nodup.append holds.freeDistinct holds.ordered.threads.distinct ?_
    exact fun other free used => (holds.freeInside other free).2 used
  have within : cache.free ++ nodes.map Node.idx ⊆ List.range cache.slots.length := by
    intro other member
    rw [List.mem_range]
    rcases List.mem_append.mp member with free | used
    · exact (holds.freeInside other free).1
    · exact holds.ordered.lt_length used
  have all : (cache.free ++ nodes.map Node.idx).length = (List.range cache.slots.length).length := by
    rw [List.length_append, List.length_map, List.length_range, balanced, holds.counted]
  have perm := (distinct.subperm within).perm_of_length_le (Nat.le_of_eq all.symm)
  exact List.mem_append.mp (perm.mem_iff.mpr (List.mem_range.mpr inside))

theorem Swept.freeOwnsNothing (swept : cache.Swept) : cache.FreeOwnsNothing := by
  rcases swept with ⟨⟨nodes, holds⟩, balanced, empty⟩
  have mapped : ∀ idx, idx ∈ nodes.map Node.idx ↔ ∃ key, cache.map.lookup key = some idx :=
    holds.consistent.visited
  refine ⟨empty, holds.freeDistinct, fun idx => ⟨fun inside => ?_, ?_⟩, ?_⟩
  · exact (holds.covers balanced inside).imp_right (mapped idx).mp
  · rintro (free | used)
    · exact (holds.freeInside idx free).1
    · exact holds.ordered.lt_length ((mapped idx).mpr used)
  · intro idx free key located
    exact (holds.freeInside idx free).2 ((mapped idx).mpr ⟨key, located⟩)

/-- A call on a cache that is swept leaves it so unless it removes an entry by its key;
then a free slot owns a key. -/
theorem Swept.advance (swept : cache.Swept) (op : LruOp κ υ) :
    (op.Misses cache ∧ (cache.advance op).Swept) ∨
      (¬op.Misses cache ∧ ¬(cache.advance op).FreeOwnsNothing) := by
  rcases swept with ⟨⟨nodes, holds⟩, balanced, empty⟩
  rcases holds.step op with ⟨cache', nodes', reply, stepped, ⟨holds', left⟩, _⟩
  have advance_eq : cache.advance op = cache' := by
    rw [LruCache.advance, stepped]
    rfl
  rw [advance_eq]
  rcases left with ⟨misses, sweeps⟩ | ⟨hits, idx, member, key, content⟩
  · refine .inl ⟨misses, ⟨nodes', holds'.limited ▸ holds'⟩, sweeps.balanced balanced, ?_⟩
    intro idx member
    rcases sweeps.emptied idx member with ⟨before, same⟩ | emptied
    · exact same.trans (empty idx before)
    · exact emptied
  · refine .inr ⟨hits, fun free => ?_⟩
    have none := (free.empty idx member).symm.trans content
    cases none

/-- Along a sequence of calls on a new cache, the free slots own nothing exactly when no
call removes an entry by its key. -/
theorem freeOwnsNothing_always_iff (capacity : Nat) (positive : 0 < capacity)
    (ops : List (LruOp κ υ)) :
    RunAlways advance FreeOwnsNothing (LruCache.new capacity positive) ops ↔
      RunMeets advance (fun cache op => op.Misses cache) (LruCache.new capacity positive) ops := by
  have started : (LruCache.new capacity positive : LruCache κ υ).Swept :=
    ⟨⟨[], Represents.new capacity positive⟩, rfl, fun idx member => absurd member List.not_mem_nil⟩
  refine runAlways_iff_runMeets Swept (fun _ swept => swept.freeOwnsNothing) ?_ ?_ started
  · intro cache op swept
    rcases swept.advance op with ⟨misses, swept'⟩ | ⟨hits, left⟩
    · exact iff_of_true swept'.freeOwnsNothing misses
    · exact iff_of_false left hits
  · intro cache op swept misses
    exact (swept.advance op).elim And.right fun hit => absurd misses hit.1

/-- Entries that are evicted or removed from the end leave nothing. -/
theorem freeOwnsNothing_evicted :
    RunAlways advance FreeOwnsNothing (LruCache.new 1 (by decide))
      [LruOp.put 1 10, .put 2 20, .pop 1, .popLru] :=
  (freeOwnsNothing_always_iff 1 (by decide) _).mpr (by decide)

/-- An entry that is removed by its key leaves the key in its slot. -/
theorem freeOwnsNothing_popped :
    ¬RunAlways advance FreeOwnsNothing (LruCache.new 2 (by decide)) [LruOp.put 1 10, .pop 1] := by
  rintro ⟨_, _, popped⟩
  have kept : ((((LruCache.new 2 (by decide) : LruCache Nat Nat).advance (.put 1 10)).advance
      (.pop 1)).content 0) = some (some 1, none) := by decide
  have empty := popped.empty 0 (by decide)
  rw [kept] at empty
  cases empty

end LruCache

end Corduit.Common.Lru
