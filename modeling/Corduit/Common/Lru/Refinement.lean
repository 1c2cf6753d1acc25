import Corduit.Common.Lru.Core

/-!
# The cache as a list in recency order

`Reference` is what the cache is for: an association list kept in recency
order, most recent first, whose last element is dropped when it overflows.
`Represents` relates a cache to the nodes of its recency list; every operation
of the cache succeeds, keeps the relation and answers as the reference does.

Recency moves permute the nodes, so everything the relation says about sets of
nodes survives them by `Represents.of_perm`.  Removals share one lemma about
what a removal leaves.
-/

namespace Corduit.Common.Lru

open Collection

universe u

variable {κ υ : Type u} [DecidableEq κ]

namespace Reference

/-- The list without the entry of a key. -/
def without (entries : List (κ × υ)) (key : κ) : List (κ × υ) :=
  entries.eraseP fun entry => entry.1 = key

/-- A hit moves to the front. -/
def get (entries : List (κ × υ)) (key : κ) : List (κ × υ) × Option υ :=
  match entries.lookup key with
  | none => (entries, none)
  | some value => ((key, value) :: without entries key, some value)

/-- `get`, with a change of the value. -/
def getMut (entries : List (κ × υ)) (key : κ) (update : υ → υ) : List (κ × υ) × Option υ :=
  match entries.lookup key with
  | none => (entries, none)
  | some value => ((key, update value) :: without entries key, some value)

/-- Insert in front; the last one makes room. -/
def put (capacity : Nat) (entries : List (κ × υ)) (key : κ) (value : υ) :
    List (κ × υ) × Option υ :=
  match entries.lookup key with
  | some old => ((key, value) :: without entries key, some old)
  | none =>
      if entries.length = capacity then
        ((key, value) :: entries.dropLast, entries.getLast?.map Prod.snd)
      else
        ((key, value) :: entries, none)

/-- One call and its answer. -/
def step (capacity : Nat) (entries : List (κ × υ)) :
    LruOp κ υ → List (κ × υ) × LruReply κ υ
  | .put key value =>
      let (entries, displaced) := put capacity entries key value
      (entries, .value displaced)
  | .get key =>
      let (entries, found) := get entries key
      (entries, .value found)
  | .getMut key update =>
      let (entries, found) := getMut entries key update
      (entries, .value found)
  | .peek key => (entries, .value (entries.lookup key))
  | .contains key => (entries, .flag (entries.lookup key).isSome)
  | .pop key => (without entries key, .value (entries.lookup key))
  | .popLru => (entries.dropLast, .entry entries.getLast?)
  | .clear => ([], .unit)
  | .iter => (entries, .entries entries)
  | .len => (entries, .count entries.length)

/-- The calls in order, with their answers. -/
def runOps (capacity : Nat) (entries : List (κ × υ)) :
    List (LruOp κ υ) → List (κ × υ) × List (LruReply κ υ)
  | [] => (entries, [])
  | op :: ops =>
      let (entries, reply) := step capacity entries op
      let (entries, replies) := runOps capacity entries ops
      (entries, reply :: replies)

variable {before after : List (κ × υ)} {key : κ} {value : υ}
  (first : ∀ entry ∈ before, entry.1 ≠ key)

include first

theorem lookup_append :
    (before ++ (key, value) :: after).lookup key = some value := by
  induction before with
  | nil => simp
  | cons entry before ih =>
      have different : (key == entry.1) = false := by
        simpa using (first entry List.mem_cons_self).symm
      rw [List.cons_append, List.lookup_cons, different]
      exact ih fun other member => first other (List.mem_cons_of_mem entry member)

theorem without_append :
    without (before ++ (key, value) :: after) key = before ++ after := by
  unfold without
  rw [List.eraseP_append_right _ (by simpa using first)]
  simp

end Reference

/-- An entry and the slot it lives in. -/
structure Node (κ υ : Type u) where
  idx : Nat
  key : κ
  value : υ

/-- The entry of a node. -/
def Node.entry (node : Node κ υ) : κ × υ :=
  (node.key, node.value)

namespace LruCache

variable {cache cache' : LruCache κ υ} {nodes nodes' before after : List (Node κ υ)}
  {node : Node κ υ} {key : κ} {value : υ} {idx capacity : Nat}

/-- The cache holds exactly these nodes, in this order, and no more than its
capacity. -/
structure Represents (cache : LruCache κ υ) (capacity : Nat) (nodes : List (Node κ υ)) :
    Prop where
  ordered : cache.Ordered (nodes.map Node.idx)
  stored : ∀ node ∈ nodes, cache.content node.idx = some (some node.key, some node.value)
  mapped : ∀ key idx, cache.map.lookup key = some idx ↔
    ∃ node ∈ nodes, node.key = key ∧ node.idx = idx
  sized : cache.map.size = nodes.length
  counted : cache.len = nodes.length
  limited : cache.capacity = capacity
  bounded : nodes.length ≤ capacity
  freeInside : ∀ idx ∈ cache.free, idx < cache.slots.length ∧ idx ∉ nodes.map Node.idx
  freeDistinct : cache.free.Nodup

namespace Represents

theorem new (capacity : Nat) (positive : 0 < capacity) :
    Represents (LruCache.new capacity positive : LruCache κ υ) capacity [] where
  ordered := ⟨Threads.nil, rfl, rfl⟩
  stored node member := by simp at member
  mapped key idx := by simp [LruCache.new]
  sized := rfl
  counted := rfl
  limited := rfl
  bounded := Nat.zero_le _
  freeInside idx member := by simp [LruCache.new] at member
  freeDistinct := List.nodup_nil

section

variable (holds : cache.Represents capacity nodes) {first second : Node κ υ}
  (firstMem : first ∈ nodes) (secondMem : second ∈ nodes)

include holds firstMem secondMem

theorem eq_of_idx (same : first.idx = second.idx) :
    first = second :=
  List.inj_on_of_nodup_map holds.ordered.threads.distinct firstMem secondMem same

theorem eq_of_key (same : first.key = second.key) :
    first = second := by
  have firstAt := (holds.mapped first.key first.idx).mpr ⟨first, firstMem, rfl, rfl⟩
  have secondAt := (holds.mapped first.key second.idx).mpr ⟨second, secondMem, same.symm, rfl⟩
  exact holds.eq_of_idx firstMem secondMem (Option.some.inj (firstAt.symm.trans secondAt))

end

theorem other_keys (holds : cache.Represents capacity (before ++ node :: after)) :
    ∀ other ∈ before ++ after, other.key ≠ node.key := by
  intro other member same
  have inAll : other ∈ before ++ node :: after := by
    rcases List.mem_append.mp member with inBefore | inAfter
    · simp [inBefore]
    · simp [inAfter]
  obtain rfl := holds.eq_of_key inAll (by simp) same
  have distinct := holds.ordered.threads.distinct
  rw [List.map_append, List.map_cons] at distinct
  have parts := List.nodup_append.mp distinct
  rcases List.mem_append.mp member with inBefore | inAfter
  · exact parts.2.2 _ (List.mem_map_of_mem inBefore) _ List.mem_cons_self rfl
  · exact (List.nodup_cons.mp parts.2.1).1 (List.mem_map_of_mem inAfter)

theorem split (holds : cache.Represents capacity nodes) (located : cache.map.lookup key = some idx) :
    ∃ before node after, nodes = before ++ node :: after ∧ node.key = key ∧ node.idx = idx := by
  rcases (holds.mapped key idx).mp located with ⟨node, member, key_eq, idx_eq⟩
  rcases List.append_of_mem member with ⟨before, after, rfl⟩
  exact ⟨before, node, after, rfl, key_eq, idx_eq⟩

theorem lookup_eq_none (holds : cache.Represents capacity nodes) (absent : cache.map.lookup key = none) :
    (nodes.map Node.entry).lookup key = none := by
  rw [List.lookup_eq_none_iff]
  intro entry member
  rcases List.mem_map.mp member with ⟨node, nodeMem, rfl⟩
  simp only [Node.entry, bne_iff_ne, ne_eq]
  rintro rfl
  have located := (holds.mapped node.key node.idx).mpr ⟨node, nodeMem, rfl, rfl⟩
  rw [absent] at located
  cases located

section

variable (holds : cache.Represents capacity (before ++ node :: after))

include holds

theorem lookup_node :
    ((before ++ node :: after).map Node.entry).lookup node.key = some node.value := by
  rw [List.map_append, List.map_cons]
  apply Reference.lookup_append
  intro entry member
  rcases List.mem_map.mp member with ⟨other, otherMem, rfl⟩
  exact holds.other_keys other (by simp [otherMem])

theorem without_node :
    Reference.without ((before ++ node :: after).map Node.entry) node.key =
      (before ++ after).map Node.entry := by
  rw [List.map_append, List.map_cons, List.map_append]
  apply Reference.without_append
  intro entry member
  rcases List.mem_map.mp member with ⟨other, otherMem, rfl⟩
  exact holds.other_keys other (by simp [otherMem])

theorem ordered_split :
    cache.Ordered (before.map Node.idx ++ node.idx :: after.map Node.idx) := by
  simpa using holds.ordered

end

theorem slot (holds : cache.Represents capacity nodes) (member : node ∈ nodes) :
    ∃ slot, cache.slots[node.idx]? = some slot ∧ slot.key = some node.key ∧
      slot.value = some node.value := by
  rcases Option.map_eq_some_iff.mp (holds.stored node member) with ⟨slot, located, content⟩
  exact ⟨slot, located, congrArg Prod.fst content, congrArg Prod.snd content⟩

theorem of_perm (holds : cache.Represents capacity nodes) (perm : nodes'.Perm nodes)
    (ordered : cache'.Ordered (nodes'.map Node.idx)) (same : SameButLinks cache cache') :
    cache'.Represents capacity nodes' where
  ordered := ordered
  stored node member := by
    rw [same.content]
    exact holds.stored node (perm.mem_iff.mp member)
  mapped key idx := by
    simp only [same.map, holds.mapped, perm.mem_iff]
  sized := by rw [same.map, holds.sized, perm.length_eq]
  counted := by rw [same.len, holds.counted, perm.length_eq]
  limited := same.capacity.trans holds.limited
  bounded := by
    rw [perm.length_eq]
    exact holds.bounded
  freeInside idx member := by
    rw [same.free] at member
    rw [same.size, (perm.map Node.idx).mem_iff]
    exact holds.freeInside idx member
  freeDistinct := by
    rw [same.free]
    exact holds.freeDistinct

section

variable (holds : cache.Represents capacity (before ++ node :: after))

include holds

theorem moveToFront :
    ∃ cache', cache.moveToFront node.idx = some cache' ∧
      cache'.Represents capacity (node :: (before ++ after)) ∧ cache.Sweeps cache' := by
  rcases holds.ordered_split.moveToFront with ⟨cache', moved, ordered, same⟩
  exact ⟨cache', moved, holds.of_perm List.perm_middle.symm (by simpa using ordered) same,
    same.sweeps⟩

theorem setValue {update : Option υ → Option υ} (updated : update (some node.value) = some value) :
    ∃ cache', (cache.modifySlot node.idx fun slot => { slot with value := update slot.value }) =
        some cache' ∧ cache'.Represents capacity (before ++ { node with value := value } :: after) ∧
      cache.Sweeps cache' := by
  have inside := holds.ordered.lt_length (List.mem_map_of_mem (by simp : node ∈ _))
  rcases holds.slot (by simp : node ∈ _) with ⟨slot, located, key_eq, value_eq⟩
  obtain ⟨cache', result, ordered, books, others, changed⟩ := holds.ordered.modifySlot inside
    (fun slot => { slot with value := update slot.value }) fun _ => rfl
  have sameIdx : (before ++ { node with value := value } :: after).map Node.idx =
      (before ++ node :: after).map Node.idx := by simp
  refine ⟨cache', result,
    ⟨?_, ?_, ?_, ?_, ?_, books.capacity.trans holds.limited, ?_, ?_, ?_⟩, ?_⟩
  · rwa [sameIdx]
  · intro other member
    by_cases here : other.idx = node.idx
    · have distinct := ordered.threads.distinct
      rw [← sameIdx] at distinct
      obtain rfl : other = { node with value := value } :=
        List.inj_on_of_nodup_map distinct member (by simp) here
      simp [LruCache.content, changed, located, Slot.content, key_eq, value_eq, updated]
    · have old : other ∈ before ++ node :: after := by
        rcases List.mem_append.mp member with inBefore | inRest
        · simp [inBefore]
        · rcases List.mem_cons.mp inRest with rfl | inAfter
          · exact absurd rfl here
          · simp [inAfter]
      rw [others other.idx here]
      exact holds.stored other old
  · intro key idx
    rw [books.map, holds.mapped]
    simp [or_and_right, exists_or]
  · simpa [books.map] using holds.sized
  · simpa [books.len] using holds.counted
  · simpa using holds.bounded
  · intro idx member
    rw [books.free] at member
    rw [books.size, sameIdx]
    exact holds.freeInside idx member
  · rw [books.free]
    exact holds.freeDistinct
  · refine Sweeps.of_same books fun idx member => others idx ?_
    rintro rfl
    exact (holds.freeInside node.idx member).2 (List.mem_map_of_mem (by simp))

/-- What a removal leaves, whatever it did to the slot of the removed node. -/
theorem removed (ordered : cache'.Ordered (before.map Node.idx ++ after.map Node.idx))
    (recycled : Recycled cache cache' node.idx) :
    Represents { cache' with map := cache'.map.erase node.key } capacity (before ++ after) := by
  have located := (holds.mapped node.key node.idx).mpr ⟨node, by simp, rfl, rfl⟩
  have elsewhere : ∀ other ∈ before ++ after, other.idx ≠ node.idx := by
    intro other member same
    rcases List.mem_append.mp member with inBefore | inAfter
    · exact holds.ordered_split.threads.not_mem_before (same ▸ List.mem_map_of_mem inBefore)
    · exact holds.ordered_split.threads.not_mem_after (same ▸ List.mem_map_of_mem inAfter)
  have kept : ∀ other, other ∈ before ++ after ↔
      other ∈ before ++ node :: after ∧ other.key ≠ node.key := by
    intro other
    constructor
    · intro member
      refine ⟨?_, holds.other_keys other member⟩
      rcases List.mem_append.mp member with inBefore | inAfter
      · simp [inBefore]
      · simp [inAfter]
    · rintro ⟨member, different⟩
      rcases List.mem_append.mp member with inBefore | inRest
      · simp [inBefore]
      · rcases List.mem_cons.mp inRest with rfl | inAfter
        · exact absurd rfl different
        · simp [inAfter]
  have spelled : (before ++ after).map Node.idx = before.map Node.idx ++ after.map Node.idx :=
    List.map_append
  refine ⟨⟨?_, ?_, ?_⟩, ?_, ?_, ?_, ?_, recycled.capacity.trans holds.limited, ?_, ?_, ?_⟩
  · rw [spelled]
    exact ordered.threads
  · rw [spelled]
    exact ordered.head
  · rw [spelled]
    exact ordered.tail
  · intro other member
    apply (recycled.content other.idx (elsewhere other member)).trans
    exact holds.stored other ((kept other).mp member).1
  · intro key idx
    dsimp only
    rw [recycled.map]
    by_cases same : key = node.key
    · subst same
      simp only [AList.lookup_erase, reduceCtorEq, false_iff]
      rintro ⟨other, member, key_eq, _⟩
      exact holds.other_keys other member key_eq
    · rw [AList.lookup_erase_ne same, holds.mapped]
      constructor
      · rintro ⟨other, member, rfl, idx_eq⟩
        exact ⟨other, (kept other).mpr ⟨member, same⟩, rfl, idx_eq⟩
      · rintro ⟨other, member, key_eq, idx_eq⟩
        exact ⟨other, ((kept other).mp member).1, key_eq, idx_eq⟩
  · have sized := holds.sized
    have erased := Table.size_erase_of_present located
    dsimp only
    rw [recycled.map]
    simp only [List.length_append, List.length_cons] at sized ⊢
    omega
  · have counted := holds.counted
    have less := recycled.len
    simp only [List.length_append, List.length_cons] at counted ⊢
    omega
  · have bounded := holds.bounded
    simp only [List.length_append, List.length_cons] at bounded ⊢
    omega
  · intro idx member
    dsimp only at member ⊢
    rw [recycled.free] at member
    rw [recycled.size]
    rcases List.mem_cons.mp member with rfl | old
    · refine ⟨holds.ordered.lt_length (List.mem_map_of_mem (by simp : node ∈ _)), ?_⟩
      intro inside
      rcases List.mem_map.mp inside with ⟨other, otherMem, idx_eq⟩
      exact elsewhere other otherMem idx_eq
    · rcases holds.freeInside idx old with ⟨inside, unused⟩
      refine ⟨inside, fun member => unused ?_⟩
      rcases List.mem_map.mp member with ⟨other, otherMem, rfl⟩
      exact List.mem_map_of_mem ((kept other).mp otherMem).1
  · dsimp only
    rw [recycled.free]
    refine List.nodup_cons.mpr ⟨fun old => ?_, holds.freeDistinct⟩
    exact (holds.freeInside node.idx old).2 (List.mem_map_of_mem (by simp))

end

section

variable (holds : cache.Represents capacity nodes) (key : κ)

include holds

theorem get :
    ∃ cache' nodes' found, cache.get key = some (cache', found) ∧
      (cache'.Represents capacity nodes' ∧ cache.Sweeps cache') ∧
      Reference.get (nodes.map Node.entry) key = (nodes'.map Node.entry, found) := by
  unfold LruCache.get Reference.get
  cases located : cache.map.lookup key with
  | none =>
      rw [holds.lookup_eq_none located]
      exact ⟨cache, nodes, none, rfl, ⟨holds, .refl cache⟩, rfl⟩
  | some idx =>
      rcases holds.split located with ⟨before, node, after, rfl, rfl, rfl⟩
      rcases holds.moveToFront with ⟨cache', moved, holds', sweeps⟩
      rcases holds'.slot (List.mem_cons_self) with ⟨slot, slot_eq, _, value_eq⟩
      refine ⟨cache', node :: (before ++ after), some node.value, ?_, ⟨holds', sweeps⟩, ?_⟩
      · simp [moved, slot_eq, value_eq]
      · rw [holds.lookup_node, holds.without_node]
        rfl

theorem getMut (update : υ → υ) :
    ∃ cache' nodes' found, cache.getMut key update = some (cache', found) ∧
      (cache'.Represents capacity nodes' ∧ cache.Sweeps cache') ∧
      Reference.getMut (nodes.map Node.entry) key update = (nodes'.map Node.entry, found) := by
  unfold LruCache.getMut Reference.getMut
  cases located : cache.map.lookup key with
  | none =>
      rw [holds.lookup_eq_none located]
      exact ⟨cache, nodes, none, rfl, ⟨holds, .refl cache⟩, rfl⟩
  | some idx =>
      rcases holds.split located with ⟨before, node, after, rfl, rfl, rfl⟩
      rcases holds.moveToFront with ⟨middle, moved, holds', sweeps⟩
      rcases holds'.slot (List.mem_cons_self) with ⟨slot, slot_eq, _, value_eq⟩
      have first : middle.Represents capacity ([] ++ node :: (before ++ after)) := holds'
      obtain ⟨final, assigned, holds'', sweeps'⟩ :=
        first.setValue (rfl : (some node.value).map update = some _)
      refine ⟨final, _, some node.value, ?_, ⟨holds'', sweeps.trans sweeps'⟩, ?_⟩
      · simp [moved, slot_eq, value_eq, assigned]
      · rw [holds.lookup_node, holds.without_node]
        rfl

theorem peek :
    cache.peek key = some ((nodes.map Node.entry).lookup key) := by
  unfold LruCache.peek
  cases located : cache.map.lookup key with
  | none => rw [holds.lookup_eq_none located]
  | some idx =>
      rcases holds.split located with ⟨before, node, after, rfl, rfl, rfl⟩
      rcases holds.slot (by simp : node ∈ _) with ⟨slot, slot_eq, _, value_eq⟩
      rw [holds.lookup_node]
      simp [slot_eq, value_eq]

theorem contains :
    cache.contains key = ((nodes.map Node.entry).lookup key).isSome := by
  unfold LruCache.contains
  cases located : cache.map.lookup key with
  | none =>
      rw [holds.lookup_eq_none located]
      rfl
  | some idx =>
      rcases holds.split located with ⟨before, node, after, rfl, rfl, rfl⟩
      rw [holds.lookup_node]
      rfl

end

section

variable (holds : cache.Represents capacity nodes)

include holds

theorem len_ne_zero (member : node ∈ nodes) : cache.len ≠ 0 := by
  rw [holds.counted]
  exact Nat.ne_of_gt (List.length_pos_of_mem member)

theorem pop (key : κ) :
    ∃ cache' nodes', cache.pop key = some (cache', (nodes.map Node.entry).lookup key) ∧
      (cache'.Represents capacity nodes' ∧ (cache.map.lookup key = none ∧ cache' = cache ∨
        ∃ idx ∈ cache'.free, cache.map.lookup key = some idx ∧
          cache'.content idx = some (some key, none))) ∧
      Reference.without (nodes.map Node.entry) key = nodes'.map Node.entry := by
  unfold LruCache.pop
  cases located : cache.map.lookup key with
  | none =>
      have absent := holds.lookup_eq_none located
      refine ⟨cache, nodes, by rw [absent], ⟨holds, .inl ⟨rfl, rfl⟩⟩, ?_⟩
      apply List.eraseP_of_forall_not
      intro entry member same
      have different := List.lookup_eq_none_iff.mp absent entry member
      simp_all
  | some idx =>
      rcases holds.split located with ⟨before, node, after, rfl, rfl, rfl⟩
      have member : node ∈ before ++ node :: after := by simp
      rcases holds.slot member with ⟨slot, slot_eq, key_eq, value_eq⟩
      obtain ⟨emptied, taken, ordered, books, others, changed⟩ := holds.ordered.modifySlot
        (holds.ordered.lt_length (List.mem_map_of_mem member))
        (fun slot => { slot with value := none }) fun _ => rfl
      obtain ⟨final, removed, ordered', recycled, content⟩ :=
        Ordered.removeAt (by simpa using ordered : emptied.Ordered
          (before.map Node.idx ++ node.idx :: after.map Node.idx))
          (by rw [books.len]; exact holds.len_ne_zero member)
      have left : final.content node.idx = some (some node.key, none) := by
        rw [content, LruCache.content, changed, slot_eq]
        simp [Slot.content, key_eq]
      refine ⟨{ final with map := final.map.erase node.key }, before ++ after, ?_,
        ⟨holds.removed ordered' (recycled.of_same books others),
          .inr ⟨node.idx, ?_, rfl, left⟩⟩, holds.without_node⟩
      · rw [holds.lookup_node]
        simp [slot_eq, value_eq, taken, removed]
      · dsimp only
        rw [recycled.free]
        exact List.mem_cons_self

theorem tail_cases :
    (cache.tail = none ∧ nodes = []) ∨
      ∃ before node, nodes = before ++ [node] ∧ cache.tail = some node.idx := by
  have tail := holds.ordered.tail
  rcases List.eq_nil_or_concat nodes with rfl | ⟨before, node, rfl⟩
  · exact Or.inl ⟨tail, rfl⟩
  · exact Or.inr ⟨before, node, List.concat_eq_append, by simpa using tail⟩

theorem popLru :
    ∃ cache' nodes', cache.popLru = some (cache', (nodes.map Node.entry).getLast?) ∧
      (cache'.Represents capacity nodes' ∧ cache.Sweeps cache') ∧
      (nodes.map Node.entry).dropLast = nodes'.map Node.entry := by
  unfold LruCache.popLru
  rcases holds.tail_cases with ⟨empty, rfl⟩ | ⟨before, node, rfl, last⟩
  · rw [empty]
    exact ⟨cache, [], rfl, ⟨holds, .refl cache⟩, rfl⟩
  · have member : node ∈ before ++ [node] := by simp
    rcases holds.slot member with ⟨slot, slot_eq, key_eq, value_eq⟩
    obtain ⟨emptied, taken, ordered, books, others, changed⟩ := holds.ordered.modifySlot
      (holds.ordered.lt_length (List.mem_map_of_mem member))
      (fun slot => { slot with key := none, value := none }) fun _ => rfl
    obtain ⟨final, removed, ordered', recycled, content⟩ :=
      Ordered.removeAt (by simpa using ordered : emptied.Ordered
        (before.map Node.idx ++ node.idx :: ([] : List (Node κ υ)).map Node.idx))
        (by rw [books.len]; exact holds.len_ne_zero member)
    have recycled := recycled.of_same books others
    have left : final.content node.idx = some (none, none) := by
      rw [content, LruCache.content, changed, slot_eq]
      rfl
    refine ⟨{ final with map := final.map.erase node.key }, before ++ [], ?_,
      ⟨holds.removed ordered' recycled, recycled.sweeps left _⟩, by simp⟩
    simp [last, slot_eq, key_eq, value_eq, taken, removed, Node.entry]

theorem evictLru :
    ∃ cache' nodes', cache.evictLru = some (cache', (nodes.map Node.entry).getLast?) ∧
      (cache'.Represents capacity nodes' ∧ cache.Sweeps cache') ∧
      (nodes.map Node.entry).dropLast = nodes'.map Node.entry ∧
      ∀ key, cache.map.lookup key = none → cache'.map.lookup key = none := by
  unfold LruCache.evictLru
  rcases holds.tail_cases with ⟨empty, rfl⟩ | ⟨before, node, rfl, last⟩
  · rw [empty]
    exact ⟨cache, [], rfl, ⟨holds, .refl cache⟩, rfl, fun _ => id⟩
  · have member : node ∈ before ++ [node] := by simp
    rcases holds.slot member with ⟨slot, slot_eq, key_eq, value_eq⟩
    rcases holds.ordered_split.unlink with ⟨apart, unlinked, ordered, same⟩
    have inside : node.idx < apart.slots.length := by
      rw [same.size]
      exact holds.ordered.lt_length (List.mem_map_of_mem member)
    have kept := (same.content node.idx).trans (holds.stored node member)
    rcases Option.map_eq_some_iff.mp kept with ⟨slot', slot_eq', content⟩
    obtain ⟨key_eq', value_eq'⟩ : slot'.key = some node.key ∧ slot'.value = some node.value :=
      ⟨congrArg Prod.fst content, congrArg Prod.snd content⟩
    obtain ⟨emptied, taken, ordered', books, others, changed⟩ := ordered.modifySlot inside
      (fun slot => { slot with key := none, value := none }) fun _ => rfl
    obtain ⟨final, freed, ordered'', recycled, left⟩ := ordered'.recycle
      (by rw [books.len, same.len]; exact holds.len_ne_zero member) node.idx
    have recycled := (recycled.of_same books others).of_same same.toSameBooks
      fun other _ => same.content other
    have left : final.content node.idx = some (none, none) := by
      rw [left, LruCache.content, changed, slot_eq']
      rfl
    refine ⟨{ final with map := final.map.erase node.key }, before ++ [], ?_,
      ⟨holds.removed ordered'' recycled, recycled.sweeps left _⟩, by simp, ?_⟩
    · simp [last, unlinked, slot_eq', key_eq', value_eq', taken, freed, Node.entry]
    · intro key absent
      have different : key ≠ node.key := by
        rintro rfl
        have located := (holds.mapped node.key node.idx).mpr ⟨node, member, rfl, rfl⟩
        rw [absent] at located
        cases located
      dsimp only
      rw [AList.lookup_erase_ne different, recycled.map, absent]

end

theorem allocSlot (holds : cache.Represents capacity nodes) :
    cache.allocSlot.2.Represents capacity nodes ∧
      cache.allocSlot.1 < cache.allocSlot.2.slots.length ∧
      cache.allocSlot.1 ∉ nodes.map Node.idx ∧ cache.allocSlot.1 ∉ cache.allocSlot.2.free ∧
      cache.allocSlot.2.map = cache.map ∧
      (∀ idx ∈ cache.allocSlot.2.free, idx ∈ cache.free ∧
        cache.allocSlot.2.content idx = cache.content idx) ∧
      cache.allocSlot.2.slots.length + cache.free.length =
        cache.slots.length + cache.allocSlot.2.free.length + 1 := by
  unfold LruCache.allocSlot
  cases stack : cache.free with
  | cons idx rest =>
      rcases holds.freeInside idx (by simp [stack]) with ⟨inside, unused⟩
      have distinct := holds.freeDistinct
      rw [stack, List.nodup_cons] at distinct
      refine ⟨⟨⟨holds.ordered.threads, holds.ordered.head, holds.ordered.tail⟩, holds.stored,
        holds.mapped, holds.sized, holds.counted, holds.limited, holds.bounded, ?_, distinct.2⟩,
        inside, unused, distinct.1, rfl, fun _ member => ⟨List.mem_cons_of_mem idx member, rfl⟩, ?_⟩
      · intro other member
        exact holds.freeInside other (by simp [stack, member])
      · rw [List.length_cons, Nat.add_assoc]
  | nil =>
      have old : ∀ idx < cache.slots.length,
          (cache.slots ++ [({} : Slot κ υ)])[idx]? = cache.slots[idx]? :=
        fun idx inside => List.getElem?_append_left inside
      have below : ∀ idx ∈ nodes.map Node.idx, idx < cache.slots.length :=
        fun idx member => holds.ordered.lt_length member
      refine ⟨⟨⟨?_, holds.ordered.head, holds.ordered.tail⟩, ?_, holds.mapped, holds.sized,
        holds.counted, holds.limited, holds.bounded, by simp, by simp⟩, by simp, ?_,
        by simp, rfl, by simp, by simp⟩
      · apply holds.ordered.threads.congr
        intro idx member
        simp only [link, old idx (below idx member)]
      · intro node member
        have same := old node.idx (below node.idx (List.mem_map_of_mem member))
        simp only [content, same]
        exact holds.stored node member
      · exact fun member => Nat.lt_irrefl _ (below _ member)

theorem insertNew (holds : cache.Represents capacity nodes) (absent : cache.map.lookup key = none)
    (room : nodes.length < capacity) (value : υ) :
    ∃ cache' idx, cache.insertNew key value = some cache' ∧
      cache'.Represents capacity (⟨idx, key, value⟩ :: nodes) ∧ cache.Sweeps cache' := by
  rcases holds.allocSlot with ⟨holds', inside, unused, notFree, map_eq, kept, balanced⟩
  unfold LruCache.insertNew
  generalize cache.allocSlot = allocated at *
  rcases allocated with ⟨idx, fresh⟩
  dsimp only at *
  obtain ⟨filled, written, ordered, books, others, changed⟩ := holds'.ordered.modifySlot inside
    (fun slot => { slot with key := some key, value := some value }) fun _ => rfl
  obtain ⟨final, linked, ordered', same⟩ := Ordered.linkFront
    (⟨ordered.threads, ordered.head, ordered.tail⟩ :
      Ordered { filled with map := filled.map.insert key idx } _)
    (by simpa [books.size] using inside) unused
  have content_new : final.content idx = some (some key, some value) := by
    rw [same.content]
    simp [content, changed, List.getElem?_eq_getElem inside, Slot.content]
  have map_final : final.map = cache.map.insert key idx := by
    rw [same.map, books.map, map_eq]
  have elsewhere : ∀ node ∈ nodes, node.idx ≠ idx := by
    rintro node member rfl
    exact unused (List.mem_map_of_mem member)
  refine ⟨{ final with len := final.len + 1 }, idx, by simp [written, linked],
    ⟨⟨ordered'.threads, ordered'.head, ordered'.tail⟩, ?_, ?_, ?_, ?_,
      (same.capacity.trans books.capacity).trans holds'.limited, room, ?_, ?_⟩, ?_, ?_⟩
  · intro node member
    rcases List.mem_cons.mp member with rfl | old
    · exact content_new
    · apply (same.content node.idx).trans
      apply (others node.idx (elsewhere node old)).trans
      exact holds'.stored node old
  · intro other slot
    dsimp only
    rw [map_final]
    by_cases here : other = key
    · subst here
      rw [AList.lookup_insert, Option.some.injEq]
      constructor
      · rintro rfl
        exact ⟨_, List.mem_cons_self, rfl, rfl⟩
      · rintro ⟨node, member, key_eq, idx_eq⟩
        rcases List.mem_cons.mp member with rfl | old
        · exact idx_eq
        · have located := (holds.mapped other node.idx).mpr ⟨node, old, key_eq, rfl⟩
          rw [absent] at located
          cases located
    · rw [AList.lookup_insert_ne here, holds.mapped]
      simp [Ne.symm here]
  · dsimp only
    rw [map_final, Table.size_insert_of_absent absent, holds.sized, List.length_cons]
  · dsimp only
    rw [same.len, List.length_cons, ← holds'.counted]
    exact congrArg (· + 1) books.len
  · intro other member
    dsimp only at member ⊢
    rw [same.free] at member
    have member : other ∈ fresh.free := books.free ▸ member
    rcases holds'.freeInside other member with ⟨otherInside, otherUnused⟩
    refine ⟨by rw [same.size]; exact books.size ▸ otherInside, ?_⟩
    simp only [List.map_cons, List.mem_cons, not_or]
    exact ⟨fun here => notFree (here ▸ member), otherUnused⟩
  · dsimp only
    rw [same.free]
    exact books.free ▸ holds'.freeDistinct
  · intro other member
    dsimp only at member
    rw [same.free] at member
    have member : other ∈ fresh.free := books.free ▸ member
    have different : other ≠ idx := fun here => notFree (here ▸ member)
    refine .inl ⟨(kept other member).1, (same.content other).trans ?_⟩
    exact (others other different).trans (kept other member).2
  · have len_eq : filled.len = cache.len := by
      rw [books.len, holds'.counted, holds.counted]
    have free_eq : filled.free = fresh.free := books.free
    intro before
    rw [Balanced] at before ⊢
    dsimp only
    rw [same.size, same.free, same.len]
    dsimp only
    rw [books.size, free_eq, len_eq]
    omega

end Represents

end LruCache

end Corduit.Common.Lru
