import Corduit.Collection.Table
import Corduit.Collection.Threaded

/-!
# The LRU cache

A capacity-bounded cache whose entries live in an arena of slots.  The recency
order is a doubly linked list of slot indices, from the most to the least
recently used entry, and a hash map leads from a key to its slot.  Slots that
were given up are recycled through a stack.

An index outside the arena and a failed `expect` stop the program: operations
that index the arena return `none` then.  The copies of a key that the program
makes are equal to it.  Walking the recency list is bounded by the size of the
arena; a longer walk would never end, and is `none` as well.
-/

namespace Corduit.Common.Lru

open Collection

universe u

/-- One arena slot. -/
structure Slot (κ υ : Type u) where
  key : Option κ := none
  value : Option υ := none
  prev : Option Nat := none
  next : Option Nat := none
  deriving DecidableEq, Repr

/-- The last element of `free` that was pushed is its head. -/
structure LruCache (κ υ : Type u) where
  map : Table κ Nat
  slots : List (Slot κ υ)
  free : List Nat
  head : Option Nat
  tail : Option Nat
  capacity : Nat
  len : Nat
  /-- The capacity is a `NonZeroUsize`. -/
  positive : 0 < capacity

variable {κ υ : Type u} [DecidableEq κ]

namespace LruCache

/-- An empty cache. -/
def new (capacity : Nat) (positive : 0 < capacity) : LruCache κ υ where
  map := ∅
  slots := []
  free := []
  head := none
  tail := none
  capacity := capacity
  len := 0
  positive := positive

/-- Whether a key has an entry. -/
def contains (cache : LruCache κ υ) (key : κ) : Bool :=
  (cache.map.lookup key).isSome

/-- Assign to fields of `slots[idx]`. -/
def modifySlot (cache : LruCache κ υ) (idx : Nat) (update : Slot κ υ → Slot κ υ) :
    Option (LruCache κ υ) :=
  if idx < cache.slots.length then
    some { cache with slots := cache.slots.modify idx update }
  else
    none

/-- Assign to a field of the neighbour, or to an end of the list when there is
no neighbour on that side. -/
def modifyNeighbour (cache : LruCache κ υ) (neighbour : Option Nat)
    (update : Slot κ υ → Slot κ υ) (atEnd : LruCache κ υ → LruCache κ υ) :
    Option (LruCache κ υ) :=
  match neighbour with
  | some idx => cache.modifySlot idx update
  | none => some (atEnd cache)

/-- Grab a slot, reusing a recycled one if available. -/
def allocSlot (cache : LruCache κ υ) : Nat × LruCache κ υ :=
  match cache.free with
  | idx :: rest => (idx, { cache with free := rest })
  | [] => (cache.slots.length, { cache with slots := cache.slots ++ [{}] })

/-- Link `idx` at the head of the recency list. -/
def linkFront (cache : LruCache κ υ) (idx : Nat) : Option (LruCache κ υ) := do
  let head := cache.head
  let cache ← cache.modifySlot idx fun slot => { slot with prev := none, next := head }
  let cache ← cache.modifyNeighbour head (fun slot => { slot with prev := some idx })
    fun cache => { cache with tail := some idx }
  return { cache with head := some idx }

/-- Unlink `idx` from the recency list. -/
def unlink (cache : LruCache κ υ) (idx : Nat) : Option (LruCache κ υ) := do
  let slot ← cache.slots[idx]?
  let cache ← cache.modifyNeighbour slot.prev (fun other => { other with next := slot.next })
    fun cache => { cache with head := slot.next }
  let cache ← cache.modifyNeighbour slot.next (fun other => { other with prev := slot.prev })
    fun cache => { cache with tail := slot.prev }
  cache.modifySlot idx fun slot => { slot with prev := none, next := none }

/-- Move `idx` to the head of the recency list. -/
def moveToFront (cache : LruCache κ υ) (idx : Nat) : Option (LruCache κ υ) := do
  if cache.head = some idx then
    return cache
  let cache ← cache.unlink idx
  cache.linkFront idx

/-- Count one entry less and recycle its slot. -/
def recycle (cache : LruCache κ υ) (idx : Nat) : Option (LruCache κ υ) :=
  match cache.len with
  | 0 => none
  | len + 1 => some { cache with len := len, free := idx :: cache.free }

/-- Unlink `idx` and recycle its slot. -/
def removeAt (cache : LruCache κ υ) (idx : Nat) : Option (LruCache κ υ) := do
  let cache ← cache.unlink idx
  cache.recycle idx

/-- Remove the least-recently-used entry and recycle its slot. -/
def evictLru (cache : LruCache κ υ) : Option (LruCache κ υ × Option (κ × υ)) :=
  match cache.tail with
  | none => some (cache, none)
  | some idx => do
      let cache ← cache.unlink idx
      let slot ← cache.slots[idx]?
      let key ← slot.key
      let value ← slot.value
      let cache ← cache.modifySlot idx fun slot => { slot with key := none, value := none }
      let cache ← cache.recycle idx
      return ({ cache with map := cache.map.erase key }, some (key, value))

/-- Look up a key, promoting it to most-recently-used. -/
def get (cache : LruCache κ υ) (key : κ) : Option (LruCache κ υ × Option υ) :=
  match cache.map.lookup key with
  | none => some (cache, none)
  | some idx => do
      let cache ← cache.moveToFront idx
      let slot ← cache.slots[idx]?
      return (cache, slot.value)

/-- Look up a key without changing the recency order. -/
def peek (cache : LruCache κ υ) (key : κ) : Option (Option υ) :=
  match cache.map.lookup key with
  | none => some none
  | some idx => do
      let slot ← cache.slots[idx]?
      return slot.value

/-- Look up a key mutably, promoting it; the caller assigns through the
reference what `update` makes of the value it finds. -/
def getMut (cache : LruCache κ υ) (key : κ) (update : υ → υ) :
    Option (LruCache κ υ × Option υ) :=
  match cache.map.lookup key with
  | none => some (cache, none)
  | some idx => do
      let cache ← cache.moveToFront idx
      let slot ← cache.slots[idx]?
      let cache ← cache.modifySlot idx fun slot => { slot with value := slot.value.map update }
      return (cache, slot.value)

/-- Remove a key.  Its slot keeps the copy of the key. -/
def pop (cache : LruCache κ υ) (key : κ) : Option (LruCache κ υ × Option υ) :=
  match cache.map.lookup key with
  | none => some (cache, none)
  | some idx => do
      let slot ← cache.slots[idx]?
      let value ← slot.value
      let cache ← cache.modifySlot idx fun slot => { slot with value := none }
      let cache ← cache.removeAt idx
      return ({ cache with map := cache.map.erase key }, some value)

/-- Remove and return the least-recently-used entry. -/
def popLru (cache : LruCache κ υ) : Option (LruCache κ υ × Option (κ × υ)) :=
  match cache.tail with
  | none => some (cache, none)
  | some idx => do
      let slot ← cache.slots[idx]?
      let key ← slot.key
      let value ← slot.value
      let cache ← cache.modifySlot idx fun slot => { slot with key := none, value := none }
      let cache ← cache.removeAt idx
      return ({ cache with map := cache.map.erase key }, some (key, value))

/-- Drop every entry. -/
def clear (cache : LruCache κ υ) : LruCache κ υ :=
  { cache with
    map := ∅
    slots := []
    free := []
    head := none
    tail := none
    len := 0 }

/-- A full cache gives up its last entry before a new one comes in. -/
def makeRoom (cache : LruCache κ υ) : Option (LruCache κ υ × Option (κ × υ)) :=
  if cache.len = cache.capacity then cache.evictLru else some (cache, none)

/-- Fill a slot that is not linked and link it in front. -/
def insertNew (cache : LruCache κ υ) (key : κ) (value : υ) : Option (LruCache κ υ) := do
  let (idx, cache) := cache.allocSlot
  let cache ← cache.modifySlot idx fun slot => { slot with key := some key, value := some value }
  let cache := { cache with map := cache.map.insert key idx }
  let cache ← cache.linkFront idx
  return { cache with len := cache.len + 1 }

/-- Insert an entry, promoting it to most-recently-used.  Returns the displaced
value: the old one of the key, or the evicted one. -/
def put (cache : LruCache κ υ) (key : κ) (value : υ) : Option (LruCache κ υ × Option υ) :=
  match cache.map.lookup key with
  | some idx => do
      let slot ← cache.slots[idx]?
      let cache ← cache.modifySlot idx fun slot => { slot with value := some value }
      let cache ← cache.moveToFront idx
      return (cache, slot.value)
  | none => do
      let (cache, evicted) ← cache.makeRoom
      let cache ← cache.insertNew key value
      return (cache, evicted.map Prod.snd)

/-- `Iter::next` until it returns `None`, from the slot `cur` on. -/
def iterFrom (slots : List (Slot κ υ)) : Nat → Option Nat → Option (List (κ × υ))
  | _, none => some []
  | 0, some _ => none
  | bound + 1, some idx => do
      let slot ← slots[idx]?
      match slot.key, slot.value with
      | some key, some value => return (key, value) :: (← iterFrom slots bound slot.next)
      | _, _ => return []

/-- The entries from the most to the least recently used. -/
def iter (cache : LruCache κ υ) : Option (List (κ × υ)) :=
  iterFrom cache.slots cache.slots.length cache.head

end LruCache

/-- One call on the cache. -/
inductive LruOp (κ υ : Type u) where
  | put (key : κ) (value : υ)
  | get (key : κ)
  | getMut (key : κ) (update : υ → υ)
  | peek (key : κ)
  | contains (key : κ)
  | pop (key : κ)
  | popLru
  | clear
  | iter
  | len

/-- What a call returns. -/
inductive LruReply (κ υ : Type u) where
  | value (value : Option υ)
  | entry (entry : Option (κ × υ))
  | entries (entries : List (κ × υ))
  | flag (flag : Bool)
  | count (count : Nat)
  | unit
  deriving DecidableEq, Repr

/-- The call does not remove an entry by its key. -/
def LruOp.Misses (op : LruOp κ υ) (cache : LruCache κ υ) : Prop :=
  match op with
  | .pop key => cache.map.lookup key = none
  | _ => True

instance (op : LruOp κ υ) (cache : LruCache κ υ) : Decidable (op.Misses cache) := by
  cases op <;> unfold LruOp.Misses <;> infer_instance

/-- One call and its answer. -/
def LruCache.step (cache : LruCache κ υ) : LruOp κ υ → Option (LruCache κ υ × LruReply κ υ)
  | .put key value => (cache.put key value).map fun result => (result.1, .value result.2)
  | .get key => (cache.get key).map fun result => (result.1, .value result.2)
  | .getMut key update =>
      (cache.getMut key update).map fun result => (result.1, .value result.2)
  | .peek key => (cache.peek key).map fun value => (cache, .value value)
  | .contains key => some (cache, .flag (cache.contains key))
  | .pop key => (cache.pop key).map fun result => (result.1, .value result.2)
  | .popLru => cache.popLru.map fun result => (result.1, .entry result.2)
  | .clear => some (cache.clear, .unit)
  | .iter => cache.iter.map fun entries => (cache, .entries entries)
  | .len => some (cache, .count cache.len)

/-- Perform calls in order and collect what they return. -/
def LruCache.runOps (cache : LruCache κ υ) :
    List (LruOp κ υ) → Option (LruCache κ υ × List (LruReply κ υ))
  | [] => some (cache, [])
  | op :: ops => do
      let (cache, reply) ← cache.step op
      let (cache, replies) ← cache.runOps ops
      return (cache, reply :: replies)

end Corduit.Common.Lru

/-!
# The recency list of the cache

What linking and unlinking do to the arena, stated once for the whole slot
table: they change links only, and they spell out the recency order with a
slot taken out or put in front.  Everything else about the cache is framed.
-/

namespace Corduit.Common.Lru

open Collection

universe u

variable {κ υ : Type u}

/-- The links of a slot. -/
def Slot.link (slot : Slot κ υ) : Link :=
  ⟨slot.prev, slot.next⟩

/-- What a slot owns. -/
def Slot.content (slot : Slot κ υ) : Option κ × Option υ :=
  (slot.key, slot.value)

namespace LruCache

variable {cache cache' : LruCache κ υ} {before after order : List Nat} {idx : Nat}

/-- The links at an index. -/
def link (cache : LruCache κ υ) (idx : Nat) : Option Link :=
  cache.slots[idx]?.map Slot.link

/-- The key and the value at an index. -/
def content (cache : LruCache κ υ) (idx : Nat) : Option (Option κ × Option υ) :=
  cache.slots[idx]?.map Slot.content

/-- The links spell out the order, between its first and its last slot. -/
structure Ordered (cache : LruCache κ υ) (order : List Nat) : Prop where
  threads : Threads cache.link order
  head : cache.head = order.head?
  tail : cache.tail = order.getLast?

/-- Only slots and the ends of the recency list differ. -/
structure SameBooks (cache cache' : LruCache κ υ) : Prop where
  map : cache'.map = cache.map
  free : cache'.free = cache.free
  capacity : cache'.capacity = cache.capacity
  len : cache'.len = cache.len
  size : cache'.slots.length = cache.slots.length

/-- Only links differ. -/
structure SameButLinks (cache cache' : LruCache κ υ) : Prop extends SameBooks cache cache' where
  content : ∀ idx, cache'.content idx = cache.content idx

variable {cache'' : LruCache κ υ}

theorem SameBooks.trans (first : SameBooks cache cache') (second : SameBooks cache' cache'') :
    SameBooks cache cache'' where
  map := second.map.trans first.map
  free := second.free.trans first.free
  capacity := second.capacity.trans first.capacity
  len := second.len.trans first.len
  size := second.size.trans first.size

theorem SameButLinks.trans (first : SameButLinks cache cache')
    (second : SameButLinks cache' cache'') : SameButLinks cache cache'' where
  toSameBooks := first.toSameBooks.trans second.toSameBooks
  content idx := (second.content idx).trans (first.content idx)

theorem SameButLinks.refl (cache : LruCache κ υ) : SameButLinks cache cache where
  map := rfl
  free := rfl
  capacity := rfl
  len := rfl
  size := rfl
  content _ := rfl

theorem link_isSome : (cache.link idx).isSome = true ↔ idx < cache.slots.length := by
  simp [link]

theorem Ordered.lt_length (ordered : cache.Ordered order) (member : idx ∈ order) :
    idx < cache.slots.length :=
  link_isSome.mp (ordered.threads.isSome member)

theorem Ordered.slot (ordered : cache.Ordered (before ++ idx :: after)) :
    ∃ slot, cache.slots[idx]? = some slot ∧ slot.prev = before.getLast? ∧
      slot.next = after.head? := by
  have linked := ordered.threads.link
  rcases Option.map_eq_some_iff.mp linked with ⟨slot, located, link_eq⟩
  exact ⟨slot, located, congrArg Link.prev link_eq, congrArg Link.next link_eq⟩

/-- Update the slot of an index that may be missing. -/
def modifyAt (slots : List (Slot κ υ)) (target : Option Nat) (update : Slot κ υ → Slot κ υ) :
    List (Slot κ υ) :=
  match target with
  | some idx => slots.modify idx update
  | none => slots

section

variable (slots : List (Slot κ υ)) (target : Option Nat) (update : Slot κ υ → Slot κ υ)

theorem getElem?_modifyAt (idx : Nat) :
    (modifyAt slots target update)[idx]? =
      slots[idx]?.map fun slot => if target = some idx then update slot else slot := by
  cases target with
  | none => simp [modifyAt]
  | some target => simp [modifyAt, List.getElem?_modify]

@[simp]
theorem length_modifyAt : (modifyAt slots target update).length = slots.length := by
  cases target <;> simp [modifyAt]

end

theorem modifySlot_eq (inside : idx < cache.slots.length) (update : Slot κ υ → Slot κ υ) :
    cache.modifySlot idx update =
      some { cache with slots := modifyAt cache.slots (some idx) update } :=
  if_pos inside

section

variable {neighbour : Option Nat} (inside : ∀ idx, neighbour = some idx → idx < cache.slots.length)
  (update : Slot κ υ → Slot κ υ)

include inside

theorem modifyNeighbour_head (head : Option Nat) :
    (cache.modifyNeighbour neighbour update fun cache => { cache with head := head }) =
      some { cache with
        slots := modifyAt cache.slots neighbour update
        head := if neighbour = none then head else cache.head } := by
  cases neighbour with
  | none => rfl
  | some idx => exact modifySlot_eq (inside idx rfl) update

theorem modifyNeighbour_tail (tail : Option Nat) :
    (cache.modifyNeighbour neighbour update fun cache => { cache with tail := tail }) =
      some { cache with
        slots := modifyAt cache.slots neighbour update
        tail := if neighbour = none then tail else cache.tail } := by
  cases neighbour with
  | none => rfl
  | some idx => exact modifySlot_eq (inside idx rfl) update

end

theorem Ordered.modifySlot (ordered : cache.Ordered order) (inside : idx < cache.slots.length)
    (update : Slot κ υ → Slot κ υ) (keeps : ∀ slot, (update slot).link = slot.link) :
    ∃ cache', cache.modifySlot idx update = some cache' ∧ cache'.Ordered order ∧
      SameBooks cache cache' ∧
      (∀ other ≠ idx, cache'.content other = cache.content other) ∧
      cache'.slots[idx]? = cache.slots[idx]?.map update := by
  refine ⟨_, modifySlot_eq inside update, ⟨?_, ordered.head, ordered.tail⟩,
    ⟨rfl, rfl, rfl, rfl, by simp⟩, ?_, ?_⟩
  · apply ordered.threads.congr
    intro other _
    simp only [link, getElem?_modifyAt, Option.map_map]
    congr 1
    funext slot
    simp only [Function.comp_apply]
    split
    · exact keeps slot
    · rfl
  · intro other different
    have elsewhere : some idx ≠ some other := fun same => different (Option.some.inj same).symm
    simp [LruCache.content, getElem?_modifyAt, elsewhere]
  · simp [getElem?_modifyAt]

theorem Ordered.unlink (ordered : cache.Ordered (before ++ idx :: after)) :
    ∃ cache', cache.unlink idx = some cache' ∧ cache'.Ordered (before ++ after) ∧
      SameButLinks cache cache' := by
  rcases ordered.slot with ⟨slot, located, prev_eq, next_eq⟩
  have inside : idx < cache.slots.length := ordered.lt_length (by simp)
  have prevInside : ∀ prev, before.getLast? = some prev → prev < cache.slots.length :=
    fun prev last => ordered.lt_length (by simp [List.mem_of_getLast? last])
  have nextInside : ∀ next, after.head? = some next → next < cache.slots.length :=
    fun next first => ordered.lt_length (by simp [List.mem_of_head? first])
  have result := calc cache.unlink idx
      _ = some { cache with
            slots := modifyAt (modifyAt (modifyAt cache.slots before.getLast?
              fun other => { other with next := after.head? }) after.head?
              fun other => { other with prev := before.getLast? }) (some idx)
              fun slot => { slot with prev := none, next := none }
            head := if before.getLast? = none then after.head? else cache.head
            tail := if after.head? = none then before.getLast? else cache.tail } := by
        simp only [LruCache.unlink, located, Option.bind_eq_bind, Option.bind_some, prev_eq, next_eq]
        rw [modifyNeighbour_head prevInside, Option.bind_some,
          modifyNeighbour_tail (by simpa using nextInside), Option.bind_some,
          modifySlot_eq (by simpa using inside)]
  refine ⟨_, result, ⟨?_, ?_, ?_⟩, ⟨⟨rfl, rfl, rfl, rfl, by simp⟩, ?_⟩⟩
  · apply ordered.threads.unlink
    intro other different
    simp only [link, getElem?_modifyAt, Option.map_map]
    congr 1
    funext slot
    have elsewhere : some idx ≠ some other := fun same => different (Option.some.inj same).symm
    simp only [Function.comp_apply, if_neg elsewhere, Slot.link]
    split <;> split <;> simp_all
  · cases before with
    | nil => simp
    | cons first before => simpa using ordered.head
  · rcases List.eq_nil_or_concat after with rfl | ⟨back, last, rfl⟩
    · simp
    · have notEmpty : (back ++ [last]).head? ≠ none := by simp
      rw [List.concat_eq_append] at ordered ⊢
      simp only [notEmpty, if_false, ordered.tail]
      rw [List.append_cons, ← List.append_assoc, ← List.append_assoc, List.getLast?_concat,
        List.getLast?_concat]
  · intro other
    simp only [LruCache.content, getElem?_modifyAt, Option.map_map]
    congr 1
    funext slot
    simp only [Function.comp_apply]
    split <;> split <;> split <;> rfl

theorem Ordered.linkFront (ordered : cache.Ordered order) (inside : idx < cache.slots.length)
    (fresh : idx ∉ order) :
    ∃ cache', cache.linkFront idx = some cache' ∧ cache'.Ordered (idx :: order) ∧
      SameButLinks cache cache' := by
  have headInside : ∀ first, order.head? = some first → first < cache.slots.length :=
    fun first head => ordered.lt_length (List.mem_of_head? head)
  have result := calc cache.linkFront idx
      _ = some { cache with
            slots := modifyAt (modifyAt cache.slots (some idx)
              fun slot => { slot with prev := none, next := order.head? }) order.head?
              fun slot => { slot with prev := some idx }
            head := some idx
            tail := if order.head? = none then some idx else cache.tail } := by
        simp only [LruCache.linkFront, ordered.head, Option.bind_eq_bind]
        rw [modifySlot_eq inside, Option.bind_some,
          modifyNeighbour_tail (by simpa using headInside), Option.bind_some]
        rfl
  refine ⟨_, result, ⟨?_, rfl, ?_⟩, ⟨⟨rfl, rfl, rfl, rfl, by simp⟩, ?_⟩⟩
  · have notFirst : order.head? ≠ some idx := fun head => fresh (List.mem_of_head? head)
    apply ordered.threads.pushFront fresh
    · simp [link, getElem?_modifyAt, List.getElem?_eq_getElem inside, notFirst, Slot.link]
    · intro other different
      simp only [link, getElem?_modifyAt, Option.map_map]
      congr 1
      funext slot
      have elsewhere : some idx ≠ some other := fun same => different (Option.some.inj same).symm
      simp only [Function.comp_apply, if_neg elsewhere, Slot.link]
      split <;> rfl
  · cases order with
    | nil => simp
    | cons first order => simpa using ordered.tail
  · intro other
    simp only [LruCache.content, getElem?_modifyAt, Option.map_map]
    congr 1
    funext slot
    simp only [Function.comp_apply]
    split <;> split <;> rfl

theorem Ordered.moveToFront (ordered : cache.Ordered (before ++ idx :: after)) :
    ∃ cache', cache.moveToFront idx = some cache' ∧ cache'.Ordered (idx :: (before ++ after)) ∧
      SameButLinks cache cache' := by
  unfold LruCache.moveToFront
  by_cases first : cache.head = some idx
  · rw [if_pos first]
    rw [ordered.head, ordered.threads.head?_eq_iff] at first
    subst first
    exact ⟨cache, rfl, ordered, SameButLinks.refl cache⟩
  · rw [if_neg first]
    rcases ordered.unlink with ⟨middle, unlinked, middleOrdered, middleSame⟩
    have inside : idx < middle.slots.length := by
      rw [middleSame.size]
      exact ordered.lt_length (by simp)
    have fresh : idx ∉ before ++ after := by
      simpa using ⟨ordered.threads.not_mem_before, ordered.threads.not_mem_after⟩
    rcases middleOrdered.linkFront inside fresh with ⟨final, linked, finalOrdered, finalSame⟩
    refine ⟨final, ?_, finalOrdered, middleSame.trans finalSame⟩
    simp [unlinked, linked]

/-- The slot was put on the stack of free ones; it may own something else. -/
structure Recycled (cache cache' : LruCache κ υ) (idx : Nat) : Prop where
  map : cache'.map = cache.map
  free : cache'.free = idx :: cache.free
  capacity : cache'.capacity = cache.capacity
  len : cache'.len + 1 = cache.len
  size : cache'.slots.length = cache.slots.length
  content : ∀ other ≠ idx, cache'.content other = cache.content other

theorem Ordered.recycle (ordered : cache.Ordered order) (counted : cache.len ≠ 0) (idx : Nat) :
    ∃ cache', cache.recycle idx = some cache' ∧ cache'.Ordered order ∧
      Recycled cache cache' idx ∧ cache'.content idx = cache.content idx := by
  rcases Nat.exists_eq_succ_of_ne_zero counted with ⟨len, len_eq⟩
  refine ⟨{ cache with len := len, free := idx :: cache.free }, ?_,
    ⟨ordered.threads, ordered.head, ordered.tail⟩, ⟨rfl, rfl, rfl, len_eq.symm, rfl, fun _ _ => rfl⟩, rfl⟩
  simp [LruCache.recycle, len_eq]

theorem Recycled.of_same {middle : LruCache κ υ} (same : SameBooks cache middle)
    (content : ∀ other ≠ idx, middle.content other = cache.content other)
    (recycled : Recycled middle cache' idx) : Recycled cache cache' idx where
  map := recycled.map.trans same.map
  free := by rw [recycled.free, same.free]
  capacity := recycled.capacity.trans same.capacity
  len := recycled.len.trans same.len
  size := recycled.size.trans same.size
  content other elsewhere := (recycled.content other elsewhere).trans (content other elsewhere)

/-- Every slot is free or counted. -/
def Balanced (cache : LruCache κ υ) : Prop :=
  cache.slots.length = cache.free.length + cache.len

/-- A slot that is free now was free before, or owns nothing. -/
structure Sweeps (cache cache' : LruCache κ υ) : Prop where
  emptied : ∀ idx ∈ cache'.free, (idx ∈ cache.free ∧ cache'.content idx = cache.content idx) ∨
    cache'.content idx = some (none, none)
  balanced : cache.Balanced → cache'.Balanced

theorem Sweeps.trans (first : cache.Sweeps cache') (second : cache'.Sweeps cache'') :
    cache.Sweeps cache'' where
  emptied idx member := by
    rcases second.emptied idx member with ⟨member', same⟩ | empty
    · rw [same]
      exact first.emptied idx member'
    · exact .inr empty
  balanced := second.balanced ∘ first.balanced

theorem Sweeps.of_same (same : SameBooks cache cache')
    (content : ∀ idx ∈ cache.free, cache'.content idx = cache.content idx) :
    cache.Sweeps cache' where
  emptied idx member := .inl ⟨same.free ▸ member, content idx (same.free ▸ member)⟩
  balanced balanced := by rwa [Balanced, same.size, same.free, same.len]

theorem SameButLinks.sweeps (same : SameButLinks cache cache') : cache.Sweeps cache' :=
  .of_same same.toSameBooks fun idx _ => same.content idx

theorem Sweeps.refl (cache : LruCache κ υ) : cache.Sweeps cache :=
  (SameButLinks.refl cache).sweeps

theorem Recycled.sweeps (recycled : Recycled cache cache' idx)
    (empty : cache'.content idx = some (none, none)) (map : Table κ Nat) :
    cache.Sweeps { cache' with map := map } where
  emptied other member := by
    by_cases here : other = idx
    · exact .inr (here ▸ empty)
    · dsimp only at member
      rw [recycled.free] at member
      exact .inl ⟨(List.mem_cons.mp member).resolve_left here, recycled.content other here⟩
  balanced balanced := by
    have less := recycled.len
    rw [Balanced] at balanced ⊢
    dsimp only
    rw [recycled.size, recycled.free, List.length_cons]
    omega

theorem Ordered.removeAt (ordered : cache.Ordered (before ++ idx :: after))
    (counted : cache.len ≠ 0) :
    ∃ cache', cache.removeAt idx = some cache' ∧ cache'.Ordered (before ++ after) ∧
      Recycled cache cache' idx ∧ cache'.content idx = cache.content idx := by
  rcases ordered.unlink with ⟨middle, unlinked, middleOrdered, same⟩
  obtain ⟨final, recycled, finalOrdered, books, content⟩ :=
    middleOrdered.recycle (by rwa [same.len]) idx
  refine ⟨final, ?_, finalOrdered, books.of_same same.toSameBooks fun other _ => same.content other,
    content.trans (same.content idx)⟩
  simp [LruCache.removeAt, unlinked, recycled]

end LruCache

end Corduit.Common.Lru
