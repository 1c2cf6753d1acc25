import Mathlib.Algebra.GroupWithZero.Nat
import Mathlib.Data.List.Pairwise
import Mathlib.Data.List.Perm.Basic
import Mathlib.Order.Defs.Unbundled

/-!
# Ordered finite maps

A map with ordered iteration is the list of its entries by increasing key.
The order is part of the value: programs that stop at the first matching entry
observe it.  Arguments about contents are insensitive to it, so lookup,
insertion and removal are described up to permutation.
-/

namespace Corduit.Collection

universe u v

/-- A finite map whose entries are listed by strictly increasing key. -/
structure OrderedMap (κ : Type u) (υ : Type v) [LT κ] where
  entries : List (κ × υ)
  sorted : entries.Pairwise fun first second => first.1 < second.1

namespace OrderedMap

variable {κ : Type u} {υ : Type v} [LT κ]

/-- The map with no entries. -/
def empty : OrderedMap κ υ :=
  ⟨[], List.Pairwise.nil⟩

instance [DecidableEq κ] [DecidableEq υ] : DecidableEq (OrderedMap κ υ) :=
  fun first second => decidable_of_iff (first.entries = second.entries) (by
    cases first
    cases second
    simp)

@[simp]
theorem entries_empty : (empty : OrderedMap κ υ).entries = [] :=
  rfl

/-- The value stored under a key. -/
def get? [DecidableEq κ] (map : OrderedMap κ υ) (key : κ) : Option υ :=
  map.entries.lookup key

/-- Drop the entry of a key, if there is one. -/
def erase [DecidableEq κ] (map : OrderedMap κ υ) (key : κ) : OrderedMap κ υ :=
  ⟨map.entries.filter fun entry => entry.1 ≠ key, map.sorted.filter _⟩

/-- Put an entry in front of the first larger key, replacing an equal one. -/
def insertEntry [DecidableEq κ] [DecidableLT κ] (key : κ) (value : υ) :
    List (κ × υ) → List (κ × υ)
  | [] => [(key, value)]
  | entry :: rest =>
      if key < entry.1 then
        (key, value) :: entry :: rest
      else if key = entry.1 then
        (key, value) :: rest
      else
        entry :: insertEntry key value rest

variable {key : κ} {value : υ} {entry : κ × υ} {map : OrderedMap κ υ}

theorem mem_insertEntry [DecidableEq κ] [DecidableLT κ] {entries : List (κ × υ)}
    (member : entry ∈ insertEntry key value entries) :
    entry = (key, value) ∨ entry ∈ entries := by
  induction entries with
  | nil => simpa [insertEntry] using member
  | cons head rest ih =>
      simp only [insertEntry] at member
      split at member
      · simpa using member
      · split at member
        · rcases List.mem_cons.mp member with equal | member
          · exact Or.inl equal
          · exact Or.inr (List.mem_cons_of_mem head member)
        · rcases List.mem_cons.mp member with equal | member
          · exact Or.inr (List.mem_cons.mpr (Or.inl equal))
          · rcases ih member with equal | member
            · exact Or.inl equal
            · exact Or.inr (List.mem_cons_of_mem head member)

variable [IsStrictTotalOrder κ (· < ·)]

theorem insertEntry_sorted [DecidableEq κ] [DecidableLT κ] (key : κ) (value : υ)
    {entries : List (κ × υ)}
    (sorted : entries.Pairwise fun first second => first.1 < second.1) :
    (insertEntry key value entries).Pairwise fun first second => first.1 < second.1 := by
  induction entries with
  | nil => simp [insertEntry]
  | cons head rest ih =>
      rcases List.pairwise_cons.mp sorted with ⟨below, sortedRest⟩
      simp only [insertEntry]
      split
      · rename_i smaller
        refine List.pairwise_cons.mpr ⟨?_, sorted⟩
        intro entry member
        rcases List.mem_cons.mp member with rfl | member
        · exact smaller
        · exact trans_of (· < ·) smaller (below entry member)
      · rename_i notSmaller
        split
        · rename_i equal
          exact List.pairwise_cons.mpr ⟨fun entry member => equal ▸ below entry member,
            sortedRest⟩
        · rename_i different
          refine List.pairwise_cons.mpr ⟨?_, ih sortedRest⟩
          intro entry member
          rcases mem_insertEntry member with rfl | member
          · rcases trichotomous_of (· < ·) key head.1 with smaller | equal | larger
            · exact absurd smaller notSmaller
            · exact absurd equal different
            · exact larger
          · exact below entry member

/-- Bind a key to a value. -/
def insert [DecidableEq κ] [DecidableLT κ] (map : OrderedMap κ υ) (key : κ)
    (value : υ) : OrderedMap κ υ :=
  ⟨insertEntry key value map.entries, insertEntry_sorted key value map.sorted⟩

omit [IsStrictTotalOrder κ (· < ·)] in
theorem mem_of_get? [DecidableEq κ] (found : map.get? key = some value) :
    (key, value) ∈ map.entries := by
  rcases List.lookup_eq_some_iff.mp found with ⟨before, after, entries_eq, _⟩
  simp [entries_eq]

omit [IsStrictTotalOrder κ (· < ·)] in
theorem get?_eq_none_iff [DecidableEq κ] :
    map.get? key = none ↔ ∀ entry ∈ map.entries, entry.1 ≠ key := by
  simp only [get?, List.lookup_eq_none_iff, bne_iff_ne, ne_eq]
  exact forall₂_congr fun entry _ => ne_comm

omit [IsStrictTotalOrder κ (· < ·)] in
@[simp]
theorem mem_erase [DecidableEq κ] :
    entry ∈ (map.erase key).entries ↔ entry ∈ map.entries ∧ entry.1 ≠ key := by
  simp [erase]

/-- Removing a present entry splits it off. -/
theorem perm_cons_erase [DecidableEq κ] (map : OrderedMap κ υ)
    (member : (key, value) ∈ map.entries) :
    map.entries.Perm ((key, value) :: (map.erase key).entries) := by
  rcases map with ⟨entries, sorted⟩
  change (key, value) ∈ entries at member
  change entries.Perm ((key, value) :: entries.filter fun entry => entry.1 ≠ key)
  induction entries with
  | nil => simp at member
  | cons head rest ih =>
      rcases List.pairwise_cons.mp sorted with ⟨below, sortedRest⟩
      rcases List.mem_cons.mp member with rfl | member
      · have others : ∀ entry ∈ rest, entry.1 ≠ key := fun entry inRest equal =>
          irrefl_of (· < ·) key (equal ▸ below entry inRest)
        have kept : rest.filter (fun entry => entry.1 ≠ key) = rest :=
          List.filter_eq_self.mpr (by simpa using others)
        rw [List.filter_cons_of_neg (by simp), kept]
      · have different : head.1 ≠ key := fun equal =>
          irrefl_of (· < ·) key (equal ▸ below (key, value) member)
        rw [List.filter_cons_of_pos (by simpa using different)]
        exact ((ih sortedRest member).cons head).trans (List.Perm.swap _ _ _)

theorem value_unique [DecidableEq κ] {first second : υ} (firstMem : (key, first) ∈ map.entries)
    (secondMem : (key, second) ∈ map.entries) :
    first = second := by
  have located := (map.perm_cons_erase firstMem).mem_iff.mp secondMem
  simpa [eq_comm] using located

theorem get?_eq_some_iff [DecidableEq κ] :
    map.get? key = some value ↔ (key, value) ∈ map.entries := by
  constructor
  · exact mem_of_get?
  · intro member
    cases found : map.get? key with
    | none => exact absurd rfl (get?_eq_none_iff.mp found (key, value) member)
    | some other => rw [value_unique (mem_of_get? found) member]

/-- Inserting a fresh key adds exactly one entry. -/
theorem insert_perm [DecidableEq κ] [DecidableLT κ] (vacant : map.get? key = none) (value : υ) :
    (map.insert key value).entries.Perm ((key, value) :: map.entries) := by
  rw [get?_eq_none_iff] at vacant
  rcases map with ⟨entries, sorted⟩
  change (insertEntry key value entries).Perm ((key, value) :: entries)
  change ∀ entry ∈ entries, entry.1 ≠ key at vacant
  clear sorted
  induction entries with
  | nil => simp [insertEntry]
  | cons head rest ih =>
      have different : key ≠ head.1 := (vacant head List.mem_cons_self).symm
      simp only [insertEntry, different, if_false]
      split
      · rfl
      · have inRest := ih fun entry member => vacant entry (List.mem_cons_of_mem head member)
        exact (inRest.cons head).trans (List.Perm.swap _ _ _)

theorem mem_insert_of_vacant [DecidableEq κ] [DecidableLT κ] (vacant : map.get? key = none)
    (value : υ) :
    entry ∈ (map.insert key value).entries ↔
      entry = (key, value) ∨ entry ∈ map.entries := by
  rw [(insert_perm vacant value).mem_iff, List.mem_cons]

/-- Inserting leaves the other keys alone. -/
theorem insert_perm_erase [DecidableEq κ] [DecidableLT κ] (map : OrderedMap κ υ) (key : κ)
    (value : υ) : (map.insert key value).entries.Perm ((key, value) :: (map.erase key).entries) := by
  rcases map with ⟨entries, sorted⟩
  change (insertEntry key value entries).Perm
    ((key, value) :: entries.filter fun entry => entry.1 ≠ key)
  induction entries with
  | nil => exact List.Perm.refl _
  | cons head rest ih =>
      rcases List.pairwise_cons.mp sorted with ⟨below, sortedRest⟩
      have kept : (∀ entry ∈ rest, key < entry.1) →
          rest.filter (fun entry => entry.1 ≠ key) = rest := by
        intro larger
        refine List.filter_eq_self.mpr fun entry member => decide_eq_true fun equal => ?_
        exact irrefl_of (· < ·) key (equal ▸ larger entry member)
      by_cases smaller : key < head.1
      · have different : head.1 ≠ key := fun equal => irrefl_of (· < ·) key (equal ▸ smaller)
        have larger := kept fun entry member => trans_of (· < ·) smaller (below entry member)
        rw [insertEntry, if_pos smaller, List.filter_cons_of_pos (by simpa using different), larger]
      · rw [insertEntry, if_neg smaller]
        by_cases equal : key = head.1
        · have larger := kept fun entry member => equal ▸ below entry member
          rw [if_pos equal, List.filter_cons_of_neg (by simpa using equal.symm), larger]
        · rw [if_neg equal, List.filter_cons_of_pos (by simpa using Ne.symm equal)]
          exact ((ih sortedRest).cons head).trans (List.Perm.swap _ _ _)

theorem mem_insert [DecidableEq κ] [DecidableLT κ] : entry ∈ (map.insert key value).entries ↔
      entry = (key, value) ∨ entry ∈ map.entries ∧ entry.1 ≠ key := by
  rw [(insert_perm_erase map key value).mem_iff, List.mem_cons, mem_erase]

/-- The total weight of the stored values. -/
def weight (size : υ → Nat) (map : OrderedMap κ υ) : Nat :=
  (map.entries.map fun entry => size entry.2).sum

omit [IsStrictTotalOrder κ (· < ·)] in
@[simp]
theorem weight_empty (size : υ → Nat) : weight size (empty : OrderedMap κ υ) = 0 :=
  rfl

theorem weight_erase [DecidableEq κ] (size : υ → Nat) (map : OrderedMap κ υ)
    (member : (key, value) ∈ map.entries) :
    weight size map = size value + weight size (map.erase key) := by
  have split := (map.perm_cons_erase member).map fun entry => size entry.2
  simpa [weight] using split.sum_nat

theorem le_weight [DecidableEq κ] (size : υ → Nat) (map : OrderedMap κ υ)
    (member : entry ∈ map.entries) : size entry.2 ≤ weight size map := by
  rw [weight_erase size map member]
  exact Nat.le_add_right _ _

section

variable [DecidableEq κ] [DecidableLT κ] (size : υ → Nat) {map : OrderedMap κ υ} {key : κ}

theorem weight_insert (vacant : map.get? key = none) (value : υ) :
    weight size (map.insert key value) = size value + weight size map := by
  have split := (insert_perm vacant value).map fun entry => size entry.2
  simpa [weight] using split.sum_nat

theorem weight_insert_of_present {old : υ} (present : map.get? key = some old) (value : υ) :
    weight size (map.insert key value) + size old = weight size map + size value := by
  have split := (insert_perm_erase map key value).map fun entry => size entry.2
  have after : weight size (map.insert key value) = size value + weight size (map.erase key) := by
    simpa [weight] using split.sum_nat
  have before := weight_erase size map (mem_of_get? present)
  omega

end

theorem length_erase_lt [DecidableEq κ] (map : OrderedMap κ υ)
    (member : (key, value) ∈ map.entries) :
    (map.erase key).entries.length < map.entries.length := by
  have split := (map.perm_cons_erase member).length_eq
  simp only [List.length_cons] at split
  omega

end OrderedMap

/-!
# Ordered finite sets

A set with ordered iteration is an ordered map without values.  Programs walk
it from the largest element down, ask for the elements below a bound, and drop
the least element to keep it small.
-/

/-- A finite set whose elements are listed in increasing order. -/
abbrev OrderedSet (κ : Type u) [LT κ] := OrderedMap κ Unit

namespace OrderedSet

variable {κ : Type u} [LT κ] {set : OrderedSet κ}

/-- The elements in increasing order. -/
def elements (set : OrderedSet κ) : List κ :=
  set.entries.map Prod.fst

/-- The elements in decreasing order. -/
def descending (set : OrderedSet κ) : List κ :=
  set.elements.reverse

/-- The elements below a bound, in decreasing order. -/
def below [DecidableLT κ] (set : OrderedSet κ) (bound : κ) : List κ :=
  (set.elements.filter (· < bound)).reverse

/-- Remove the least element. -/
def dropLeast (set : OrderedSet κ) : OrderedSet κ :=
  ⟨set.entries.tail, set.sorted.tail⟩

theorem pairwise_elements (set : OrderedSet κ) : set.elements.Pairwise (· < ·) :=
  List.pairwise_map.mpr set.sorted

theorem pairwise_descending (set : OrderedSet κ) : set.descending.Pairwise (· > ·) :=
  List.pairwise_reverse.mpr set.pairwise_elements

theorem pairwise_below [DecidableLT κ] (set : OrderedSet κ) (bound : κ) :
    (set.below bound).Pairwise (· > ·) :=
  List.pairwise_reverse.mpr (set.pairwise_elements.filter _)

@[simp]
theorem mem_descending {element : κ} : element ∈ set.descending ↔ element ∈ set.elements :=
  List.mem_reverse

@[simp]
theorem mem_below [DecidableLT κ] {element bound : κ} :
    element ∈ set.below bound ↔ element ∈ set.elements ∧ element < bound := by
  simp [below]

/-- The first of the elements below a bound is the greatest of them. -/
theorem eq_or_lt_of_head?_below [DecidableLT κ] {element nearest bound : κ}
    (head : (set.below bound).head? = some nearest) (member : element ∈ set.elements)
    (under : element < bound) : element = nearest ∨ element < nearest := by
  rcases List.head?_eq_some_iff.mp head with ⟨others, cons⟩
  have sorted := set.pairwise_below bound
  have listed := mem_below.mpr ⟨member, under⟩
  rw [cons] at sorted listed
  exact (List.mem_cons.mp listed).imp id fun later =>
    (List.pairwise_cons.mp sorted).1 element later

variable [DecidableEq κ]

/-- Whether an element is in the set. -/
def contains (set : OrderedSet κ) (element : κ) : Bool :=
  set.elements.contains element

theorem contains_iff {element : κ} : set.contains element = true ↔ element ∈ set.elements := by
  simp [contains]

variable [DecidableLT κ] [IsStrictTotalOrder κ (· < ·)]

/-- Put an element into the set. -/
def add (set : OrderedSet κ) (element : κ) : OrderedSet κ :=
  OrderedMap.insert set element ()

omit [IsStrictTotalOrder κ (· < ·)] in
theorem mem_map_insertEntry {element other : κ} (entries : List (κ × Unit)) :
    other ∈ (OrderedMap.insertEntry element () entries).map Prod.fst ↔
      other = element ∨ other ∈ entries.map Prod.fst := by
  induction entries with
  | nil => simp [OrderedMap.insertEntry]
  | cons entry rest ih =>
      simp only [OrderedMap.insertEntry]
      split
      · simp
      · split
        · rename_i same
          simp [same]
        · simp only [List.map_cons, List.mem_cons, ih]
          exact or_left_comm

@[simp]
theorem mem_add {element other : κ} :
    other ∈ (set.add element).elements ↔ other = element ∨ other ∈ set.elements :=
  mem_map_insertEntry set.entries

end OrderedSet

end Corduit.Collection
