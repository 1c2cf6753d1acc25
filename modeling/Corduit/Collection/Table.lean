import Mathlib.Algebra.GroupWithZero.Nat
import Mathlib.Data.List.AList
import Mathlib.Data.List.Perm.Subperm

/-!
# Tables without an order

A concurrent hash map is an association list with distinct keys; nothing
depends on the order of its entries.  Collecting the keys of some entries and
erasing a collected batch are the bulk operations that sweeps are made of.
-/

namespace Corduit.Collection

universe u v

/-- A finite map whose entries are in no particular order. -/
abbrev Table (κ : Type u) (υ : Type v) := AList fun _ : κ => υ

namespace Table

variable {κ : Type u} {υ : Type v} [DecidableEq κ] {table : Table κ υ}

/-- The number of entries. -/
def size (table : Table κ υ) : Nat :=
  table.entries.length

/-- The keys of the entries that satisfy a test. -/
def keysWhere (table : Table κ υ) (test : κ → υ → Bool) : List κ :=
  (table.entries.filter fun entry => test entry.1 entry.2).map Sigma.fst

/-- Erase a batch of keys, one after the other. -/
def eraseAll (table : Table κ υ) (keys : List κ) : Table κ υ :=
  keys.foldl (fun table key => table.erase key) table

theorem lookup_insert_eq (table : Table κ υ) (key other : κ) (value : υ) :
    (table.insert key value).lookup other =
      if other = key then some value else table.lookup other := by
  by_cases same : other = key
  · rw [if_pos same, same, AList.lookup_insert]
  · rw [if_neg same, AList.lookup_insert_ne same]

variable {key : κ} {value : υ}

/-- What holds of the old entries and of the new one holds of all entries. -/
theorem forall_lookup_insert {property : κ → υ → Prop} (here : property key value)
    (others : ∀ other stored, table.lookup other = some stored → property other stored) (other : κ)
    (stored : υ) (found : (table.insert key value).lookup other = some stored) :
    property other stored := by
  rw [lookup_insert_eq] at found
  by_cases same : other = key
  · rw [if_pos same] at found
    rw [same, ← Option.some.inj found]
    exact here
  · rw [if_neg same] at found
    exact others other stored found

theorem lookup_eq_none_of_insert {key other : κ}
    (absent : (table.insert key value).lookup other = none) : table.lookup other = none := by
  rw [lookup_insert_eq] at absent
  by_cases same : other = key
  · rw [if_pos same] at absent
    cases absent
  · rwa [if_neg same] at absent

theorem lookup_insert_eq_none {key other : κ} {value old : υ}
    (present : table.lookup key = some old) (absent : table.lookup other = none) :
    (table.insert key value).lookup other = none := by
  have different : other ≠ key := by
    rintro rfl
    rw [present] at absent
    cases absent
  rw [lookup_insert_eq, if_neg different, absent]

theorem lookup_erase_eq (table : Table κ υ) (key other : κ) :
    (table.erase key).lookup other = if other = key then none else table.lookup other := by
  by_cases same : other = key
  · rw [if_pos same, same, AList.lookup_erase]
  · rw [if_neg same, AList.lookup_erase_ne same]

theorem mem_keysWhere_iff (test : κ → υ → Bool) (key : κ) :
    key ∈ table.keysWhere test ↔ ∃ value, table.lookup key = some value ∧ test key value = true := by
  unfold keysWhere
  constructor
  · intro member
    rcases List.mem_map.mp member with ⟨⟨_, value⟩, kept, rfl⟩
    rcases List.mem_filter.mp kept with ⟨present, passes⟩
    exact ⟨value, AList.mem_lookup_iff.mpr present, passes⟩
  · rintro ⟨value, found, passes⟩
    exact List.mem_map.mpr
      ⟨⟨key, value⟩, List.mem_filter.mpr ⟨AList.mem_lookup_iff.mp found, passes⟩, rfl⟩

omit [DecidableEq κ] in
theorem nodup_keysWhere (table : Table κ υ) (test : κ → υ → Bool) :
    (table.keysWhere test).Nodup :=
  (List.filter_sublist.map Sigma.fst).nodup table.nodupKeys

theorem lookup_eraseAll (keys : List κ) (key : κ) :
    (table.eraseAll keys).lookup key = if key ∈ keys then none else table.lookup key := by
  induction keys generalizing table with
  | nil => rfl
  | cons first keys ih =>
      change (eraseAll (table.erase first) keys).lookup key = _
      rw [ih]
      by_cases same : key = first
      · subst same
        simp
      · simp [same]

theorem lookup_eraseAll_of_notMem {keys : List κ} (other : key ∉ keys) :
    (table.eraseAll keys).lookup key = table.lookup key := by
  rw [lookup_eraseAll, if_neg other]

omit [DecidableEq κ] in
theorem size_eq_length_keys (table : Table κ υ) : table.size = table.keys.length :=
  (List.length_map _).symm

theorem size_erase_le (table : Table κ υ) (key : κ) :
    size (table.erase key) ≤ table.size := by
  rw [size_eq_length_keys, size_eq_length_keys, AList.keys_erase]
  exact List.length_erase_le

theorem size_eraseAll_le (table : Table κ υ) (keys : List κ) :
    size (table.eraseAll keys) ≤ table.size := by
  induction keys generalizing table with
  | nil => exact le_rfl
  | cons first keys ih => exact Nat.le_trans (ih (table.erase first)) (table.size_erase_le first)

theorem size_insert_le (table : Table κ υ) (key : κ) (value : υ) :
    size (table.insert key value) ≤ table.size + 1 := by
  rw [size_eq_length_keys, size_eq_length_keys, AList.keys_insert, List.length_cons]
  exact Nat.succ_le_succ List.length_erase_le

theorem size_insert_of_absent (absent : table.lookup key = none) (value : υ) :
    size (table.insert key value) = table.size + 1 := by
  have notMem : key ∉ table.keys := AList.lookup_eq_none.mp absent
  rw [size_eq_length_keys, size_eq_length_keys, AList.keys_insert, List.length_cons,
    List.erase_of_not_mem notMem]

theorem size_erase_of_present (present : table.lookup key = some value) :
    size (table.erase key) + 1 = table.size := by
  have member : key ∈ table.keys :=
    AList.mem_keys.mp (AList.lookup_isSome.mp (by rw [present]; rfl))
  rw [size_eq_length_keys, size_eq_length_keys, AList.keys_erase, List.length_erase_of_mem member]
  exact Nat.succ_pred_eq_of_pos (List.length_pos_of_mem member)

theorem size_insert_of_present {old : υ} (present : table.lookup key = some old) (value : υ) :
    size (table.insert key value) = table.size := by
  have member : key ∈ table.keys :=
    AList.mem_keys.mp (AList.lookup_isSome.mp (by rw [present]; rfl))
  rw [size_eq_length_keys, size_eq_length_keys, AList.keys_insert, List.length_cons,
    List.length_erase_of_mem member]
  exact Nat.succ_pred_eq_of_pos (List.length_pos_of_mem member)

theorem length_le_size {keys : List κ} (distinct : keys.Nodup)
    (present : ∀ key ∈ keys, (table.lookup key).isSome = true) :
    keys.length ≤ table.size := by
  have subset : keys ⊆ table.keys := fun key member =>
    AList.mem_keys.mp (AList.lookup_isSome.mp (present key member))
  calc keys.length ≤ table.keys.length := (distinct.subperm subset).length_le
    _ = table.size := (size_eq_length_keys table).symm

/-- The sum of a measure over the entries. -/
def total (measure : κ → υ → Nat) (table : Table κ υ) : Nat :=
  (table.entries.map fun entry => measure entry.1 entry.2).sum

variable {key : κ}

theorem total_insert_of_absent (measure : κ → υ → Nat) (absent : table.lookup key = none) (value : υ) :
    total measure (table.insert key value) = measure key value + total measure table := by
  have notMem : key ∉ table.entries.keys := AList.lookup_eq_none.mp absent
  rw [total, AList.entries_insert, List.kerase_of_notMem_keys notMem, List.map_cons, List.sum_cons]
  rfl

/-- A present entry stands between the others. -/
theorem entries_split {old : υ} (present : table.lookup key = some old) :
    ∃ before after, table.entries = before ++ ⟨key, old⟩ :: after ∧
      table.entries.kerase key = before ++ after := by
  have member : key ∈ table.entries.keys :=
    AList.mem_keys.mp (AList.lookup_isSome.mp (by rw [present]; rfl))
  rcases List.exists_of_kerase member with ⟨stored, before, after, _, split, erased⟩
  have same : stored = old := by
    have listed : (⟨key, stored⟩ : Sigma fun _ : κ => υ) ∈ table.entries := by simp [split]
    exact Option.some.inj ((AList.mem_lookup_iff.mpr listed).symm.trans present)
  exact ⟨before, after, same ▸ split, erased⟩

section

variable (measure : κ → υ → Nat) {old : υ} (present : table.lookup key = some old)

include present

theorem total_insert_of_present (value : υ) :
    total measure (table.insert key value) + measure key old =
      total measure table + measure key value := by
  rcases entries_split present with ⟨before, after, split, erased⟩
  rw [total, total, AList.entries_insert, erased, split]
  simp only [List.map_cons, List.map_append, List.sum_cons, List.sum_append]
  omega

theorem total_erase_of_present :
    total measure (table.erase key) + measure key old = total measure table := by
  rcases entries_split present with ⟨before, after, split, erased⟩
  have rest : (table.erase key).entries = before ++ after := erased
  rw [total, total, rest, split]
  simp only [List.map_cons, List.map_append, List.sum_cons, List.sum_append]
  omega

end

omit [DecidableEq κ] in
theorem total_congr {measure other : κ → υ → Nat}
    (agree : ∀ entry ∈ table.entries, measure entry.1 entry.2 = other entry.1 entry.2) :
    total measure table = total other table := by
  rw [total, total, List.map_congr_left agree]

end Table

end Corduit.Collection
