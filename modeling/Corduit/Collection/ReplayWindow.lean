import Mathlib.Data.Finset.Lattice.Fold
import Mathlib.Data.List.FinRange
import Mathlib.Data.List.Nodup
import Mathlib.Data.List.Perm.Subperm
import Mathlib.Order.Interval.Finset.Nat
import Mathlib.Order.Lattice.Nat

/-!
# Replay windows

A receiver accepts each number at most once.  It does not remember everything
it accepted: a number is refused when the greatest accepted one is a whole
window ahead of it, and then only the accepted numbers less than a window
behind the greatest have to be kept.  They are never more than the window is
wide.

Deliveries that come from distinct places of what was sent are no more than
what was sent.
-/

namespace Corduit.Collection.ReplayWindow

/-- The greatest accepted number. -/
def highest (accepted : Finset Nat) : Nat :=
  accepted.sup id

/-- Not accepted before, and not a whole window behind the greatest accepted
number. -/
def Fresh (width : Nat) (accepted : Finset Nat) (number : Nat) : Prop :=
  number ∉ accepted ∧ (accepted = ∅ ∨ highest accepted < number + width)

instance (width : Nat) (accepted : Finset Nat) (number : Nat) :
    Decidable (Fresh width accepted number) :=
  inferInstanceAs (Decidable (_ ∧ _))

/-- The accepted numbers less than a window behind the greatest. -/
def recent (width : Nat) (accepted : Finset Nat) : Finset Nat :=
  accepted.filter (highest accepted < · + width)

variable {width number : Nat} {accepted : Finset Nat}

theorem le_highest (member : number ∈ accepted) : number ≤ highest accepted :=
  Finset.le_sup (f := id) member

theorem highest_insert : highest (insert number accepted) = max number (highest accepted) := by
  simp [highest]

theorem mem_recent : number ∈ recent width accepted ↔
    number ∈ accepted ∧ highest accepted < number + width :=
  Finset.mem_filter

theorem card_recent_le : (recent width accepted).card ≤ width := by
  have within : recent width accepted ⊆
      Finset.Ico (highest accepted + 1 - width) (highest accepted + 1) := by
    intro number member
    rcases mem_recent.mp member with ⟨member, near⟩
    have below := le_highest member
    rw [Finset.mem_Ico]
    omega
  have bound := Finset.card_le_card within
  rw [Nat.card_Ico] at bound
  omega

/-- Within the window, what was accepted is what is kept. -/
theorem mem_recent_of_near (near : highest accepted < number + width) :
    number ∈ recent width accepted ↔ number ∈ accepted := by
  simp [mem_recent, near]

/-- A number up to the greatest is added to what is kept. -/
theorem mem_recent_insert_of_le {other : Nat} (behind : number ≤ highest accepted)
    (near : highest accepted < number + width) :
    other ∈ recent width (insert number accepted) ↔
      other = number ∨ other ∈ recent width accepted := by
  rw [mem_recent, mem_recent, highest_insert, max_eq_right behind, Finset.mem_insert]
  grind

/-- A number above the greatest moves the window: what it leaves behind is
dropped. -/
theorem mem_recent_insert_of_lt {other : Nat} (ahead : highest accepted < number)
    (positive : 0 < width) :
    other ∈ recent width (insert number accepted) ↔
      other = number ∨ other ∈ recent width accepted ∧ number < other + width := by
  rw [mem_recent, mem_recent, highest_insert, max_eq_left ahead.le, Finset.mem_insert]
  grind

/-- A fresh number behind the greatest finds room. -/
theorem card_recent_lt (fresh : number ∉ accepted) (behind : number ≤ highest accepted)
    (near : highest accepted < number + width) : (recent width accepted).card < width := by
  have added : insert number (recent width accepted) = recent width (insert number accepted) := by
    ext other
    rw [mem_recent_insert_of_le behind near, Finset.mem_insert]
  have absent : number ∉ recent width accepted := fun member => fresh (mem_recent.mp member).1
  calc (recent width accepted).card
      < (insert number (recent width accepted)).card := by
        rw [Finset.card_insert_of_notMem absent]
        exact Nat.lt_succ_self _
    _ ≤ width := by
        rw [added]
        exact card_recent_le

/-- A number above the greatest finds room once the window has moved. -/
theorem card_filter_recent_lt (ahead : highest accepted < number) (positive : 0 < width) :
    ((recent width accepted).filter (number < · + width)).card < width := by
  have absent : number ∉ (recent width accepted).filter (number < · + width) := by
    intro member
    have below := le_highest (mem_recent.mp (Finset.mem_filter.mp member).1).1
    omega
  have added : insert number ((recent width accepted).filter (number < · + width)) =
      recent width (insert number accepted) := by
    ext other
    rw [mem_recent_insert_of_lt ahead positive, Finset.mem_insert, Finset.mem_filter]
  calc ((recent width accepted).filter (number < · + width)).card
      < (insert number ((recent width accepted).filter (number < · + width))).card := by
        rw [Finset.card_insert_of_notMem absent]
        exact Nat.lt_succ_self _
    _ ≤ width := by
        rw [added]
        exact card_recent_le

/-- Items whose keys are distinct, each found under its key at some place of a
list, are together no more than the list. -/
theorem map_snd_subperm_of_places {κ β : Type} {items : List (κ × β)} {targets : List β}
    (keyAt : Nat → Option κ) (distinct : (items.map Prod.fst).Nodup)
    (placed : ∀ item ∈ items, ∃ place : Nat,
      keyAt place = some item.1 ∧ targets[place]? = some item.2) :
    (items.map Prod.snd).Subperm targets := by
  choose place key_at target_at using placed
  have inside : ∀ item : { item // item ∈ items }, place item.1 item.2 < targets.length :=
    fun item => (List.getElem?_eq_some_iff.mp (target_at item.1 item.2)).1
  let index : { item // item ∈ items } → Fin targets.length := fun item =>
    ⟨place item.1 item.2, inside item⟩
  have index_inj : ∀ first ∈ items.attach, ∀ second ∈ items.attach, index first = index second →
      first = second := by
    intro first _ second _ same
    have key_eq : first.1.1 = second.1.1 := by
      have firstKey := key_at first.1 first.2
      rw [show place first.1 first.2 = place second.1 second.2 from congrArg Fin.val same,
        key_at second.1 second.2] at firstKey
      exact (Option.some.inj firstKey).symm
    exact Subtype.ext (List.inj_on_of_nodup_map distinct first.2 second.2 key_eq)
  have places_distinct : (items.attach.map index).Nodup :=
    (List.nodup_attach.mpr distinct.of_map).map_on index_inj
  rcases List.subperm_of_subset places_distinct (fun place _ => List.mem_finRange place) with
    ⟨places, same, sub⟩
  have images : (items.attach.map index).map (targets[·.1]) = items.map Prod.snd := by
    rw [List.map_map]
    calc items.attach.map ((targets[·.1]) ∘ index)
        = items.attach.map (Prod.snd ∘ Subtype.val) := by
          refine List.map_congr_left fun item _ => ?_
          exact (List.getElem?_eq_some_iff.mp (target_at item.1 item.2)).2
      _ = items.map Prod.snd := by rw [← List.map_map, List.attach_map_subtype_val]
  rw [← images]
  refine ⟨places.map (targets[·.1]), same.map _, ?_⟩
  calc (places.map (targets[·.1])).Sublist ((List.finRange targets.length).map (targets[·.1])) :=
        sub.map _
    _ = targets := List.map_getElem_finRange targets

end Corduit.Collection.ReplayWindow
