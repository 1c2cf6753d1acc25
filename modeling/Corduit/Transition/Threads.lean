import Corduit.Collection.Modify
import Corduit.Transition.Core
import Mathlib.Data.List.Perm.Basic

/-!
# Threads

Any number of threads, each at a place of its code, over a shared state.  A step
is one access to the state: it moves its thread to another place and may wake the
threads that are asleep.  A schedule is an interleaving of such steps with new
calls and with wakeups for no reason.
-/

namespace Corduit.Transition.Threads

open Collection

universe u v w

/-- What a step of a thread does. -/
structure Effect (σ : Type u) (κ : Type v) where
  shared : σ
  place : κ
  notifies : Bool := false

/-- The shared state and the places of the threads. -/
structure Pool (σ : Type u) (κ : Type v) where
  shared : σ
  threads : List κ
deriving DecidableEq

/-- A thread begins a call, takes a step, or wakes for no reason. -/
inductive Action (α : Type w) where
  | call (call : α)
  | go (index : Nat)
  | wake (index : Nat)
deriving DecidableEq

section Steps

variable {σ : Type u} {κ : Type v} {α : Type w}
variable (enter : α → κ) (advance : σ → κ → Option (Effect σ κ)) (woken : κ → κ)

/-- `notify_all`, if it is called. -/
def notifyAll (notifies : Bool) (threads : List κ) : List κ :=
  if notifies then threads.map woken else threads

/-- The next state; a thread that cannot go on leaves it as it is. -/
def step (pool : Pool σ κ) : Action α → Pool σ κ
  | .call call => ⟨pool.shared, pool.threads ++ [enter call]⟩
  | .go index =>
      match pool.threads[index]? with
      | none => pool
      | some place =>
          match advance pool.shared place with
          | none => pool
          | some effect =>
              ⟨effect.shared,
                (notifyAll woken effect.notifies pool.threads).set index effect.place⟩
  | .wake index => ⟨pool.shared, pool.threads.modify index woken⟩

variable {enter advance woken} {pool : Pool σ κ} {index : Nat} {place : κ} {effect : Effect σ κ}

theorem step_go (located : pool.threads[index]? = some place)
    (advanced : advance pool.shared place = some effect) :
    step enter advance woken pool (.go index) = ⟨effect.shared,
      (notifyAll woken effect.notifies pool.threads).set index effect.place⟩ := by
  rw [step, located]
  dsimp only
  rw [advanced]

theorem step_go_of_blocked (located : pool.threads[index]? = some place)
    (blocked : advance pool.shared place = none) :
    step enter advance woken pool (.go index) = pool := by
  rw [step, located]
  dsimp only
  rw [blocked]

theorem step_go_of_nobody (nobody : pool.threads[index]? = none) :
    step enter advance woken pool (.go index) = pool := by
  rw [step, nobody]

variable {threads : List κ} {next : κ}

/-- What holds of the place that is left holds of all places after a step when it
did before and holds of the new place. -/
theorem forall_mem_set_iff {property : κ → Prop} (located : threads[index]? = some place)
    (holds : property place) :
    (∀ other ∈ threads.set index next, property other) ↔
      property next ∧ ∀ other ∈ threads, property other := by
  have inside : index < threads.length := (List.getElem?_eq_some_iff.mp located).1
  constructor
  · intro all
    refine ⟨all next (List.mem_set inside next), ?_⟩
    intro other member
    rcases List.mem_iff_getElem?.mp member with ⟨position, found⟩
    by_cases same : position = index
    · subst same
      rw [located] at found
      rwa [← Option.some.inj found]
    · refine all other (List.mem_iff_getElem?.mpr ⟨position, ?_⟩)
      rwa [List.getElem?_set_ne (Ne.symm same)]
  · rintro ⟨here, all⟩ other member
    rcases List.mem_or_eq_of_mem_set member with before | rfl
    · exact all other before
    · exact here

theorem exists_mem_set_iff {property : κ → Prop} (located : threads[index]? = some place)
    (fails : ¬ property place) :
    (∃ other ∈ threads.set index next, property other) ↔
      property next ∨ ∃ other ∈ threads, property other := by
  have none := @forall_mem_set_iff κ index place threads next (fun other => ¬ property other)
    located fails
  rw [← not_iff_not]
  push Not
  exact none

theorem countP_eq_add {test : κ → Bool} (located : threads[index]? = some place) :
    threads.countP test = (threads.eraseIdx index).countP test + (test place).toNat := by
  rcases List.getElem?_eq_some_iff.mp located with ⟨inside, rfl⟩
  rw [← (List.getElem_cons_eraseIdx_perm inside).countP_eq, List.countP_cons]
  cases test threads[index] <;> rfl

theorem countP_set_add {test : κ → Bool} (located : threads[index]? = some place) :
    (threads.set index next).countP test + (test place).toNat =
      threads.countP test + (test next).toNat := by
  have inside : index < threads.length := (List.getElem?_eq_some_iff.mp located).1
  rw [countP_eq_add (List.getElem?_set_self inside), countP_eq_add located,
    List.eraseIdx_set_eq, Nat.add_right_comm]

/-- The only place of a kind. -/
theorem eq_of_countP_le_one {test : κ → Bool} (one : threads.countP test ≤ 1)
    (member : place ∈ threads) (holds : test place = true) {other : κ} (member' : other ∈ threads)
    (holds' : test other = true) : other = place := by
  rcases List.mem_iff_getElem?.mp member with ⟨index, located⟩
  rcases List.mem_iff_getElem?.mp member' with ⟨position, located'⟩
  by_cases same : position = index
  · subst same
    rw [located] at located'
    exact (Option.some.inj located').symm
  · have both : 0 < (threads.eraseIdx index).countP test :=
      List.countP_pos_iff.mpr
        ⟨other, List.mem_eraseIdx_iff_getElem?.mpr ⟨position, same, located'⟩, holds'⟩
    rw [countP_eq_add located, holds, Bool.toNat_true] at one
    exact absurd both (Nat.not_lt.mpr (Nat.le_of_add_le_add_right one))

theorem mem_notifyAll {notifies : Bool} (member : place ∈ notifyAll woken notifies threads) :
    place ∈ threads ∨ ∃ before ∈ threads, place = woken before := by
  cases notifies with
  | false => exact Or.inl member
  | true =>
      rcases List.mem_map.mp member with ⟨before, member', rfl⟩
      exact Or.inr ⟨before, member', rfl⟩

theorem getElem?_notifyAll (located : threads[index]? = some place) (still : woken place = place)
    (notifies : Bool) : (notifyAll woken notifies threads)[index]? = some place := by
  cases notifies with
  | false => exact located
  | true => rw [notifyAll, if_pos rfl, List.getElem?_map, located, Option.map_some, still]

variable {test : κ → Bool} (kept : ∀ place, test (woken place) = test place)

include kept

theorem countP_notifyAll (notifies : Bool) (threads : List κ) :
    (notifyAll woken notifies threads).countP test = threads.countP test := by
  cases notifies with
  | false => rfl
  | true =>
      rw [notifyAll, if_pos rfl, List.countP_map]
      exact List.countP_congr fun place _ => by rw [Function.comp_apply, kept]

theorem countP_modify (index : Nat) (threads : List κ) :
    (threads.modify index woken).countP test = threads.countP test := by
  have same := @map_modify_of_same κ Bool woken test threads (fun place _ => kept place) index
  rw [← Function.id_comp test, ← List.countP_map, same, List.countP_map]

theorem countP_go (located : pool.threads[index]? = some place) (still : woken place = place)
    (advanced : advance pool.shared place = some effect) :
    (step enter advance woken pool (.go index)).threads.countP test + (test place).toNat =
      pool.threads.countP test + (test effect.place).toNat := by
  rw [step_go located advanced]
  dsimp only
  rw [countP_set_add (getElem?_notifyAll located still effect.notifies), countP_notifyAll kept]

end Steps

end Corduit.Transition.Threads
