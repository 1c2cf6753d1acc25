import Corduit.Transition.Core

/-!
# Read guards

Threads share a table whose shards are reader-writer locks that are not
reentrant.  A thread takes and drops read guards, and asks for write access,
which it is given when nobody holds a guard of the shard.  A thread that asks
for it with a guard in its hand may wait for itself; threads that never do
always get on.
-/

namespace Corduit.Transition.Guards

universe u

/-- What a thread does with a shard of the table. -/
inductive Access (κ : Type u) where
  | acquire (shard : κ)
  | release (shard : κ)
  | write (shard : κ)
deriving DecidableEq, Repr

section Traces

variable {κ : Type u} [DecidableEq κ]

/-- The guards in hand behind an access. -/
def Access.after (held : List κ) : Access κ → List κ
  | acquire shard => shard :: held
  | release shard => held.erase shard
  | write _ => held

/-- The guards in hand behind some accesses. -/
def holds (held : List κ) (trace : List (Access κ)) : List κ :=
  trace.foldl Access.after held

/-- Write access is asked for with empty hands only. -/
def SafeFrom : List κ → List (Access κ) → Prop
  | _, [] => True
  | held, .write shard :: trace => held = [] ∧ SafeFrom (Access.after held (.write shard)) trace
  | held, access :: trace => SafeFrom (access.after held) trace

instance SafeFrom.decidable :
    (held : List κ) → (trace : List (Access κ)) → Decidable (SafeFrom held trace)
  | _, [] => isTrue trivial
  | held, .write shard :: trace =>
      have := SafeFrom.decidable (Access.after held (.write shard)) trace
      inferInstanceAs (Decidable (held = [] ∧ _))
  | held, .acquire shard :: trace => SafeFrom.decidable (Access.after held (.acquire shard)) trace
  | held, .release shard :: trace => SafeFrom.decidable (Access.after held (.release shard)) trace

/-- A call that begins with empty hands. -/
def Safe (trace : List (Access κ)) : Prop :=
  SafeFrom [] trace

instance (trace : List (Access κ)) : Decidable (Safe trace) :=
  SafeFrom.decidable [] trace

/-- Nothing is left in hand. -/
def Settled (trace : List (Access κ)) : Prop :=
  holds [] trace = []

variable {held : List κ} {access : Access κ} {first second trace : List (Access κ)}

@[simp]
theorem holds_nil : holds held [] = held :=
  rfl

@[simp]
theorem holds_cons : holds held (access :: trace) = holds (access.after held) trace :=
  rfl

theorem holds_append : holds held (first ++ second) = holds (holds held first) second :=
  List.foldl_append

theorem safeFrom_cons : SafeFrom held (access :: trace) ↔
    (∀ shard, access = .write shard → held = []) ∧ SafeFrom (access.after held) trace := by
  cases access with
  | acquire shard => simp [SafeFrom]
  | release shard => simp [SafeFrom]
  | write shard => simp [SafeFrom]

theorem safeFrom_append : SafeFrom held (first ++ second) ↔
    SafeFrom held first ∧ SafeFrom (holds held first) second := by
  induction first generalizing held with
  | nil => simp [SafeFrom]
  | cons access first ih => simp [safeFrom_cons, ih, and_assoc]

theorem safe_append (settled : Settled first) :
    Safe (first ++ second) ↔ Safe first ∧ Safe second := by
  rw [Safe, safeFrom_append, settled]
  rfl

theorem settled_append (settled : Settled first) : Settled (first ++ second) ↔ Settled second := by
  rw [Settled, holds_append, settled]
  rfl

end Traces

/-- A thread, with the guards in its hand and the accesses that are ahead of it. -/
structure Thread (κ : Type u) where
  held : List κ
  ahead : List (Access κ)

section Pools

variable {κ : Type u} [DecidableEq κ]

/-- Write access is given when nobody has a guard of the shard. -/
def Granted (pool : List (Thread κ)) : Access κ → Prop
  | .write shard => ∀ thread ∈ pool, shard ∉ thread.held
  | _ => True

instance (pool : List (Thread κ)) : (access : Access κ) → Decidable (Granted pool access)
  | .write shard => inferInstanceAs (Decidable (∀ thread ∈ pool, shard ∉ thread.held))
  | .acquire _ => isTrue trivial
  | .release _ => isTrue trivial

/-- A thread goes on, or waits for its access. -/
def step (pool : List (Thread κ)) (index : Nat) : List (Thread κ) :=
  match pool[index]? with
  | none => pool
  | some thread =>
      match thread.ahead with
      | [] => pool
      | access :: rest =>
          if Granted pool access then pool.set index ⟨access.after thread.held, rest⟩ else pool

theorem step_ne {pool : List (Thread κ)} {index other : Nat} (differ : other ≠ index) :
    (step pool index)[other]? = pool[other]? := by
  unfold step
  split
  · rfl
  split
  · rfl
  split
  · exact List.getElem?_set_ne differ.symm
  · rfl

/-- A thread that asks for a shard of which it has a guard waits for itself, whatever the
others do. -/
theorem stuck_run {pool : List (Thread κ)} {index : Nat} {thread : Thread κ} {shard : κ}
    {rest : List (Access κ)} (located : pool[index]? = some thread) (guard : shard ∈ thread.held)
    (asks : thread.ahead = .write shard :: rest) (schedule : List Nat) :
    (run step pool schedule)[index]? = some thread := by
  induction schedule generalizing pool with
  | nil => exact located
  | cons turn schedule ih =>
      apply ih
      by_cases same : turn = index
      · subst same
        have member := List.mem_of_getElem? located
        have refused : ¬ Granted pool (.write shard) := fun granted => granted thread member guard
        simp [step, located, asks, refused]
      · rw [step_ne (Ne.symm same)]
        exact located

/-- A thread that asks for write access with empty hands, and leaves nothing in hand. -/
structure Orderly (thread : Thread κ) : Prop where
  safe : SafeFrom thread.held thread.ahead
  settled : holds thread.held thread.ahead = []

variable {pool : List (Thread κ)} (orderly : ∀ thread ∈ pool, Orderly thread)

include orderly

theorem orderly_step (index : Nat) : ∀ thread ∈ step pool index, Orderly thread := by
  unfold step
  split
  · exact orderly
  rename_i thread located
  split
  · exact orderly
  rename_i access rest ahead
  split
  · intro other member
    rcases List.mem_or_eq_of_mem_set member with before | rfl
    · exact orderly other before
    · rcases orderly thread (List.mem_of_getElem? located) with ⟨safe, settled⟩
      rw [ahead] at safe settled
      exact ⟨(safeFrom_cons.mp safe).2, settled⟩
  · exact orderly

theorem exists_granted {thread : Thread κ} (member : thread ∈ pool)
    (unfinished : thread.ahead ≠ []) :
    ∃ other ∈ pool, ∃ access rest, other.ahead = access :: rest ∧ Granted pool access := by
  by_contra none
  push Not at none
  have empty : ∀ other ∈ pool, other.held = [] := by
    intro other member'
    rcases orderly other member' with ⟨safe, settled⟩
    cases ahead : other.ahead with
    | nil =>
        rw [ahead] at settled
        exact settled
    | cons access rest =>
        have refused := none other member' access rest ahead
        rw [ahead] at safe
        cases access with
        | acquire shard => exact absurd trivial refused
        | release shard => exact absurd trivial refused
        | write shard => exact (safeFrom_cons.mp safe).1 shard rfl
  rcases List.exists_cons_of_ne_nil unfinished with ⟨access, rest, ahead⟩
  apply none thread member access rest ahead
  cases access with
  | acquire shard => trivial
  | release shard => trivial
  | write shard =>
      intro other member' held
      rw [empty other member'] at held
      cases held

/-- Whatever the schedule, orderly threads never lock each other out. -/
theorem run_granted (schedule : List Nat) {thread : Thread κ}
    (member : thread ∈ run step pool schedule) (unfinished : thread.ahead ≠ []) :
    ∃ other ∈ run step pool schedule, ∃ access rest, other.ahead = access :: rest ∧
      Granted (run step pool schedule) access := by
  have kept : ∀ thread ∈ run step pool schedule, Orderly thread := by
    clear member
    induction schedule generalizing pool with
    | nil => exact orderly
    | cons turn schedule ih => exact ih (orderly_step orderly turn)
  exact exists_granted kept member unfinished

end Pools

end Corduit.Transition.Guards
