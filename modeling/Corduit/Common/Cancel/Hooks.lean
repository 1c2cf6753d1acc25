import Mathlib.Data.List.Nodup
import Corduit.Transition.Threads

/-!
# Hooks of a cancellation token

`on_cancel` reads the flag, locks the list of hooks, reads the flag again and
registers its hook or runs it; `cancel` sets the flag and then takes the list
under the same lock.  A hook is any sequence of calls on the token, so that a
thread is a stack of places.  Each access is a step of its own.
-/

namespace Corduit.Common.Cancel.Hooks

open Transition Transition.Threads

variable {κ : Type}

/-- The calls on a token; a hook is known by its code. -/
inductive Call (κ : Type) where
  | cancel
  | onCancel (code : κ)
  | isCancelled

/-- `Hook`: what one call of `on_cancel` was given. -/
structure Hook (κ : Type) where
  id : Nat
  code : κ

/-- `Inner`, with the locks, and a record of the calls of `on_cancel` so far, of
the hooks in the order in which they were registered, and of those that ran. -/
structure Inner (κ : Type) where
  cancelled : Bool := false
  wakeLocked : Bool := false
  hooksLocked : Bool := false
  hooks : List (Hook κ) := []
  next : Nat := 0
  pushed : List Nat := []
  ran : List Nat := []

/-- What a thread does next in one of its calls. -/
inductive Place (κ : Type) where
  /-- `cancel`: swap the flag. -/
  | swapping
  /-- `cancel`: lock `wake`. -/
  | wakeLocking
  /-- `cancel`: notify, and drop the guard. -/
  | notifying
  /-- `cancel`: lock `hooks`. -/
  | hooksLocking
  /-- `cancel`: take the hooks, and drop the guard. -/
  | taking
  /-- `cancel`: run the hooks that are left. -/
  | running (left : List (Hook κ))
  /-- `on_cancel`: read the flag. -/
  | checking (code : κ)
  /-- `on_cancel`: lock `hooks`. -/
  | guarding (hook : Hook κ)
  /-- `on_cancel`: read the flag with the guard. -/
  | rechecking (hook : Hook κ)
  /-- `on_cancel`: push the hook, and drop the guard. -/
  | pushing (hook : Hook κ)
  /-- `on_cancel`: run the hook. -/
  | calling (hook : Hook κ)
  /-- `is_cancelled`: read the flag. -/
  | reading
  /-- A hook: the calls that it still makes. -/
  | body (calls : List (Call κ))

/-- Where a call begins. -/
def start : Call κ → Place κ
  | .cancel => .swapping
  | .onCancel code => .checking code
  | .isCancelled => .reading

variable (code : κ → List (Call κ))

/-- A hook runs: it is noted, and its calls are made. -/
def runs (inner : Inner κ) (hook : Hook κ) : Inner κ × Place κ :=
  ({ inner with ran := inner.ran ++ [hook.id] }, .body (code hook.code))

/-- The next step of the call on top of a thread, and the places that it leaves
behind; a thread that waits for a lock has none. -/
def next (inner : Inner κ) : Place κ → Option (Inner κ × List (Place κ))
  | .swapping =>
      if inner.cancelled then some (inner, [])
      else some ({ inner with cancelled := true }, [.wakeLocking])
  | .wakeLocking =>
      if inner.wakeLocked then none
      else some ({ inner with wakeLocked := true }, [.notifying])
  | .notifying => some ({ inner with wakeLocked := false }, [.hooksLocking])
  | .hooksLocking =>
      if inner.hooksLocked then none
      else some ({ inner with hooksLocked := true }, [.taking])
  | .taking => some ({ inner with hooks := [], hooksLocked := false }, [.running inner.hooks])
  | .running [] => some (inner, [])
  | .running (hook :: left) =>
      let (inner, place) := runs code inner hook
      some (inner, [place, .running left])
  | .checking code =>
      let hook := ⟨inner.next, code⟩
      let inner := { inner with next := inner.next + 1 }
      if inner.cancelled then some (inner, [.calling hook]) else some (inner, [.guarding hook])
  | .guarding hook =>
      if inner.hooksLocked then none
      else some ({ inner with hooksLocked := true }, [.rechecking hook])
  | .rechecking hook =>
      if inner.cancelled then some ({ inner with hooksLocked := false }, [.calling hook])
      else some (inner, [.pushing hook])
  | .pushing hook =>
      some ({ inner with
        hooks := inner.hooks ++ [hook], pushed := inner.pushed ++ [hook.id], hooksLocked := false },
        [])
  | .calling hook =>
      let (inner, place) := runs code inner hook
      some (inner, [place])
  | .reading => some (inner, [])
  | .body [] => some (inner, [])
  | .body (call :: calls) => some (inner, [start call, .body calls])

/-- A thread: the calls that it is in, the innermost first. -/
abbrev Stack (κ : Type) :=
  List (Place κ)

/-- A step of a thread; one that has returned takes none. -/
def advance (inner : Inner κ) : Stack κ → Option (Effect (Inner κ) (Stack κ))
  | [] => none
  | top :: rest => (next code inner top).map fun (inner, places) =>
      { shared := inner, place := places ++ rest }

/-- A token and the threads that use its clones. -/
abbrev CancellationToken (κ : Type) :=
  Pool (Inner κ) (Stack κ)

namespace CancellationToken

/-- A token without hooks. -/
def new : CancellationToken κ :=
  ⟨{}, []⟩

/-- One step of one thread. -/
def step : CancellationToken κ → Action (Call κ) → CancellationToken κ :=
  Threads.step (fun call => [start call]) (advance code) id

/-- Every call has returned. -/
def Idle (token : CancellationToken κ) : Prop :=
  ∀ stack ∈ token.threads, stack = []

end CancellationToken

namespace Place

/-- `wake` is held. -/
def holdsWake : Place κ → Bool
  | notifying => true
  | _ => false

/-- `hooks` is held. -/
def holdsHooks : Place κ → Bool
  | taking | rechecking _ | pushing _ => true
  | _ => false

/-- The hook is about to be registered. -/
def isPushing : Place κ → Bool
  | pushing _ => true
  | _ => false

/-- The flag is set and the hooks are not taken. -/
def isOnWay : Place κ → Bool
  | wakeLocking | notifying | hooksLocking | taking => true
  | _ => false

/-- The call that set the flag. -/
def isCancelling : Place κ → Bool
  | running _ => true
  | place => place.isOnWay

/-- The hooks that were taken and still have to run. -/
def left : Place κ → List Nat
  | running hooks => hooks.map Hook.id
  | _ => []

/-- The hooks that nobody else has. -/
def pending : Place κ → List Nat
  | guarding hook | rechecking hook | pushing hook | calling hook => [hook.id]
  | place => place.left

/-- A call on the token is made from here: a hook runs. -/
def isOutside : Place κ → Bool
  | running _ | body _ => true
  | _ => false

end Place

/-- What holds of a token and of the places of all its threads. -/
structure Sound (inner : Inner κ) (places : List (Place κ)) : Prop where
  /-- One place has a lock that is locked. -/
  wakeHeld : places.countP Place.holdsWake = inner.wakeLocked.toNat
  hooksHeld : places.countP Place.holdsHooks = inner.hooksLocked.toNat
  /-- One call has set the flag. -/
  single : places.countP Place.isCancelling ≤ inner.cancelled.toNat
  /-- Behind the moment at which the hooks are taken there are none, nor is one
  registered. -/
  settled : inner.cancelled = true → places.countP Place.isOnWay = 0 →
    inner.hooks = [] ∧ places.countP Place.isPushing = 0
  /-- Every hook ran, or is registered, or is in one call. -/
  owned : (inner.ran ++ inner.hooks.map Hook.id ++ places.flatMap Place.pending).Perm
    (List.range inner.next)
  /-- The hooks that were registered ran in their order, and those that are left
  come behind them. -/
  ordered : inner.pushed =
    inner.ran.filter (· ∈ inner.pushed) ++ places.flatMap Place.left ++ inner.hooks.map Hook.id

theorem sound_new : Sound ({} : Inner κ) [] where
  wakeHeld := rfl
  hooksHeld := rfl
  single := Nat.le_refl _
  settled := nofun
  owned := List.Perm.refl _
  ordered := rfl

/-- The steps of a call, with what makes them possible. -/
inductive Advances (code : κ → List (Call κ)) (inner : Inner κ) :
    Place κ → Inner κ → List (Place κ) → Prop where
  | swapsAgain (raised : inner.cancelled = true) : Advances code inner .swapping inner []
  | swaps (clear : inner.cancelled = false) :
      Advances code inner .swapping { inner with cancelled := true } [.wakeLocking]
  | locksWake (free : inner.wakeLocked = false) :
      Advances code inner .wakeLocking { inner with wakeLocked := true } [.notifying]
  | notifies : Advances code inner .notifying { inner with wakeLocked := false } [.hooksLocking]
  | locksHooks (free : inner.hooksLocked = false) :
      Advances code inner .hooksLocking { inner with hooksLocked := true } [.taking]
  | takes : Advances code inner .taking { inner with hooks := [], hooksLocked := false }
      [.running inner.hooks]
  | finishes : Advances code inner (.running []) inner []
  | runsNext (hook : Hook κ) (left : List (Hook κ)) :
      Advances code inner (.running (hook :: left)) { inner with ran := inner.ran ++ [hook.id] }
        [.body (code hook.code), .running left]
  | checksSet (code' : κ) (raised : inner.cancelled = true) :
      Advances code inner (.checking code') { inner with next := inner.next + 1 }
        [.calling ⟨inner.next, code'⟩]
  | checksClear (code' : κ) (clear : inner.cancelled = false) :
      Advances code inner (.checking code') { inner with next := inner.next + 1 }
        [.guarding ⟨inner.next, code'⟩]
  | guards (hook : Hook κ) (free : inner.hooksLocked = false) :
      Advances code inner (.guarding hook) { inner with hooksLocked := true } [.rechecking hook]
  | rechecksSet (hook : Hook κ) (raised : inner.cancelled = true) :
      Advances code inner (.rechecking hook) { inner with hooksLocked := false } [.calling hook]
  | rechecksClear (hook : Hook κ) (clear : inner.cancelled = false) :
      Advances code inner (.rechecking hook) inner [.pushing hook]
  | pushes (hook : Hook κ) :
      Advances code inner (.pushing hook)
        { inner with
          hooks := inner.hooks ++ [hook], pushed := inner.pushed ++ [hook.id],
          hooksLocked := false } []
  | calls (hook : Hook κ) :
      Advances code inner (.calling hook) { inner with ran := inner.ran ++ [hook.id] }
        [.body (code hook.code)]
  | reads : Advances code inner .reading inner []
  | ends : Advances code inner (.body []) inner []
  | opens (call : Call κ) (calls : List (Call κ)) :
      Advances code inner (.body (call :: calls)) inner [start call, .body calls]

variable {code} {inner inner' : Inner κ} {top : Place κ} {places front back : List (Place κ)}

theorem advances_of_next (advanced : next code inner top = some (inner', places)) :
    Advances code inner top inner' places := by
  cases top with
  | swapping =>
      rw [next] at advanced
      cases raised : inner.cancelled with
      | true =>
          rw [if_pos raised] at advanced
          cases advanced
          exact .swapsAgain raised
      | false =>
          rw [if_neg (Bool.eq_false_iff.mp raised)] at advanced
          cases advanced
          exact .swaps raised
  | wakeLocking =>
      rw [next] at advanced
      cases free : inner.wakeLocked with
      | true =>
          rw [if_pos free] at advanced
          cases advanced
      | false =>
          rw [if_neg (Bool.eq_false_iff.mp free)] at advanced
          cases advanced
          exact .locksWake free
  | notifying =>
      cases advanced
      exact .notifies
  | hooksLocking =>
      rw [next] at advanced
      cases free : inner.hooksLocked with
      | true =>
          rw [if_pos free] at advanced
          cases advanced
      | false =>
          rw [if_neg (Bool.eq_false_iff.mp free)] at advanced
          cases advanced
          exact .locksHooks free
  | taking =>
      cases advanced
      exact .takes
  | running left =>
      cases left with
      | nil =>
          cases advanced
          exact .finishes
      | cons hook left =>
          cases advanced
          exact .runsNext hook left
  | checking code' =>
      rw [next] at advanced
      cases raised : inner.cancelled with
      | true =>
          rw [if_pos raised] at advanced
          cases advanced
          exact .checksSet code' raised
      | false =>
          rw [if_neg (Bool.eq_false_iff.mp raised)] at advanced
          cases advanced
          exact .checksClear code' raised
  | guarding hook =>
      rw [next] at advanced
      cases free : inner.hooksLocked with
      | true =>
          rw [if_pos free] at advanced
          cases advanced
      | false =>
          rw [if_neg (Bool.eq_false_iff.mp free)] at advanced
          cases advanced
          exact .guards hook free
  | rechecking hook =>
      rw [next] at advanced
      cases raised : inner.cancelled with
      | true =>
          rw [if_pos raised] at advanced
          cases advanced
          exact .rechecksSet hook raised
      | false =>
          rw [if_neg (Bool.eq_false_iff.mp raised)] at advanced
          cases advanced
          exact .rechecksClear hook raised
  | pushing hook =>
      cases advanced
      exact .pushes hook
  | calling hook =>
      cases advanced
      exact .calls hook
  | reading =>
      cases advanced
      exact .reads
  | body calls =>
      cases calls with
      | nil =>
          cases advanced
          exact .ends
      | cons call calls =>
          cases advanced
          exact .opens call calls

theorem start_weightless (call : Call κ) :
    (start call).holdsWake = false ∧ (start call).holdsHooks = false ∧
      (start call).isCancelling = false ∧ (start call).isOnWay = false ∧
      (start call).isPushing = false ∧ (start call).pending = [] ∧ (start call).left = [] := by
  cases call <;> exact ⟨rfl, rfl, rfl, rfl, rfl, rfl, rfl⟩

namespace Advances

variable (advances : Advances code inner top inner' places)
include advances

theorem wake (held : top.holdsWake = true → inner.wakeLocked = true) :
    places.countP Place.holdsWake + inner.wakeLocked.toNat =
      top.holdsWake.toNat + inner'.wakeLocked.toNat := by
  cases advances with
  | locksWake free => simp [Place.holdsWake, free]
  | notifies => simp [Place.holdsWake, held rfl]
  | opens call calls => cases call <;> simp [Place.holdsWake, start]
  | _ => simp [Place.holdsWake]

theorem hooks (held : top.holdsHooks = true → inner.hooksLocked = true) :
    places.countP Place.holdsHooks + inner.hooksLocked.toNat =
      top.holdsHooks.toNat + inner'.hooksLocked.toNat := by
  cases advances with
  | locksHooks free => simp [Place.holdsHooks, free]
  | guards hook free => simp [Place.holdsHooks, free]
  | takes => simp [Place.holdsHooks, held rfl]
  | rechecksSet hook raised => simp [Place.holdsHooks, held rfl]
  | pushes hook => simp [Place.holdsHooks, held rfl]
  | opens call calls => cases call <;> simp [Place.holdsHooks, start]
  | _ => simp [Place.holdsHooks]

theorem cancelling : places.countP Place.isCancelling + inner.cancelled.toNat ≤
    top.isCancelling.toNat + inner'.cancelled.toNat := by
  cases advances with
  | swaps clear => simp [Place.isCancelling, Place.isOnWay, clear]
  | opens call calls => cases call <;> simp [Place.isCancelling, Place.isOnWay, start]
  | _ => simp [Place.isCancelling, Place.isOnWay]

theorem settled {others : List (Place κ)} (single : top.isCancelling.toNat +
      others.countP Place.isCancelling ≤ inner.cancelled.toNat)
    (held : top.holdsHooks.toNat + others.countP Place.holdsHooks = inner.hooksLocked.toNat)
    (before : inner.cancelled = true → top.isOnWay.toNat + others.countP Place.isOnWay = 0 →
      inner.hooks = [] ∧ top.isPushing.toNat + others.countP Place.isPushing = 0)
    (after : inner'.cancelled = true)
    (past : places.countP Place.isOnWay + others.countP Place.isOnWay = 0) :
    inner'.hooks = [] ∧ places.countP Place.isPushing + others.countP Place.isPushing = 0 := by
  have pushing : others.countP Place.isPushing ≤ others.countP Place.holdsHooks :=
    List.countP_mono_left fun place _ pushes => by
      cases place with
      | pushing hook => rfl
      | _ => cases pushes
  cases advances with
  | swaps clear => simp [Place.isOnWay] at past
  | locksWake free => simp [Place.isOnWay] at past
  | notifies => simp [Place.isOnWay] at past
  | locksHooks free => simp [Place.isOnWay] at past
  | takes =>
      -- who takes the hooks has the lock, so that nobody pushes
      refine ⟨rfl, ?_⟩
      have one := Bool.toNat_le inner.hooksLocked
      simp only [Place.holdsHooks, Bool.toNat_true] at held
      simp only [List.countP_cons, List.countP_nil, Place.isPushing]
      simp only [Bool.false_eq_true, if_false]
      omega
  | checksClear code' clear =>
      rw [clear] at after
      cases after
  | rechecksClear hook clear =>
      rw [clear] at after
      cases after
  | pushes hook =>
      have none := (before after (by simpa [Place.isOnWay] using past)).2
      simp [Place.isPushing] at none
  | opens call calls =>
      have none := before after (by cases call <;> simpa [Place.isOnWay, start] using past)
      cases call <;> simpa [Place.isPushing, start] using none
  | _ =>
      have none := before after (by simpa [Place.isOnWay] using past)
      simpa [Place.isPushing] using none

/-- No hook is lost, and none is there twice. -/
theorem owned : ∃ fresh, List.range inner'.next = List.range inner.next ++ fresh ∧
    (inner'.ran ++ inner'.hooks.map Hook.id ++ places.flatMap Place.pending).Perm
      (inner.ran ++ inner.hooks.map Hook.id ++ top.pending ++ fresh) := by
  cases advances with
  | checksSet code' raised =>
      exact ⟨[inner.next], List.range_succ, List.Perm.of_eq (by simp [Place.pending, Place.left])⟩
  | checksClear code' clear =>
      exact ⟨[inner.next], List.range_succ, List.Perm.of_eq (by simp [Place.pending, Place.left])⟩
  | takes =>
      refine ⟨[], (List.append_nil _).symm, List.Perm.of_eq ?_⟩
      simp [Place.pending, Place.left]
  | runsNext hook left =>
      refine ⟨[], (List.append_nil _).symm, List.perm_iff_count.mpr fun id => ?_⟩
      simp only [Place.pending, Place.left, List.count_append, List.flatMap_cons, List.flatMap_nil,
        List.map_cons, List.count_cons, List.count_nil]
      omega
  | calls hook =>
      refine ⟨[], (List.append_nil _).symm, List.perm_iff_count.mpr fun id => ?_⟩
      simp only [Place.pending, Place.left, List.count_append, List.flatMap_cons, List.flatMap_nil,
        List.count_cons, List.count_nil]
      omega
  | pushes hook =>
      exact ⟨[], (List.append_nil _).symm, List.Perm.of_eq (by simp [Place.pending])⟩
  | opens call calls =>
      refine ⟨[], (List.append_nil _).symm, List.Perm.of_eq ?_⟩
      cases call <;> simp [Place.pending, Place.left, start]
  | _ => exact ⟨[], (List.append_nil _).symm, List.Perm.of_eq (by simp [Place.pending, Place.left])⟩

end Advances

/-- Nothing is left to run but what the call that set the flag has taken. -/
theorem lefts_eq_nil {others : List (Place κ)} (none : others.countP Place.isCancelling = 0) :
    others.flatMap Place.left = [] := by
  refine List.flatMap_eq_nil_iff.mpr fun place member => ?_
  have quiet := List.countP_eq_zero.mp none place member
  cases place with
  | running left => exact absurd rfl quiet
  | _ => rfl

theorem countP_middle (test : Place κ → Bool) : (front ++ top :: back).countP test =
    (test top).toNat + (front ++ back).countP test := by
  rw [List.perm_middle.countP_eq, List.countP_cons, Nat.add_comm]
  cases test top <;> rfl

namespace Sound

variable (sound : Sound inner (front ++ top :: back))
include sound

theorem single_split : top.isCancelling.toNat + (front ++ back).countP Place.isCancelling ≤
    inner.cancelled.toNat := by
  rw [← countP_middle]
  exact sound.single

theorem not_mem_of_pending {id : Nat} (mine : id ∈ top.pending) :
    id ∉ inner.ran ∧ id ∉ inner.hooks.map Hook.id ∧ id ∉ front.flatMap Place.pending ∧
      id ∉ back.flatMap Place.pending := by
  have nodup := sound.owned.nodup_iff.mpr List.nodup_range
  have once := List.nodup_iff_count_le_one.mp nodup id
  have here := List.count_pos_iff.mpr mine
  simp only [List.flatMap_append, List.flatMap_cons, List.count_append] at once
  refine ⟨?_, ?_, ?_, ?_⟩ <;> refine fun member => ?_
  all_goals
    have there := List.count_pos_iff.mpr member
    omega

theorem not_mem_pushed {id : Nat} (mine : id ∈ top.pending) (apart : id ∉ top.left) :
    id ∉ inner.pushed := by
  rcases sound.not_mem_of_pending mine with ⟨ran, hooks, inFront, inBack⟩
  have within : ∀ (others : List (Place κ)), id ∉ others.flatMap Place.pending →
      id ∉ others.flatMap Place.left := by
    intro others outside member
    rcases List.mem_flatMap.mp member with ⟨place, here, left⟩
    refine outside (List.mem_flatMap.mpr ⟨place, here, ?_⟩)
    cases place with
    | running hooks => exact left
    | _ => cases left
  rw [sound.ordered]
  simp only [List.mem_append, List.mem_filter, List.flatMap_append, List.flatMap_cons, not_or]
  exact ⟨⟨fun both => ran both.1, within front inFront, apart, within back inBack⟩, hooks⟩

/-- The order in which the registered hooks run is kept. -/
theorem ordered_advances (advances : Advances code inner top inner' places) :
    inner'.pushed = inner'.ran.filter (· ∈ inner'.pushed) ++
      (front ++ places ++ back).flatMap Place.left ++ inner'.hooks.map Hook.id := by
  have ordered := sound.ordered
  have single := sound.single_split
  have one := Bool.toNat_le inner.cancelled
  rw [List.countP_append] at single
  simp only [List.flatMap_append, List.flatMap_cons] at ordered ⊢
  cases advances with
  | takes =>
      simp only [Place.isCancelling, Place.isOnWay, Bool.toNat_true] at single
      rw [lefts_eq_nil (by omega : front.countP Place.isCancelling = 0),
        lefts_eq_nil (by omega : back.countP Place.isCancelling = 0)] at ordered ⊢
      simpa [Place.left] using ordered
  | runsNext hook left =>
      simp only [Place.isCancelling, Bool.toNat_true] at single
      rw [lefts_eq_nil (by omega : front.countP Place.isCancelling = 0),
        lefts_eq_nil (by omega : back.countP Place.isCancelling = 0)] at ordered ⊢
      have registered : hook.id ∈ inner.pushed := by
        rw [ordered]
        simp [Place.left]
      simp only [List.filter_append, List.filter_cons, List.filter_nil, registered, decide_true,
        if_true]
      simpa [Place.left] using ordered
  | calls hook =>
      have outside := sound.not_mem_pushed (List.mem_singleton_self hook.id) List.not_mem_nil
      simp only [List.filter_append, List.filter_cons, List.filter_nil, outside, decide_false,
        Bool.false_eq_true, if_false, List.append_nil]
      simpa [Place.left] using ordered
  | pushes hook =>
      have outside := (sound.not_mem_of_pending (List.mem_singleton_self hook.id)).1
      have same : inner.ran.filter (· ∈ inner.pushed ++ [hook.id]) =
          inner.ran.filter (· ∈ inner.pushed) := by
        refine List.filter_congr fun id member => ?_
        have apart : id ≠ hook.id := fun eq => outside (eq ▸ member)
        simp [apart]
      dsimp only
      rw [same]
      conv_lhs => rw [ordered]
      simp [Place.left]
  | opens call calls =>
      cases call <;> simpa [Place.left, start] using ordered
  | _ => simpa [Place.left] using ordered

/-- A step of a call keeps everything in order. -/
theorem advances (advances : Advances code inner top inner' places) :
    Sound inner' (front ++ places ++ back) := by
  have wakeHeld := sound.wakeHeld
  have hooksHeld := sound.hooksHeld
  rw [countP_middle] at wakeHeld hooksHeld
  have others : ∀ test : Place κ → Bool, (front ++ places ++ back).countP test =
      places.countP test + (front ++ back).countP test := by
    intro test
    simp only [List.countP_append]
    omega
  have locked : ∀ {flag held : Bool} {count : Nat}, held.toNat + count = flag.toNat →
      held = true → flag = true := by
    intro flag held count balance holds
    cases flag with
    | true => rfl
    | false =>
        rw [holds, Bool.toNat_true, Bool.toNat_false] at balance
        omega
  constructor
  case wakeHeld =>
    have step := advances.wake (locked wakeHeld)
    rw [others]
    omega
  case hooksHeld =>
    have step := advances.hooks (locked hooksHeld)
    rw [others]
    omega
  case single =>
    have step := advances.cancelling
    have before := sound.single_split
    rw [others]
    omega
  case settled =>
    intro after past
    rw [others] at past ⊢
    refine advances.settled sound.single_split hooksHeld ?_ after past
    rw [← countP_middle, ← countP_middle]
    exact sound.settled
  case owned =>
    rcases advances.owned with ⟨fresh, range, step⟩
    rw [range]
    have before := sound.owned
    refine List.perm_iff_count.mpr fun id => ?_
    have step := List.perm_iff_count.mp step id
    have before := List.perm_iff_count.mp before id
    simp only [List.flatMap_append, List.flatMap_cons, List.count_append] at step before ⊢
    omega
  case ordered => exact sound.ordered_advances advances

end Sound

/-- What holds of a token and its threads: a lock is only held in the innermost
call of a thread. -/
structure Proper (token : CancellationToken κ) : Prop where
  sound : Sound token.shared token.threads.flatten
  below : ∀ stack ∈ token.threads, ∀ place ∈ stack.tail, place.isOutside = true

theorem proper_new : Proper (CancellationToken.new : CancellationToken κ) :=
  ⟨sound_new, nofun⟩

theorem Sound.call {others : List (Place κ)} (sound : Sound inner others) (call : Call κ) :
    Sound inner (others ++ [start call]) := by
  rcases start_weightless call with ⟨wake, hooks, cancelling, onWay, pushing, pending, left⟩
  have counts : ∀ test : Place κ → Bool, test (start call) = false →
      (others ++ [start call]).countP test = others.countP test := by
    intro test none
    rw [List.countP_append, List.countP_singleton, none]
    rfl
  constructor
  case wakeHeld => rw [counts _ wake, sound.wakeHeld]
  case hooksHeld => rw [counts _ hooks, sound.hooksHeld]
  case single =>
    rw [counts _ cancelling]
    exact sound.single
  case settled =>
    rw [counts _ onWay, counts _ pushing]
    exact sound.settled
  case owned =>
    rw [List.flatMap_append, List.flatMap_singleton, pending, List.append_nil]
    exact sound.owned
  case ordered =>
    rw [List.flatMap_append, List.flatMap_singleton, left, List.append_nil]
    exact sound.ordered

/-- What a step leaves behind is outside, but for the innermost call. -/
theorem Advances.tail (advances : Advances code inner top inner' places) :
    ∀ place ∈ places.tail, place.isOutside = true := by
  cases advances with
  | runsNext hook left =>
      intro place member
      rw [List.mem_singleton.mp member]
      rfl
  | opens call calls =>
      intro place member
      rw [List.mem_singleton.mp member]
      rfl
  | _ => exact nofun

variable {token : CancellationToken κ}

/-- A step begins a call, is a step of the innermost call of a thread, or leaves
everything as it is. -/
theorem CancellationToken.step_cases (code : κ → List (Call κ)) (token : CancellationToken κ)
    (action : Action (Call κ)) :
    (∃ call, action = .call call ∧
      token.step code action = ⟨token.shared, token.threads ++ [[start call]]⟩) ∨
      (∀ call, action ≠ .call call) ∧ (token.step code action = token ∨
        ∃ before top rest after inner places, token.threads = before ++ (top :: rest) :: after ∧
          Advances code token.shared top inner places ∧
          token.step code action = ⟨inner, before ++ (places ++ rest) :: after⟩) := by
  cases action with
  | call call => exact .inl ⟨call, rfl, rfl⟩
  | wake index =>
      refine .inr ⟨nofun, .inl ?_⟩
      change (⟨token.shared, token.threads.modify index id⟩ : CancellationToken κ) = token
      rw [List.modify_id]
  | go index =>
      refine .inr ⟨nofun, ?_⟩
      cases located : token.threads[index]? with
      | none => exact .inl (step_go_of_nobody located)
      | some stack =>
          cases advanced : advance code token.shared stack with
          | none => exact .inl (step_go_of_blocked located advanced)
          | some effect =>
              cases stack with
              | nil => cases advanced
              | cons top rest =>
                  rcases Option.map_eq_some_iff.mp advanced with ⟨⟨inner, places⟩, moved, same⟩
                  have inside := (List.getElem?_eq_some_iff.mp located).1
                  have threads_eq := List.take_append_drop index token.threads
                  rw [List.drop_eq_getElem_cons inside,
                    (List.getElem?_eq_some_iff.mp located).2] at threads_eq
                  refine .inr ⟨_, _, _, _, _, _, threads_eq.symm, advances_of_next moved,
                    (step_go located advanced).trans ?_⟩
                  rw [← same]
                  change (⟨inner, token.threads.set index (places ++ rest)⟩ : CancellationToken κ) = _
                  rw [List.set_eq_take_append_cons_drop, if_pos inside]

theorem Proper.step (proper : Proper token) (action : Action (Call κ)) :
    Proper (token.step code action) := by
  rcases CancellationToken.step_cases code token action with ⟨call, -, after⟩ | ⟨-, after | after⟩
  · rw [after]
    constructor
    · rw [List.flatten_append, List.flatten_singleton]
      exact proper.sound.call call
    · intro stack member
      rcases List.mem_append.mp member with before | new
      · exact proper.below stack before
      · rw [List.mem_singleton.mp new]
        exact nofun
  · rw [after]
    exact proper
  · rcases after with ⟨before, top, rest, behind, inner, places, threads_eq, advances, after⟩
    have sound := proper.sound
    have below := proper.below
    rw [threads_eq] at sound below
    rw [List.flatten_append, List.flatten_cons, List.cons_append] at sound
    rw [after]
    constructor
    · have sound' := sound.advances advances
      simp only [List.flatten_append, List.flatten_cons]
      simpa only [List.append_assoc] using sound'
    · intro other among place later
      rcases List.mem_append.mp among with earlier | here
      · exact below other (List.mem_append_left _ earlier) place later
      · rcases List.mem_cons.mp here with rfl | behind
        · have old := below (top :: rest) (List.mem_append_right _ List.mem_cons_self)
          cases places with
          | nil => exact old place (List.mem_of_mem_tail later)
          | cons first others =>
              rcases List.mem_append.mp later with new | kept
              · exact advances.tail place new
              · exact old place kept
        · exact below other (List.mem_append_right _ (List.mem_cons_of_mem _ behind)) place later

theorem proper_run (actions : List (Action (Call κ))) :
    Proper (run (CancellationToken.step code) CancellationToken.new actions) :=
  run_invariant Proper (fun _ action proper => proper.step action) proper_new actions

/-- A thread waits for a lock. -/
def Blocked (code : κ → List (Call κ)) (inner : Inner κ) (stack : Stack κ) : Prop :=
  stack ≠ [] ∧ advance code inner stack = none

theorem of_next_none (blocked : next code inner top = none) :
    (top.holdsWake = false ∧ top.holdsHooks = false) ∧
      (inner.wakeLocked = true ∨ inner.hooksLocked = true) := by
  cases top with
  | wakeLocking =>
      refine ⟨⟨rfl, rfl⟩, .inl ?_⟩
      by_contra free
      rw [next, if_neg free] at blocked
      cases blocked
  | hooksLocking =>
      refine ⟨⟨rfl, rfl⟩, .inr ?_⟩
      by_contra free
      rw [next, if_neg free] at blocked
      cases blocked
  | guarding hook =>
      refine ⟨⟨rfl, rfl⟩, .inr ?_⟩
      by_contra free
      rw [next, if_neg free] at blocked
      cases blocked
  | swapping =>
      rw [next] at blocked
      split at blocked <;> cases blocked
  | checking code' =>
      rw [next] at blocked
      dsimp only at blocked
      split at blocked <;> cases blocked
  | rechecking hook =>
      rw [next] at blocked
      split at blocked <;> cases blocked
  | running left => cases left <;> cases blocked
  | body calls => cases calls <;> cases blocked
  | _ => cases blocked

/-- A call that runs a hook, or is one, holds no lock. -/
theorem Place.free_of_isOutside {place : Place κ} (outside : place.isOutside = true) :
    place.holdsWake = false ∧ place.holdsHooks = false := by
  cases place with
  | running left => exact ⟨rfl, rfl⟩
  | body calls => exact ⟨rfl, rfl⟩
  | _ => cases outside

theorem Proper.free_of_blocked (proper : Proper token) {stack : Stack κ}
    (member : stack ∈ token.threads) (blocked : Blocked code token.shared stack) :
    ∀ place ∈ stack, place.holdsWake = false ∧ place.holdsHooks = false := by
  cases stack with
  | nil => exact absurd rfl blocked.1
  | cons top rest =>
      have waits := Option.map_eq_none_iff.mp blocked.2
      intro place among
      rcases List.mem_cons.mp among with rfl | below
      · exact (of_next_none waits).1
      · exact Place.free_of_isOutside (proper.below _ member place below)

theorem Proper.goes_on (proper : Proper token) (busy : ¬token.Idle) :
    ∃ stack ∈ token.threads, (advance code token.shared stack).isSome := by
  have holder : ∀ test : Place κ → Bool, 0 < token.threads.flatten.countP test →
      (∀ place : Place κ, test place = true → place.holdsWake = true ∨ place.holdsHooks = true) →
      ∃ stack ∈ token.threads, (advance code token.shared stack).isSome := by
    intro test some holds
    rcases List.countP_pos_iff.mp some with ⟨place, among, held⟩
    rcases List.mem_flatten.mp among with ⟨stack, member, within⟩
    refine ⟨stack, member, ?_⟩
    by_contra stopped
    have blocked : Blocked code token.shared stack :=
      ⟨List.ne_nil_of_mem within, Option.not_isSome_iff_eq_none.mp stopped⟩
    have free := proper.free_of_blocked member blocked place within
    rcases holds place held with wake | hooks
    · rw [free.1] at wake
      cases wake
    · rw [free.2] at hooks
      cases hooks
  unfold CancellationToken.Idle at busy
  push Not at busy
  rcases busy with ⟨stack, member, some⟩
  cases stack with
  | nil => exact absurd rfl some
  | cons top rest =>
      cases moved : next code token.shared top with
      | some result => exact ⟨_, member, by rw [advance, moved]; rfl⟩
      | none =>
          rcases (of_next_none moved).2 with wake | hooks
          · refine holder Place.holdsWake ?_ fun place held => .inl held
            rw [proper.sound.wakeHeld, wake]
            exact Nat.one_pos
          · refine holder Place.holdsHooks ?_ fun place held => .inr held
            rw [proper.sound.hooksHeld, hooks]
            exact Nat.one_pos

/-- The calls of `on_cancel` that a call is. -/
def Call.asks : Call κ → Nat
  | onCancel _ => 1
  | _ => 0

/-- The calls of `on_cancel` that a place is about to make. -/
def Place.asks : Place κ → Nat
  | checking _ => 1
  | body calls => (calls.map Call.asks).sum
  | _ => 0

/-- The calls of `on_cancel` that a schedule begins. -/
def asked (actions : List (Action (Call κ))) : Nat :=
  (actions.map fun action => match action with
    | .call call => call.asks
    | _ => 0).sum

/-- The places of a token that nobody cancels. -/
def Place.isEarly : Place κ → Bool
  | checking _ | guarding _ | rechecking _ | pushing _ | reading => true
  | _ => false

/-- A call of `on_cancel` is counted when it reads the flag; a hook that runs may
bring more of them. -/
theorem Advances.asks (advances : Advances code inner top inner' places) :
    ∃ more, inner'.next + (places.map Place.asks).sum = inner.next + top.asks + more ∧
      ((∀ code', ((code code').map Call.asks).sum = 0) → more = 0) := by
  cases advances with
  | runsNext hook left => exact ⟨_, by simp [Place.asks], fun silent => silent hook.code⟩
  | calls hook => exact ⟨_, by simp [Place.asks], fun silent => silent hook.code⟩
  | opens call calls =>
      refine ⟨0, ?_, fun _ => rfl⟩
      cases call <;> simp [Place.asks, Call.asks, start]
  | _ => exact ⟨0, by simp [Place.asks], fun _ => rfl⟩

theorem Advances.early (advances : Advances code inner top inner' places)
    (clear : inner.cancelled = false) (early : top.isEarly = true) :
    inner'.cancelled = false ∧ ∀ place ∈ places, place.isEarly = true := by
  cases advances with
  | checksSet _ raised => exact absurd (clear.symm.trans raised) Bool.false_ne_true
  | rechecksSet _ raised => exact absurd (clear.symm.trans raised) Bool.false_ne_true
  | checksClear => exact ⟨clear, by simp [Place.isEarly]⟩
  | guards => exact ⟨clear, by simp [Place.isEarly]⟩
  | rechecksClear => exact ⟨clear, by simp [Place.isEarly]⟩
  | pushes => exact ⟨clear, nofun⟩
  | reads => exact ⟨clear, nofun⟩
  | _ => cases early

theorem Advances.raises (advances : Advances code inner top inner' places)
    (raised : inner.cancelled = true ∨ top = .swapping) : inner'.cancelled = true := by
  cases advances with
  | swaps => rfl
  | swapsAgain already => exact already
  | _ => exact raised.resolve_right nofun

/-- What a token says about the calls of its schedule. -/
structure Tells (code : κ → List (Call κ)) (actions : List (Action (Call κ)))
    (token : CancellationToken κ) : Prop where
  counted : ∃ more,
    token.shared.next + (token.threads.flatten.map Place.asks).sum = asked actions + more ∧
      ((∀ code', ((code code').map Call.asks).sum = 0) → more = 0)
  raised : .call .cancel ∈ actions →
    token.shared.cancelled = true ∨ .swapping ∈ token.threads.flatten
  clear : .call .cancel ∉ actions →
    token.shared.cancelled = false ∧ ∀ place ∈ token.threads.flatten, place.isEarly = true

theorem tells_new : Tells code [] (CancellationToken.new : CancellationToken κ) :=
  ⟨⟨0, rfl, fun _ => rfl⟩, nofun, fun _ => ⟨rfl, fun _ member => absurd member List.not_mem_nil⟩⟩

theorem Tells.step {actions : List (Action (Call κ))} (tells : Tells code actions token)
    (action : Action (Call κ)) : Tells code (actions ++ [action]) (token.step code action) := by
  rcases tells.counted with ⟨more, counted, silent⟩
  rcases CancellationToken.step_cases code token action with ⟨call, rfl, after⟩ | ⟨other, after⟩
  · rw [after]
    refine ⟨⟨more, ?_, silent⟩, ?_, ?_⟩
    · cases call <;> simp [asked, start, Call.asks, Place.asks] at counted ⊢ <;> omega
    · cases call with
      | cancel => simp [start]
      | _ => simpa [start] using tells.raised
    · cases call with
      | cancel => simp
      | _ => simpa [start, Place.isEarly, or_imp, forall_and] using tells.clear
  · have same : asked (actions ++ [action]) = asked actions ∧
        (.call .cancel ∈ actions ++ [action] ↔ .call .cancel ∈ actions) := by
      cases action with
      | call call => exact absurd rfl (other call)
      | _ => simp [asked]
    rcases after with after | ⟨before, top, rest, behind, inner, places, threads_eq, advances, after⟩
    · rw [after]
      exact ⟨⟨more, by rw [same.1, counted], silent⟩, fun called => tells.raised (same.2.mp called),
        fun none => tells.clear (same.2.not.mp none)⟩
    · rcases advances.asks with ⟨more', counted', silent'⟩
      rw [after]
      refine ⟨⟨more + more', ?_, fun quiet => by rw [silent quiet, silent' quiet]⟩, ?_, ?_⟩
      · rw [threads_eq] at counted
        simp only [List.flatten_append, List.flatten_cons, List.cons_append, List.map_append,
          List.map_cons, List.sum_append, List.sum_cons] at counted ⊢
        omega
      · intro called
        rcases tells.raised (same.2.mp called) with raised | swaps
        · exact .inl (advances.raises (.inl raised))
        · rw [threads_eq] at swaps
          simp only [List.flatten_append, List.flatten_cons, List.mem_append, List.mem_cons]
            at swaps ⊢
          rcases swaps with earlier | (here | below) | later
          · exact .inr (.inl earlier)
          · exact .inl (advances.raises (.inr here.symm))
          · exact .inr (.inr (.inl (.inr below)))
          · exact .inr (.inr (.inr later))
      · intro none
        have early := tells.clear (same.2.not.mp none)
        rw [threads_eq] at early
        simp only [List.flatten_append, List.flatten_cons, List.mem_append, List.mem_cons, or_imp,
          forall_and, forall_eq] at early ⊢
        rcases early with ⟨clear, earlier, ⟨here, below⟩, later⟩
        rcases advances.early clear here with ⟨clear', places⟩
        exact ⟨clear', earlier, ⟨places, below⟩, later⟩

theorem Tells.run {actions : List (Action (Call κ))} (tells : Tells code actions token)
    (more : List (Action (Call κ))) :
    Tells code (actions ++ more) (Transition.run (CancellationToken.step code) token more) := by
  induction more generalizing token actions with
  | nil => exact (List.append_nil actions).symm ▸ tells
  | cons action more ih => exact List.append_cons actions action more ▸ ih (tells.step action)

/-- When all calls have returned, the flag is set exactly if `cancel` was called, and
every call of `on_cancel` has its number; there are others if a hook calls back. -/
theorem calls_of_idle (code : κ → List (Call κ)) (actions : List (Action (Call κ)))
    (idle : (run (CancellationToken.step code) CancellationToken.new actions).Idle) :
    let token := run (CancellationToken.step code) CancellationToken.new actions
    (token.shared.cancelled = true ↔ .call .cancel ∈ actions) ∧
      asked actions ≤ token.shared.next ∧
      ((∀ code', ((code code').map Call.asks).sum = 0) → token.shared.next = asked actions) := by
  intro token
  have tells : Tells code actions token := tells_new.run actions
  have nothing : token.threads.flatten = [] := List.flatten_eq_nil_iff.mpr idle
  rcases tells with ⟨⟨more, counted, silent⟩, raised, clear⟩
  rw [nothing] at counted raised
  refine ⟨⟨fun set => ?_, fun called => (raised called).resolve_right List.not_mem_nil⟩,
    by simp at counted; omega, fun quiet => ?_⟩
  · by_contra none
    exact Bool.false_ne_true ((clear none).1.symm.trans set)
  · rw [silent quiet] at counted
    exact counted

/-- For every interleaving no hook runs twice, the registered hooks run in the order
of their registration, and when the token is cancelled and all calls have returned
the list is empty and every hook has run.  No thread waits for a lock that it
holds, and some thread goes on while a call has not returned. -/
theorem hooks_run_once (code : κ → List (Call κ)) (actions : List (Action (Call κ))) :
    let token := run (CancellationToken.step code) CancellationToken.new actions
    token.shared.ran.Nodup ∧
      token.shared.ran.filter (· ∈ token.shared.pushed) <+: token.shared.pushed ∧
      (token.shared.cancelled = true → token.Idle → token.shared.hooks = [] ∧
        token.shared.ran.Perm (List.range token.shared.next) ∧
        token.shared.ran.filter (· ∈ token.shared.pushed) = token.shared.pushed) ∧
      (∀ stack ∈ token.threads, Blocked code token.shared stack →
        ∀ place ∈ stack, place.holdsWake = false ∧ place.holdsHooks = false) ∧
      (¬token.Idle → ∃ stack ∈ token.threads, (advance code token.shared stack).isSome) := by
  intro token
  have proper : Proper token := proper_run actions
  have sound := proper.sound
  refine ⟨?_, ?_, ?_, fun stack member blocked => proper.free_of_blocked member blocked,
    proper.goes_on⟩
  · have nodup := sound.owned.nodup_iff.mpr List.nodup_range
    rw [List.append_assoc] at nodup
    exact nodup.of_append_left
  · have ordered := sound.ordered
    rw [List.append_assoc] at ordered
    exact ⟨_, ordered.symm⟩
  · intro cancelled idle
    have nothing : token.threads.flatten = [] := List.flatten_eq_nil_iff.mpr idle
    have owned := sound.owned
    have ordered := sound.ordered
    have settled := sound.settled cancelled
    rw [nothing] at owned ordered settled
    have empty := (settled rfl).1
    rw [empty] at owned ordered
    simp only [List.map_nil, List.flatMap_nil, List.append_nil] at owned ordered
    exact ⟨empty, owned, ordered.symm⟩

/-- A hook that calls `on_cancel` with one that makes no calls. -/
def callsBack : Bool → List (Call Bool)
  | true => [.onCancel false]
  | false => []

/-- The hook 0 is registered, taken and run and calls back with the hook 2; the hook 1
comes too late to be registered. -/
def callsBackSchedule : List (Action (Call Bool)) :=
  [.call (.onCancel true), .call .cancel, .call (.onCancel false)] ++
    [0, 0, 0, 0, 2, 1, 1, 1, 2, 2, 1, 1, 1, 1, 1, 1, 2, 1, 1, 1, 1, 2].map .go

example :
    let token := run (CancellationToken.step callsBack) .new callsBackSchedule
    (token.shared.cancelled, token.shared.next, token.shared.pushed, token.shared.ran) =
        (true, 3, [0], [0, 2, 1]) ∧
      token.threads = [[], [], []] :=
  ⟨rfl, rfl⟩

end Corduit.Common.Cancel.Hooks
