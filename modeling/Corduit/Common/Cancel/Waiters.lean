import Corduit.Common.Cancel.Core

/-!
# Waiting for a cancellation

Once a call of `cancel` has returned nobody should be asleep at the token.  The
check that `wait_cancelled` makes with the guard serves this: behind a
notification it does not park.  `wait` makes no such check, a second call of
`cancel` returns before the first one has notified, and `wait_cancelled` returns
whenever it wakes.
-/

namespace Corduit.Common.Cancel

open Collection Transition Transition.Threads

/-- The branches of a step. -/
inductive Advances (inner : Inner) : Place → Effect Inner Place → Prop where
  | again (cancelled : inner.cancelled = true) :
      Advances inner .swapping ⟨inner, .returned .cancel true, false⟩
  | sets (clear : inner.cancelled = false) :
      Advances inner .swapping ⟨{ inner with cancelled := true }, .locking, false⟩
  | locks (free : inner.locked = false) :
      Advances inner .locking ⟨{ inner with locked := true }, .notifying, false⟩
  | notifies : Advances inner .notifying ⟨{ inner with locked := false }, .takingHooks, true⟩
  | finishes : Advances inner .takingHooks ⟨inner, .returned .cancel inner.cancelled, false⟩
  | finds (call : Wait) (cancelled : inner.cancelled = true) :
      Advances inner (.checking call) ⟨inner, .returned call.cancelled true, false⟩
  | misses (call : Wait) (clear : inner.cancelled = false) :
      Advances inner (.checking call) ⟨inner, .entering call, false⟩
  | enters (free : inner.locked = false) :
      Advances inner (.entering .wait) ⟨{ inner with locked := true }, .parking .wait, false⟩
  | rechecks (free : inner.locked = false) :
      Advances inner (.entering .waitCancelled) ⟨{ inner with locked := true }, .rechecking, false⟩
  | leaves (cancelled : inner.cancelled = true) :
      Advances inner .rechecking ⟨{ inner with locked := false }, .returned .waitCancelled true, false⟩
  | stays (clear : inner.cancelled = false) :
      Advances inner .rechecking ⟨inner, .parking .waitCancelled, false⟩
  | parks (call : Wait) :
      Advances inner (.parking call) ⟨{ inner with locked := false }, .parked call, false⟩
  | wakes (free : inner.locked = false) :
      Advances inner (.woken .wait) ⟨inner, .rereading, false⟩
  | ends (free : inner.locked = false) :
      Advances inner (.woken .waitCancelled)
        ⟨inner, .returned .waitCancelled inner.cancelled, false⟩
  | rereads : Advances inner .rereading
      ⟨inner, .returned (.wait inner.cancelled) inner.cancelled, false⟩
  | reads : Advances inner .reading
      ⟨inner, .returned (.isCancelled inner.cancelled) inner.cancelled, false⟩

variable {inner : Inner} {place : Place} {effect : Effect Inner Place}

theorem advances_of_acquires (acquired : acquires inner place = some effect) :
    inner.locked = false ∧ effect = ⟨{ inner with locked := true }, place, false⟩ := by
  cases held : inner.locked with
  | true => simp [acquires, held] at acquired
  | false =>
      rw [acquires, held] at acquired
      exact ⟨rfl, (Option.some.inj acquired).symm⟩

theorem advances_of_passes (passed : passes inner place = some effect) :
    inner.locked = false ∧ effect = ⟨inner, place, false⟩ := by
  cases held : inner.locked with
  | true => simp [passes, held] at passed
  | false =>
      rw [passes, held] at passed
      exact ⟨rfl, (Option.some.inj passed).symm⟩

theorem advances_of_advance (advanced : advance inner place = some effect) :
    Advances inner place effect := by
  cases place with
  | swapping =>
      by_cases flag : inner.cancelled = true
      · rw [advance, if_pos flag] at advanced
        cases advanced
        exact .again flag
      · rw [advance, if_neg flag] at advanced
        cases advanced
        exact .sets (Bool.eq_false_iff.mpr flag)
  | locking =>
      rcases advances_of_acquires advanced with ⟨free, rfl⟩
      exact .locks free
  | notifying =>
      cases advanced
      exact .notifies
  | takingHooks =>
      cases advanced
      exact .finishes
  | checking call =>
      by_cases flag : inner.cancelled = true
      · rw [advance, if_pos flag] at advanced
        cases advanced
        exact .finds call flag
      · rw [advance, if_neg flag] at advanced
        cases advanced
        exact .misses call (Bool.eq_false_iff.mpr flag)
  | entering call =>
      cases call with
      | wait =>
          rcases advances_of_acquires advanced with ⟨free, rfl⟩
          exact .enters free
      | waitCancelled =>
          rcases advances_of_acquires advanced with ⟨free, rfl⟩
          exact .rechecks free
  | rechecking =>
      by_cases flag : inner.cancelled = true
      · rw [advance, if_pos flag] at advanced
        cases advanced
        exact .leaves flag
      · rw [advance, if_neg flag] at advanced
        cases advanced
        exact .stays (Bool.eq_false_iff.mpr flag)
  | parking call =>
      cases advanced
      exact .parks call
  | parked call => cases advanced
  | woken call =>
      cases call with
      | wait =>
          rcases advances_of_passes advanced with ⟨free, rfl⟩
          exact .wakes free
      | waitCancelled =>
          rcases advances_of_passes advanced with ⟨free, rfl⟩
          exact .ends free
  | rereading =>
      cases advanced
      exact .rereads
  | reading =>
      cases advanced
      exact .reads
  | returned outcome cancelled => cases advanced

/-- Asleep, with no notification on its way. -/
def Place.isParked : Place → Bool
  | .parked _ => true
  | _ => false

/-- A call of `cancel` that has returned. -/
def Place.hasCancelled : Place → Bool
  | .returned .cancel _ => true
  | _ => false

/-- The thread has the guard. -/
def Place.holds : Place → Bool
  | .notifying | .rechecking | .parking _ => true
  | _ => false

/-- The call of `cancel` that set the flag, before it returns. -/
def Place.signals : Place → Bool
  | .locking | .notifying | .takingHooks => true
  | _ => false

/-- A `wait_cancelled` that has read the flag for the last time before it sleeps. -/
def Place.isPast : Place → Bool
  | .parking .waitCancelled | .parked .waitCancelled => true
  | _ => false

/-- What a wait has returned agrees with the flag at its return. -/
def Place.Right : Place → Prop
  | .returned (.wait result) cancelled => result = cancelled
  | .returned .waitCancelled cancelled => cancelled = true
  | _ => True

theorem holds_wake (place : Place) : (wake place).holds = place.holds := by
  cases place <;> rfl

theorem signals_wake (place : Place) : (wake place).signals = place.signals := by
  cases place <;> rfl

theorem hasCancelled_wake (place : Place) : (wake place).hasCancelled = place.hasCancelled := by
  cases place <;> rfl

theorem isParked_wake (place : Place) : (wake place).isParked = false := by
  cases place <;> rfl

theorem Place.Right.wake (right : place.Right) : (Cancel.wake place).Right := by
  cases place <;> exact right

theorem isPast_of_wake (past : (wake place).isPast = true) : place.isPast = true := by
  cases place with
  | parked call => cases past
  | _ => exact past

theorem eq_takingHooks_of_wake (place : Place) : wake place = .takingHooks ↔ place = .takingHooks := by
  cases place <;> simp [wake]

namespace Advances

variable (advances : Advances inner place effect)

include advances

theorem balance (guarded : place.holds = true → inner.locked = true) :
    inner.locked.toNat + effect.place.holds.toNat =
      effect.shared.locked.toNat + place.holds.toNat := by
  cases advances <;> simp_all [Place.holds]

theorem cancelled (before : inner.cancelled = true) : effect.shared.cancelled = true := by
  cases advances <;> first | exact before | rfl

theorem signals (before : place.signals = true → inner.cancelled = true)
    (signals : effect.place.signals = true) : effect.shared.cancelled = true := by
  cases advances with
  | sets => rfl
  | locks => exact before rfl
  | notifies => exact before rfl
  | _ => cases signals

theorem isPast (past : effect.place.isPast = true) :
    place.isPast = true ∨ inner.cancelled = false := by
  cases advances with
  | stays clear => exact Or.inr clear
  | parks call =>
      cases call with
      | wait => cases past
      | waitCancelled => exact Or.inl rfl
  | enters => cases past
  | _ => cases past

theorem still : wake place = place := by
  cases advances <;> rfl

theorem up : place.isParked = false ∧ place.hasCancelled = false := by
  cases advances <;> exact ⟨rfl, rfl⟩

theorem notifies_or : place = .notifying ∧ effect.notifies = true ∧ effect.place = .takingHooks ∨
    effect.notifies = false ∧ effect.place ≠ .takingHooks := by
  cases advances <;> simp

end Advances

namespace CancellationToken

variable {token : CancellationToken}

/-- One thread has the guard while the mutex is locked, the flag is set while a
call is about to signal it, and nobody parks past the notification without having
read the flag again. -/
structure Sound (token : CancellationToken) : Prop where
  single : token.threads.countP Place.holds = token.shared.locked.toNat
  signalled : ∀ place ∈ token.threads, place.signals = true → token.shared.cancelled = true
  rechecked : .takingHooks ∈ token.threads → ∀ place ∈ token.threads, place.isPast = false

theorem sound_new : Sound new :=
  ⟨rfl, nofun, nofun⟩

theorem Sound.guarded (sound : Sound token) (member : place ∈ token.threads)
    (holds : place.holds = true) : token.shared.locked = true := by
  have some : 0 < token.threads.countP Place.holds := List.countP_pos_iff.mpr ⟨place, member, holds⟩
  rw [sound.single] at some
  cases held : token.shared.locked with
  | false => rw [held] at some; exact absurd some (Nat.lt_irrefl 0)
  | true => rfl

theorem Sound.one (sound : Sound token) : token.threads.countP Place.holds ≤ 1 := by
  rw [sound.single]
  exact Bool.toNat_le _

/-- Behind the notification nobody is asleep or about to sleep without having read
the flag again: who is has the guard, as the notifying thread does. -/
theorem Sound.isPast_of_notifying (sound : Sound token) (notifying : .notifying ∈ token.threads)
    (member : place ∈ token.threads) : (wake place).isPast = false := by
  cases past : (wake place).isPast with
  | false => rfl
  | true =>
      cases place with
      | parking call =>
          have same := eq_of_countP_le_one sound.one notifying rfl member rfl
          cases same
      | parked call => cases past
      | _ => cases past

theorem mem_of_takingHooks (member : Place.takingHooks ∈ notifyAll wake notifies threads) :
    Place.takingHooks ∈ threads := by
  rcases mem_notifyAll member with before | ⟨before, member', same⟩
  · exact before
  · rwa [← (eq_takingHooks_of_wake before).mp same.symm]

variable {index : Nat}

theorem Sound.advance (sound : Sound token) (located : token.threads[index]? = some place)
    (advanced : Cancel.advance token.shared place = some effect) :
    Sound (token.step (.go index)) := by
  have advances := advances_of_advance advanced
  have member : place ∈ token.threads := List.mem_of_getElem? located
  have after : token.step (.go index) = ⟨effect.shared,
      (notifyAll wake effect.notifies token.threads).set index effect.place⟩ :=
    step_go located advanced
  constructor
  · have counted := @countP_go _ _ _ enter Cancel.advance wake token index place effect Place.holds
      holds_wake located advances.still advanced
    have balance := advances.balance (sound.guarded member)
    rw [sound.single, balance] at counted
    exact (Nat.add_right_cancel counted).trans (congrArg (·.shared.locked.toNat) after).symm
  · rw [after]
    intro other member' signals
    rcases List.mem_or_eq_of_mem_set member' with before | rfl
    · apply advances.cancelled
      rcases mem_notifyAll before with here | ⟨asleep, here, rfl⟩
      · exact sound.signalled other here signals
      · rw [signals_wake] at signals
        exact sound.signalled asleep here signals
    · exact advances.signals (sound.signalled place member) signals
  · rw [after]
    intro taking other member'
    rcases advances.notifies_or with ⟨rfl, notifies, taken⟩ | ⟨quiet, other'⟩
    · rw [notifies, taken] at member'
      rcases List.mem_or_eq_of_mem_set member' with before | rfl
      · rcases List.mem_map.mp before with ⟨asleep, here, rfl⟩
        exact sound.isPast_of_notifying member here
      · rfl
    · have taking' : .takingHooks ∈ token.threads := by
        rcases List.mem_or_eq_of_mem_set taking with before | same
        · exact mem_of_takingHooks before
        · exact absurd same.symm other'
      rw [quiet] at member'
      rcases List.mem_or_eq_of_mem_set member' with before | rfl
      · exact sound.rechecked taking' other before
      · cases past : effect.place.isPast with
        | false => rfl
        | true =>
            rcases advances.isPast past with before | clear
            · rw [sound.rechecked taking' place member] at before
              cases before
            · rw [sound.signalled _ taking' rfl] at clear
              cases clear

theorem Sound.call (sound : Sound token) (call : Call) : Sound (token.step (.call call)) := by
  have outside : ∀ test : Place → Bool, test (enter call) = false →
      (token.threads ++ [enter call]).countP test = token.threads.countP test := by
    intro test none
    rw [List.countP_append, List.countP_singleton, none]
    rfl
  constructor
  · have free : (enter call).holds = false := by cases call <;> rfl
    exact (outside _ free).trans sound.single
  · intro place member signals
    rcases List.mem_append.mp member with before | new
    · exact sound.signalled place before signals
    · rw [List.mem_singleton.mp new] at signals
      cases call <;> cases signals
  · intro taking place member
    have taking' : .takingHooks ∈ token.threads := by
      rcases List.mem_append.mp taking with before | new
      · exact before
      · cases call <;> cases List.mem_singleton.mp new
    rcases List.mem_append.mp member with before | new
    · exact sound.rechecked taking' place before
    · rw [List.mem_singleton.mp new]
      cases call <;> rfl

theorem mem_modify_wake (member : place ∈ token.threads.modify index wake) :
    place ∈ token.threads ∨ ∃ before ∈ token.threads, place = wake before := by
  have all : ∀ place ∈ token.threads.modify index wake,
      place ∈ token.threads ∨ ∃ before ∈ token.threads, place = wake before :=
    forall_mem_modify (fun place member => Or.inl member)
      (fun place located _ => Or.inr ⟨place, List.mem_of_getElem? located, rfl⟩)
  exact all place member

theorem Sound.wake (sound : Sound token) (index : Nat) : Sound (token.step (.wake index)) := by
  constructor
  · exact (countP_modify holds_wake index token.threads).trans sound.single
  · intro place member signals
    rcases mem_modify_wake member with before | ⟨asleep, before, rfl⟩
    · exact sound.signalled place before signals
    · rw [signals_wake] at signals
      exact sound.signalled asleep before signals
  · intro taking place member
    have taking' : .takingHooks ∈ token.threads := by
      rcases mem_modify_wake taking with before | ⟨asleep, before, same⟩
      · exact before
      · rwa [← (eq_takingHooks_of_wake asleep).mp same.symm]
    rcases mem_modify_wake member with before | ⟨asleep, before, rfl⟩
    · exact sound.rechecked taking' place before
    · cases past : (Cancel.wake asleep).isPast with
      | false => rfl
      | true =>
          rw [← sound.rechecked taking' asleep before]
          exact (isPast_of_wake past).symm

theorem Sound.step (sound : Sound token) (action : Action Call) : Sound (token.step action) := by
  cases action with
  | call call => exact sound.call call
  | go index =>
      cases located : token.threads[index]? with
      | none => rwa [CancellationToken.step, step_go_of_nobody located]
      | some place =>
          cases advanced : Cancel.advance token.shared place with
          | none => rwa [CancellationToken.step, step_go_of_blocked located advanced]
          | some effect => exact sound.advance located advanced
  | wake index => exact sound.wake index

/-- Nobody is asleep once a call of `cancel` has returned. -/
def Awake (threads : List Place) : Prop :=
  (∃ place ∈ threads, place.hasCancelled = true) → ∀ place ∈ threads, place.isParked = false

instance (threads : List Place) : Decidable (Awake threads) :=
  inferInstanceAs (Decidable ((∃ _, _) → _))

/-- Nobody is asleep once a call of `cancel` has returned, `wait_cancelled` has
returned only from a cancelled token, and `wait` has told what the token was. -/
structure Proper (token : CancellationToken) : Prop where
  awake : Awake token.threads
  right : ∀ place ∈ token.threads, place.Right

/-- The step from a place is none of those that spoil a run: a call of `cancel`
that finds the flag set does not return while somebody is asleep, whom the first
call has still to notify; the first call does not return while a `wait` is asleep,
which has parked behind the notification; nobody parks behind a call of `cancel`
that has returned; and `wait_cancelled` does not wake before the flag is set. -/
def InTime (token : CancellationToken) : Place → Prop
  | .swapping => token.shared.cancelled = true → ∀ place ∈ token.threads, place.isParked = false
  | .takingHooks => ∀ place ∈ token.threads, place ≠ .parked .wait
  | .parking _ => ∀ place ∈ token.threads, place.hasCancelled = false
  | .woken .waitCancelled => token.shared.locked = false → token.shared.cancelled = true
  | _ => True

/-- The step is in time. -/
def Timely (token : CancellationToken) : Action Call → Prop
  | .go index => ∀ place, token.threads[index]? = some place → InTime token place
  | _ => True

theorem proper_new : Proper new :=
  ⟨nofun, nofun⟩

theorem awake_set_iff {threads : List Place} {next : Place} (located : threads[index]? = some place)
    (up : place.isParked = false) (running : place.hasCancelled = false) :
    Awake (threads.set index next) ↔
      (next.hasCancelled = true ∨ ∃ other ∈ threads, other.hasCancelled = true) →
        next.isParked = false ∧ ∀ other ∈ threads, other.isParked = false := by
  rw [Awake, exists_mem_set_iff located (by rw [running]; exact Bool.false_ne_true),
    forall_mem_set_iff located up]

section

variable {threads : List Place} {index : Nat} {next : Place} {inner : Inner} (proper : Proper token)
  (located : token.threads[index]? = some place) (up : place.isParked = false)
  (running : place.hasCancelled = false) (same : threads = token.threads.set index next)

include proper located up running same

/-- A step that notifies nobody, by what its thread comes to. -/
theorem proper_set_iff :
    Proper ⟨inner, threads⟩ ↔
      next.Right ∧
        ((next.hasCancelled = true ∨ ∃ other ∈ token.threads, other.hasCancelled = true) →
          next.isParked = false ∧ ∀ other ∈ token.threads, other.isParked = false) := by
  subst same
  have own := proper.right place (List.mem_of_getElem? located)
  constructor
  · intro after
    exact ⟨((forall_mem_set_iff located own).mp after.right).1,
      (awake_set_iff located up running).mp after.awake⟩
  · rintro ⟨right, awake⟩
    exact ⟨(awake_set_iff located up running).mpr awake,
      (forall_mem_set_iff located own).mpr ⟨right, proper.right⟩⟩

theorem Proper.moves (right : next.Right) (still : next.isParked = false)
    (running' : next.hasCancelled = false) :
    Proper ⟨inner, threads⟩ := by
  refine (proper_set_iff proper located up running same).mpr ⟨right, ?_⟩
  rintro (here | some)
  · rw [running'] at here
    cases here
  · exact ⟨still, proper.awake some⟩

end

theorem Proper.notified {next : Place} {inner : Inner} (proper : Proper token) (right : next.Right)
    (still : next.isParked = false) :
    Proper ⟨inner, (token.threads.map Cancel.wake).set index next⟩ := by
  constructor
  · intro _ place member
    rcases List.mem_or_eq_of_mem_set member with before | rfl
    · rcases List.mem_map.mp before with ⟨asleep, _, rfl⟩
      exact isParked_wake asleep
    · exact still
  · intro place member
    rcases List.mem_or_eq_of_mem_set member with before | rfl
    · rcases List.mem_map.mp before with ⟨asleep, here, rfl⟩
      exact (proper.right asleep here).wake
    · exact right

theorem proper_advance_iff (sound : Sound token) (proper : Proper token)
    (located : token.threads[index]? = some place) (advances : Advances token.shared place effect) :
    Proper ⟨effect.shared,
        (notifyAll Cancel.wake effect.notifies token.threads).set index effect.place⟩ ↔
      InTime token place := by
  have up := advances.up.1
  have running := advances.up.2
  cases advances with
  | again cancelled =>
      refine (proper_set_iff proper located up running rfl).trans ?_
      constructor
      · intro after _
        exact (after.2 (Or.inl rfl)).2
      · intro inTime
        exact ⟨trivial, fun _ => ⟨rfl, inTime cancelled⟩⟩
  | sets clear =>
      refine iff_of_true (proper.moves located up running rfl trivial rfl rfl) ?_
      intro cancelled
      rw [clear] at cancelled
      cases cancelled
  | locks => exact iff_of_true (proper.moves located up running rfl trivial rfl rfl) trivial
  | notifies => exact iff_of_true (proper.notified trivial rfl) trivial
  | finishes =>
      refine (proper_set_iff proper located up running rfl).trans ?_
      constructor
      · rintro ⟨_, after⟩ place member rfl
        have awake := (after (Or.inl rfl)).2 _ member
        cases awake
      · intro inTime
        refine ⟨trivial, fun _ => ⟨rfl, ?_⟩⟩
        intro other member
        cases other with
        | parked call =>
            cases call with
            | wait => exact absurd rfl (inTime _ member)
            | waitCancelled =>
                have past := sound.rechecked (List.mem_of_getElem? located) _ member
                cases past
        | _ => rfl
  | finds call cancelled =>
      refine iff_of_true (proper.moves located up running rfl ?_ rfl ?_) trivial
      · cases call <;> rfl
      · cases call <;> rfl
  | misses call clear => exact iff_of_true (proper.moves located up running rfl trivial rfl rfl) trivial
  | enters free => exact iff_of_true (proper.moves located up running rfl trivial rfl rfl) trivial
  | rechecks free => exact iff_of_true (proper.moves located up running rfl trivial rfl rfl) trivial
  | leaves cancelled => exact iff_of_true (proper.moves located up running rfl rfl rfl rfl) trivial
  | stays clear => exact iff_of_true (proper.moves located up running rfl trivial rfl rfl) trivial
  | parks call =>
      refine (proper_set_iff proper located up running rfl).trans ?_
      constructor
      · rintro ⟨_, after⟩ other member
        cases returned : other.hasCancelled with
        | false => rfl
        | true => cases (after (Or.inr ⟨other, member, returned⟩)).1
      · intro inTime
        refine ⟨trivial, ?_⟩
        rintro (here | ⟨other, member, returned⟩)
        · cases here
        · rw [inTime other member] at returned
          cases returned
  | wakes free => exact iff_of_true (proper.moves located up running rfl trivial rfl rfl) trivial
  | ends free =>
      refine (proper_set_iff proper located up running rfl).trans ?_
      constructor
      · rintro ⟨right, _⟩ _
        exact right
      · intro inTime
        refine ⟨inTime free, ?_⟩
        rintro (here | some)
        · cases here
        · exact ⟨rfl, proper.awake some⟩
  | rereads => exact iff_of_true (proper.moves located up running rfl rfl rfl rfl) trivial
  | reads => exact iff_of_true (proper.moves located up running rfl trivial rfl rfl) trivial

/-- A blocked thread is none of those that spoil a run. -/
theorem inTime_of_blocked (blocked : Cancel.advance token.shared place = none) :
    InTime token place := by
  cases place with
  | swapping =>
      by_cases flag : token.shared.cancelled = true
      · rw [Cancel.advance, if_pos flag] at blocked
        cases blocked
      · rw [Cancel.advance, if_neg flag] at blocked
        cases blocked
  | woken call =>
      cases call with
      | wait => trivial
      | waitCancelled =>
          intro free
          rw [Cancel.advance, passes, free] at blocked
          cases blocked
  | takingHooks => cases blocked
  | parking call => cases blocked
  | _ => trivial

theorem proper_step_iff (sound : Sound token) (proper : Proper token) (action : Action Call) :
    Proper (token.step action) ↔ Timely token action := by
  cases action with
  | call call =>
      refine iff_of_true ⟨?_, ?_⟩ trivial
      · rintro ⟨place, member, returned⟩ other member'
        have before : ∃ place ∈ token.threads, place.hasCancelled = true := by
          rcases List.mem_append.mp member with here | new
          · exact ⟨place, here, returned⟩
          · rw [List.mem_singleton.mp new] at returned
            cases call <;> cases returned
        rcases List.mem_append.mp member' with here | new
        · exact proper.awake before other here
        · rw [List.mem_singleton.mp new]
          cases call <;> rfl
      · intro place member
        rcases List.mem_append.mp member with here | new
        · exact proper.right place here
        · rw [List.mem_singleton.mp new]
          cases call <;> trivial
  | go index =>
      cases located : token.threads[index]? with
      | none =>
          rw [CancellationToken.step, step_go_of_nobody located]
          refine iff_of_true proper ?_
          intro place here
          rw [located] at here
          cases here
      | some place =>
          have only : Timely token (.go index) ↔ InTime token place := by
            constructor
            · intro timely
              exact timely place located
            · intro inTime other here
              rw [located] at here
              rwa [← Option.some.inj here]
          rw [only]
          cases advanced : Cancel.advance token.shared place with
          | none =>
              rw [CancellationToken.step, step_go_of_blocked located advanced]
              exact iff_of_true proper (inTime_of_blocked advanced)
          | some effect =>
              rw [CancellationToken.step, step_go located advanced]
              exact proper_advance_iff sound proper located (advances_of_advance advanced)
  | wake index =>
      refine iff_of_true ⟨?_, ?_⟩ trivial
      · rintro ⟨place, member, returned⟩ other member'
        have before : ∃ place ∈ token.threads, place.hasCancelled = true := by
          rcases mem_modify_wake member with here | ⟨asleep, here, rfl⟩
          · exact ⟨place, here, returned⟩
          · rw [hasCancelled_wake] at returned
            exact ⟨asleep, here, returned⟩
        rcases mem_modify_wake member' with here | ⟨asleep, _, rfl⟩
        · exact proper.awake before other here
        · exact isParked_wake asleep
      · intro place member
        rcases mem_modify_wake member with here | ⟨asleep, here, rfl⟩
        · exact proper.right place here
        · exact (proper.right asleep here).wake

/-- Whatever the interleaving, nobody is left asleep and the waits return what
they should, exactly when every step is in time. -/
theorem waiters_proper_iff (actions : List (Action Call)) :
    RunAlways step Proper new actions ↔ RunMeets step Timely new actions := by
  refine runAlways_iff_runMeets (fun token => Sound token ∧ Proper token) ?_ ?_ ?_
    ⟨sound_new, proper_new⟩
  · rintro token ⟨_, proper⟩
    exact proper
  · rintro token action ⟨sound, proper⟩
    exact proper_step_iff sound proper action
  · rintro token action ⟨sound, proper⟩ timely
    exact ⟨sound.step action, (proper_step_iff sound proper action).mpr timely⟩

/-- A `wait` reads the flag, the token is cancelled and the cancellation returns,
and the `wait` parks. -/
theorem wait_parks_after_cancel :
    ¬ RunAlways step Proper new
      [.call (.waits .wait), .go 0, .call .cancel, .go 1, .go 1, .go 1, .go 1, .go 0, .go 0] := by
  intro always
  have awake := (run_of_runAlways always).awake
  revert awake
  decide

end CancellationToken

end Corduit.Common.Cancel
