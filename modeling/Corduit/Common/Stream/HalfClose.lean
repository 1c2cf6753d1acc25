import Corduit.Common.Stream.Moves

/-!
# Half-close

A direction that has come to the end of its source shuts its destination down
for writing, once, if it finds the lock free.  The lock is the one that the
other direction holds while it reads there, and a half-close does not set the
flag: nobody repeats what was skipped.
-/

namespace Corduit.Common.Stream

open Transition Transport Word

/-- Nothing fails, panics or is cancelled. -/
def Action.Calm : Action → Prop
  | .spawn error => error = none
  | .step _ => True
  | .read _ (.ok _) => True
  | .read _ (.error error) => error.kind.isReadIntervalElapsed = true
  | .write _ (.ok count) => 0 < count
  | .write _ (.error _) | .panic _ | .cancel | .hook => False

instance : DecidablePred Action.Calm
  | .spawn error => inferInstanceAs (Decidable (error = none))
  | .step _ => isTrue trivial
  | .read _ (.ok _) => isTrue trivial
  | .read _ (.error error) => inferInstanceAs (Decidable (error.kind.isReadIntervalElapsed = true))
  | .write _ (.ok count) => inferInstanceAs (Decidable (0 < count))
  | .write _ (.error _) | .panic _ | .cancel | .hook => isFalse id

theorem Direction.dst_ne {direction other : Direction} (different : other ≠ direction) :
    other.dst ≠ direction.dst := by
  cases direction <;> cases other <;> first | exact absurd rfl different | exact nofun

namespace Side

@[simp]
theorem shutdowns_lock (side : Side) (direction : Direction) :
    (side.lock direction).shutdowns = side.shutdowns := by
  unfold lock
  split <;> rfl

@[simp]
theorem shutdowns_unlock (side : Side) : side.unlock.shutdowns = side.shutdowns :=
  rfl

end Side

namespace Relay

variable {relay later : Relay} {direction : Direction}

/-- Every direction that came to the end of its source has shut its destination
down for writing. -/
def Informed (relay : Relay) : Prop :=
  ∀ direction, (relay.lanes direction).phase = .ended .halfClosed →
    (relay.sides direction.dst).WriteShut

/-- A direction that is about to half-close its destination does not find the
lock taken. -/
def Free (relay : Relay) : Action → Prop
  | .step direction =>
      (relay.lanes direction).phase = .halfClosing → (relay.sides direction.dst).Available
  | _ => True

instance (relay : Relay) : DecidablePred relay.Free
  | .step direction =>
      inferInstanceAs (Decidable ((relay.lanes direction).phase = .halfClosing →
        (relay.sides direction.dst).Available))
  | .spawn _ | .read _ _ | .write _ _ | .panic _ | .cancel | .hook => isTrue trivial

/-- No direction ended otherwise than by a half-close, and nothing was shut down
before the direction that writes there had ended. -/
structure Undisturbed (relay : Relay) : Prop where
  flag : relay.finished = false
  token : relay.cancelled = false
  phases : ∀ direction, (relay.lanes direction).phase.isOver = true →
    (relay.lanes direction).phase = .ended .halfClosed
  unshut : ∀ direction, (relay.sides direction.dst).shutdowns ≠ [] →
    (relay.lanes direction).phase = .ended .halfClosed

/-- A step that shuts nothing down and ends no direction. -/
structure Quiet (relay later : Relay) : Prop where
  flag : later.finished = relay.finished
  token : later.cancelled = relay.cancelled
  shutdowns : ∀ side, (later.sides side).shutdowns = (relay.sides side).shutdowns
  phases : ∀ direction, (later.lanes direction).phase = (relay.lanes direction).phase ∨
    (later.lanes direction).phase.isOver = false ∧ (relay.lanes direction).phase.isOver = false

namespace Quiet

theorem refl (relay : Relay) : relay.Quiet relay :=
  ⟨rfl, rfl, fun _ => rfl, fun _ => Or.inl rfl⟩

theorem trans {middle : Relay} (first : relay.Quiet middle) (second : middle.Quiet later) :
    relay.Quiet later := by
  refine ⟨second.flag.trans first.flag, second.token.trans first.token,
    fun side => (second.shutdowns side).trans (first.shutdowns side), ?_⟩
  intro direction
  rcases first.phases direction with same | ⟨past, past'⟩
  · rw [← same]
    exact second.phases direction
  · rcases second.phases direction with same | ⟨past'', _⟩
    · rw [same]
      exact Or.inr ⟨past, past'⟩
    · exact Or.inr ⟨past'', past'⟩

theorem onSide (side : End) {change : Side → Side}
    (same : ∀ side, (change side).shutdowns = side.shutdowns) :
    relay.Quiet (relay.onSide side change) := by
  refine ⟨rfl, rfl, ?_, fun _ => Or.inl rfl⟩
  intro other
  by_cases here : other = side
  · rw [here]
    exact (congrArg Side.shutdowns (Function.update_self side _ relay.sides)).trans (same _)
  · exact congrArg Side.shutdowns (Function.update_of_ne here _ relay.sides)

theorem onLane {change : Lane → Lane} (before : (relay.lanes direction).phase.isOver = false)
    (after : (change (relay.lanes direction)).phase.isOver = false) :
    relay.Quiet (relay.onLane direction change) := by
  refine ⟨rfl, rfl, fun _ => rfl, ?_⟩
  intro other
  by_cases here : other = direction
  · rw [here, lanes_onLane_self]
    exact Or.inr ⟨after, before⟩
  · rw [lanes_onLane_of_ne here]
    exact Or.inl rfl

theorem enter {phase : Phase} (before : (relay.lanes direction).phase.isOver = false)
    (after : phase.isOver = false) : relay.Quiet (relay.enter direction phase) :=
  onLane before after

end Quiet

theorem quiet_record (bytes : Nat) (before : (relay.lanes direction).phase.isOver = false) :
    relay.Quiet (relay.record direction bytes) := by
  unfold record
  split
  · exact Quiet.onLane before before
  · exact Quiet.refl relay

theorem quiet_spawn (relay : Relay) : relay.Quiet (relay.spawn none) := by
  unfold spawn
  split
  · rename_i unspawned
    have different : Direction.downstream ≠ .upstream := nofun
    refine (Quiet.enter (by rw [unspawned.1]; rfl) rfl).trans (Quiet.enter ?_ rfl)
    rw [lanes_enter_of_ne different, unspawned.2]
    rfl
  · exact Quiet.refl relay

theorem quiet_step (undisturbed : relay.Undisturbed)
    (open' : (relay.lanes direction).phase ≠ .halfClosing) :
    relay.Quiet (relay.step direction) := by
  unfold step
  cases phase : (relay.lanes direction).phase with
  | unspawned | inRead | inWrite _ _ | ended _ => exact Quiet.refl relay
  | top =>
      dsimp only
      rw [if_neg (Bool.eq_false_iff.mp undisturbed.token)]
      exact Quiet.enter (by rw [phase]; rfl) rfl
  | checked =>
      dsimp only
      rw [if_neg (Bool.eq_false_iff.mp undisturbed.flag)]
      exact Quiet.enter (by rw [phase]; rfl) rfl
  | reading =>
      dsimp only
      split
      · exact (Quiet.onSide _ fun side => side.shutdowns_lock direction).trans
          (Quiet.onLane (by rw [lanes_onSide, phase]; rfl) rfl)
      · exact Quiet.refl relay
  | eof =>
      dsimp only
      rw [if_neg (Bool.eq_false_iff.mp undisturbed.token)]
      exact Quiet.enter (by rw [phase]; rfl) rfl
  | halfClosing => exact absurd phase open'
  | writing chunk =>
      dsimp only
      split
      · exact (Quiet.onSide _ fun side => side.shutdowns_lock direction).trans
          (Quiet.onLane (by rw [lanes_onSide, phase]; rfl) rfl)
      · exact Quiet.refl relay
  | counting chunk => exact Quiet.onLane (by rw [phase]; rfl) rfl
  | recording chunk =>
      have idle : (relay.lanes direction).phase.isOver = false := by rw [phase]; rfl
      refine (quiet_record chunk.length idle).trans (Quiet.enter ?_ rfl)
      rw [lanes_record_self]
      exact idle
  | ending outcome ends =>
      have past := undisturbed.phases direction (by rw [phase]; rfl)
      rw [phase] at past
      cases past
  | releasing outcome ends =>
      have past := undisturbed.phases direction (by rw [phase]; rfl)
      rw [phase] at past
      cases past

theorem quiet_read {result : Except IoError (List Byte)}
    (calm : (Action.read direction result).Calm) : relay.Quiet (relay.read direction result) := by
  unfold read
  split
  · rename_i phase
    have unlocked : relay.Quiet (relay.onSide direction.src Side.unlock) :=
      Quiet.onSide _ Side.shutdowns_unlock
    have idle : ((relay.onSide direction.src Side.unlock).lanes direction).phase.isOver = false := by
      rw [lanes_onSide, phase]
      rfl
    rcases result with error | _ | ⟨byte, bytes⟩
    · have elapsed : error.kind.isReadIntervalElapsed = true := calm
      dsimp only
      rw [if_pos elapsed]
      exact unlocked.trans (Quiet.enter idle rfl)
    · exact unlocked.trans (Quiet.enter idle rfl)
    · dsimp only
      split
      · exact Quiet.refl relay
      · exact unlocked.trans (Quiet.onLane idle rfl)
  · exact Quiet.refl relay

theorem quiet_write {result : Except IoError Nat}
    (calm : (Action.write direction result).Calm) : relay.Quiet (relay.write direction result) := by
  unfold write
  split
  · rename_i phase
    have idle : (relay.lanes direction).phase.isOver = false := by rw [phase]; rfl
    dsimp only
    split
    · exact absurd calm (Nat.lt_irrefl 0)
    · split
      · exact Quiet.refl relay
      · split
        · exact (Quiet.onSide _ Side.shutdowns_unlock).trans (Quiet.onLane idle rfl)
        · exact Quiet.onLane idle rfl
    · exact absurd calm id
  · exact Quiet.refl relay

/-- A calm step is quiet, unless a direction half-closes. -/
theorem quiet_or_halfClosing (undisturbed : relay.Undisturbed) {action : Action}
    (calm : action.Calm) :
    (∃ direction, action = .step direction ∧ (relay.lanes direction).phase = .halfClosing) ∨
      relay.Quiet (relay.next action) ∧ relay.Free action := by
  cases action with
  | spawn error =>
      cases calm
      exact Or.inr ⟨quiet_spawn relay, trivial⟩
  | step direction =>
      by_cases closing : (relay.lanes direction).phase = .halfClosing
      · exact Or.inl ⟨direction, rfl, closing⟩
      · exact Or.inr ⟨quiet_step undisturbed closing, fun phase => absurd phase closing⟩
  | read direction result => exact Or.inr ⟨quiet_read calm, trivial⟩
  | write direction result => exact Or.inr ⟨quiet_write calm, trivial⟩
  | panic _ | cancel | hook => exact absurd calm id

theorem Undisturbed.quiet (undisturbed : relay.Undisturbed) (quiet : relay.Quiet later) :
    later.Undisturbed := by
  refine ⟨quiet.flag.trans undisturbed.flag, quiet.token.trans undisturbed.token, ?_, ?_⟩
  · intro direction past
    rcases quiet.phases direction with same | ⟨idle, _⟩
    · rw [same] at past ⊢
      exact undisturbed.phases direction past
    · exact absurd past (Bool.eq_false_iff.mp idle)
  · intro direction some
    rw [quiet.shutdowns] at some
    have closed := undisturbed.unshut direction some
    rcases quiet.phases direction with same | ⟨_, idle⟩
    · exact same.trans closed
    · rw [closed] at idle
      cases idle

theorem Informed.quiet (informed : relay.Informed) (quiet : relay.Quiet later) :
    later.Informed := by
  intro direction closed
  rcases quiet.phases direction with same | ⟨idle, _⟩
  · rw [Side.WriteShut, quiet.shutdowns]
    exact informed direction (same.symm.trans closed)
  · rw [closed] at idle
    cases idle

section

variable (closing : (relay.lanes direction).phase = .halfClosing)

include closing

theorem step_halfClosing :
    relay.step direction =
      (relay.onSide direction.dst fun side => side.shutdown .write).enter direction
        (.ended .halfClosed) := by
  rw [step, closing]

theorem sides_step_halfClosing :
    (relay.step direction).sides direction.dst =
      (relay.sides direction.dst).shutdown .write := by
  rw [step_halfClosing closing]
  exact Function.update_self direction.dst _ relay.sides

theorem sides_step_halfClosing_of_ne {other : Direction} (different : other ≠ direction) :
    (relay.step direction).sides other.dst = relay.sides other.dst := by
  rw [step_halfClosing closing]
  exact Function.update_of_ne (Direction.dst_ne different) _ relay.sides

theorem phase_step_halfClosing :
    ((relay.step direction).lanes direction).phase = .ended .halfClosed := by
  rw [step_halfClosing closing, lanes_enter_self]

end

section

variable (undisturbed : relay.Undisturbed)

include undisturbed

/-- A half-close leaves a relay undisturbed, and done or skipped it is the end of
the direction. -/
theorem Undisturbed.halfClosing (closing : (relay.lanes direction).phase = .halfClosing) :
    (relay.step direction).Undisturbed := by
  refine ⟨?_, ?_, ?_, ?_⟩
  · rw [step_halfClosing closing]
    exact undisturbed.flag
  · rw [step_halfClosing closing]
    exact undisturbed.token
  · intro other past
    by_cases same : other = direction
    · rw [same]
      exact phase_step_halfClosing closing
    · rw [lanes_step_of_ne same] at past ⊢
      exact undisturbed.phases other past
  · intro other some
    by_cases same : other = direction
    · rw [same]
      exact phase_step_halfClosing closing
    · rw [lanes_step_of_ne same]
      rw [sides_step_halfClosing_of_ne closing same] at some
      exact undisturbed.unshut other some

/-- A half-close informs the destination exactly if its lock is free: nothing has
been shut down there before, and nothing will be later. -/
theorem informed_halfClosing_iff (informed : relay.Informed)
    (closing : (relay.lanes direction).phase = .halfClosing) :
    (relay.step direction).Informed ↔ (relay.sides direction.dst).Available := by
  constructor
  · intro after
    by_contra taken
    rcases after direction (phase_step_halfClosing closing) with ⟨how, member, _⟩
    rw [sides_step_halfClosing closing, Side.shutdown, if_neg taken] at member
    have closed := undisturbed.unshut direction (List.ne_nil_of_mem member)
    rw [closing] at closed
    cases closed
  · intro available other closed
    by_cases same : other = direction
    · rw [same, Side.WriteShut, sides_step_halfClosing closing, Side.shutdown, if_pos available]
      exact ⟨.write, List.mem_append_right _ (List.mem_singleton.mpr rfl), rfl⟩
    · rw [sides_step_halfClosing_of_ne closing same]
      rw [lanes_step_of_ne same] at closed
      exact informed other closed

theorem Undisturbed.next {action : Action} (calm : action.Calm) :
    (relay.next action).Undisturbed := by
  rcases quiet_or_halfClosing undisturbed calm with ⟨direction, rfl, closing⟩ | ⟨quiet, _⟩
  · exact undisturbed.halfClosing closing
  · exact undisturbed.quiet quiet

theorem informed_next_iff (informed : relay.Informed) {action : Action} (calm : action.Calm) :
    (relay.next action).Informed ↔ relay.Free action := by
  rcases quiet_or_halfClosing undisturbed calm with ⟨direction, rfl, closing⟩ | ⟨quiet, free⟩
  · exact (informed_halfClosing_iff undisturbed informed closing).trans
      ⟨fun available _ => available, fun free => free closing⟩
  · exact iff_of_true (informed.quiet quiet) free

end

theorem undisturbed_start (kinds : End → SideKind) (accounting : Direction → Bool) :
    (start kinds accounting).Undisturbed where
  flag := rfl
  token := rfl
  phases := fun _ no => nomatch no
  unshut := fun _ some => absurd rfl some

theorem informed_start (kinds : End → SideKind) (accounting : Direction → Bool) :
    (start kinds accounting).Informed := by
  intro direction closed
  cases closed

/-- What a half-close skipped, no later step makes up for. -/
theorem Undisturbed.informed_of_next (undisturbed : relay.Undisturbed) {action : Action}
    (calm : action.Calm) (informed : (relay.next action).Informed) : relay.Informed := by
  rcases quiet_or_halfClosing undisturbed calm with ⟨direction, rfl, closing⟩ | ⟨quiet, _⟩
  · intro other closed
    have different : other ≠ direction := by
      intro same
      rw [same, closing] at closed
      cases closed
    rw [← sides_step_halfClosing_of_ne closing different]
    exact informed other ((congrArg Lane.phase (lanes_step_of_ne different)).trans closed)
  · intro other closed
    have same : ((relay.next action).lanes other).phase = (relay.lanes other).phase := by
      rcases quiet.phases other with same | ⟨_, idle⟩
      · exact same
      · rw [closed] at idle
        cases idle
    rw [Side.WriteShut, ← quiet.shutdowns]
    exact informed other (same.trans closed)

/-- Without failures and cancellation, wherever a run has come to, the
destination of every direction that came to the end of its source was shut down
for writing, exactly if no direction found the lock taken when it half-closed. -/
theorem informed_run_iff (kinds : End → SideKind) (accounting : Direction → Bool)
    (actions : List Action) (calm : ∀ action ∈ actions, action.Calm) :
    (run next (start kinds accounting) actions).Informed ↔
      RunMeets next Free (start kinds accounting) actions := by
  have preserved : ∀ (relay : Relay) (action : Action), relay.Undisturbed → action.Calm →
      (relay.next action).Undisturbed :=
    fun _ _ undisturbed calm => undisturbed.next calm
  refine run_iff_runMeets Undisturbed ?_ ?_ preserved (undisturbed_start kinds accounting)
    (informed_start kinds accounting) calm
  · exact fun _ _ undisturbed calm informed => informed_next_iff undisturbed informed calm
  · exact fun _ _ undisturbed calm fails informed =>
      fails (undisturbed.informed_of_next calm informed)

/-- The client's end of stream comes while the downstream direction waits for the
upstream transport. -/
def overlapping : List Action :=
  [.spawn none, .step .downstream, .step .downstream, .step .downstream, .step .upstream,
    .step .upstream, .step .upstream, .read .upstream (.ok []), .step .upstream, .step .upstream]

theorem informed_run_iff_overlapping :
    (run next (start (fun _ => .shared) (fun _ => false)) overlapping).Informed ↔
      RunMeets next Free (start (fun _ => .shared) (fun _ => false)) overlapping :=
  informed_run_iff _ _ _ (by decide)

/-- The relay comes to its end without an error, and the upstream transport was
never shut down. -/
theorem not_informed_overlapping :
    (∀ action ∈ overlapping ++ [.read .downstream (.ok []), .step .downstream, .step .downstream],
        action.Calm) ∧
      ∃ relay, relay = run next (start (fun _ => .serialized) (fun _ => false))
          (overlapping ++ [.read .downstream (.ok []), .step .downstream, .step .downstream]) ∧
        relay.result? = some (.ok (0, 0)) ∧
        (relay.lanes .upstream).phase = .ended .halfClosed ∧ (relay.sides .b).shutdowns = [] ∧
        ¬ relay.Informed := by
  refine ⟨by decide, _, rfl, rfl, by decide, by decide, fun informed => ?_⟩
  exact absurd (informed .upstream (by decide)) (by decide)

end Relay

end Corduit.Common.Stream
