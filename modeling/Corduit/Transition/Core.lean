import Mathlib.Data.List.Basic
import Mathlib.Logic.Relation

/-!
# Runs of transition functions

A component is a state type with a total transition function on actions; a
finite schedule is a list of actions, and its run is the fold of the
transition function along it.  An action that is not enabled leaves the state
unchanged, so every schedule has a run and every interleaving is a schedule.

Loops of the modelled programs are partial transitions iterated until they
become undefined.  The iteration carries an explicit bound; `drain_terminal`
turns a decreasing measure into the fact that the bound is never what stops
the loop.

Fallible functions compute in `Except`: a sequence succeeds exactly when its
parts do, one after the other.
-/

namespace Corduit.Transition

universe u v

/-- A partial transition; `none` records that no step is enabled. -/
abbrev Step (σ : Type u) := σ → Option σ

section Schedule

variable {σ : Type u} {α : Type v} {next : σ → α → σ}

/-- The state reached by performing a schedule from `state`. -/
def run (next : σ → α → σ) : σ → List α → σ
  | state, [] => state
  | state, action :: actions => run next (next state action) actions

@[simp]
theorem run_nil (state : σ) : run next state [] = state :=
  rfl

@[simp]
theorem run_cons (state : σ) (action : α) (actions : List α) :
    run next state (action :: actions) = run next (next state action) actions :=
  rfl

theorem run_append (state : σ) (first second : List α) :
    run next state (first ++ second) = run next (run next state first) second := by
  induction first generalizing state with
  | nil => rfl
  | cons action first ih => exact ih (next state action)

/-- Every step of the schedule meets `condition` in the state it starts from. -/
def RunMeets (next : σ → α → σ) (condition : σ → α → Prop) : σ → List α → Prop
  | _, [] => True
  | state, action :: actions =>
      condition state action ∧ RunMeets next condition (next state action) actions

instance RunMeets.decidable {condition : σ → α → Prop}
    [∀ state action, Decidable (condition state action)] :
    (state : σ) → (actions : List α) → Decidable (RunMeets next condition state actions)
  | _, [] => isTrue trivial
  | state, action :: actions =>
      @instDecidableAnd _ _ _ (RunMeets.decidable (next state action) actions)

theorem runMeets_append {condition : σ → α → Prop} (state : σ)
    (first second : List α) :
    RunMeets next condition state (first ++ second) ↔
      RunMeets next condition state first ∧
        RunMeets next condition (run next state first) second := by
  induction first generalizing state with
  | nil => simp [RunMeets]
  | cons action first ih => simp [RunMeets, ih, and_assoc]

section

variable {first second : σ → α → Prop} {state : σ} {actions : List α}

theorem runMeets_and_iff :
    RunMeets next (fun state action => first state action ∧ second state action) state actions ↔
      RunMeets next first state actions ∧ RunMeets next second state actions := by
  induction actions generalizing state with
  | nil => exact iff_of_true trivial ⟨trivial, trivial⟩
  | cons action actions ih => exact (and_congr_right' ih).trans and_and_and_comm

theorem runMeets_and (meetsFirst : RunMeets next first state actions)
    (meetsSecond : RunMeets next second state actions) :
    RunMeets next (fun state action => first state action ∧ second state action) state
      actions :=
  runMeets_and_iff.mpr ⟨meetsFirst, meetsSecond⟩

end

/-- A condition on the actions alone holds along a schedule as soon as it
holds of each of its actions. -/
theorem runMeets_of_forall {condition : α → Prop} {actions : List α}
    (all : ∀ action ∈ actions, condition action) (state : σ) :
    RunMeets next (fun _ action => condition action) state actions := by
  induction actions generalizing state with
  | nil => trivial
  | cons action actions ih =>
      exact ⟨all action List.mem_cons_self,
        ih (fun other member => all other (List.mem_cons_of_mem action member)) _⟩

/-- The invariant rule: what a step that meets the condition preserves, a
schedule whose steps all meet it preserves. -/
theorem run_invariant_of_meets {condition : σ → α → Prop} (invariant : σ → Prop)
    (preserved : ∀ state action, invariant state → condition state action →
      invariant (next state action))
    {state : σ} {actions : List α} (initially : invariant state)
    (meets : RunMeets next condition state actions) :
    invariant (run next state actions) := by
  induction actions generalizing state with
  | nil => exact initially
  | cons action actions ih =>
      exact ih (preserved state action initially meets.1) meets.2

/-- The invariant rule for steps without a side condition. -/
theorem run_invariant (invariant : σ → Prop)
    (preserved : ∀ state action, invariant state → invariant (next state action))
    {state : σ} (initially : invariant state) (actions : List α) :
    invariant (run next state actions) :=
  run_invariant_of_meets invariant (fun state action holds _ => preserved state action holds)
    initially (runMeets_of_forall (fun _ _ => trivial : ∀ action ∈ actions, True) state)

/-- What the invariant says about each step holds of every step of a schedule. -/
theorem runMeets_of_invariant {condition property : σ → α → Prop} (invariant : σ → Prop)
    (implies : ∀ state action, invariant state → condition state action → property state action)
    (preserved : ∀ state action, invariant state → condition state action →
      invariant (next state action))
    {state : σ} {actions : List α} (initially : invariant state)
    (meets : RunMeets next condition state actions) : RunMeets next property state actions := by
  induction actions generalizing state with
  | nil => trivial
  | cons action actions ih =>
      exact ⟨implies state action initially meets.1,
        ih (preserved state action initially meets.1) meets.2⟩

/-- Two conditions that agree on allowed actions wherever the invariant holds are met by
the same runs of them. -/
theorem runMeets_iff_of_allowed {allowed : α → Prop} {condition property : σ → α → Prop}
    (invariant : σ → Prop)
    (exact : ∀ state action, invariant state → allowed action →
      (property state action ↔ condition state action))
    (preserved : ∀ state action, invariant state → allowed action → condition state action →
      invariant (next state action))
    {state : σ} {actions : List α} (initially : invariant state)
    (all : ∀ action ∈ actions, allowed action) :
    RunMeets next property state actions ↔ RunMeets next condition state actions := by
  induction actions generalizing state with
  | nil => exact Iff.rfl
  | cons action actions ih =>
      have allowedHere := all action List.mem_cons_self
      have later := fun meets : condition state action =>
        ih (preserved state action initially allowedHere meets)
          fun other member => all other (List.mem_cons_of_mem action member)
      exact (and_congr_left' (exact state action initially allowedHere)).trans
        (and_congr_right later)

/-- Two conditions that agree wherever the invariant holds are met by the same
runs. -/
theorem runMeets_iff {condition property : σ → α → Prop} (invariant : σ → Prop)
    (exact : ∀ state action, invariant state → (property state action ↔ condition state action))
    (preserved : ∀ state action, invariant state → condition state action →
      invariant (next state action))
    {state : σ} {actions : List α} (initially : invariant state) :
    RunMeets next property state actions ↔ RunMeets next condition state actions :=
  @runMeets_iff_of_allowed _ _ _ (fun _ => True) _ _ invariant
    (fun state action holds _ => exact state action holds)
    (fun state action holds _ => preserved state action holds) _ _ initially fun _ _ => trivial

/-- When the invariant makes `condition` decide whether the next state has the
property, and no step repairs what another has spoilt, a run ends with the
property exactly when its steps all meet the condition. -/
theorem run_iff_runMeets {allowed : α → Prop} {condition : σ → α → Prop}
    {property : σ → Prop} (invariant : σ → Prop)
    (exact : ∀ state action, invariant state → allowed action → property state →
      (property (next state action) ↔ condition state action))
    (spoilt : ∀ state action, invariant state → allowed action → ¬ property state →
      ¬ property (next state action))
    (preserved : ∀ state action, invariant state → allowed action →
      invariant (next state action))
    {state : σ} {actions : List α} (initially : invariant state) (holds : property state)
    (all : ∀ action ∈ actions, allowed action) :
    property (run next state actions) ↔ RunMeets next condition state actions := by
  induction actions generalizing state with
  | nil => exact iff_of_true holds trivial
  | cons action actions ih =>
      have allowedHere := all action List.mem_cons_self
      have allowedLater := fun other member => all other (List.mem_cons_of_mem action member)
      have next := preserved state action initially allowedHere
      have decides := exact state action initially allowedHere holds
      constructor
      · intro finally'
        have later := not_not.mp fun fails =>
          (run_invariant_of_meets (fun state => invariant state ∧ ¬ property state)
            (fun state action both allowed => ⟨preserved state action both.1 allowed,
              spoilt state action both.1 allowed both.2⟩)
            ⟨next, fails⟩ (runMeets_of_forall allowedLater _)).2 finally'
        exact ⟨decides.mp later, (ih next later allowedLater).mp finally'⟩
      · rintro ⟨meets, rest⟩
        exact (ih next (decides.mpr meets) allowedLater).mpr rest

/-- Every state of the run has the property, the first one included. -/
def RunAlways (next : σ → α → σ) (property : σ → Prop) : σ → List α → Prop
  | state, [] => property state
  | state, action :: actions =>
      property state ∧ RunAlways next property (next state action) actions

/-- The first state has the property, and every step leads to a state that has it. -/
theorem runAlways_iff_next {property : σ → Prop} {state : σ} {actions : List α} :
    RunAlways next property state actions ↔ property state ∧
      RunMeets next (fun state action => property (next state action)) state actions := by
  induction actions generalizing state with
  | nil => exact (and_iff_left trivial).symm
  | cons action actions ih => exact and_congr_right' ih

theorem run_of_runAlways {property : σ → Prop} {state : σ} {actions : List α}
    (always : RunAlways next property state actions) : property (run next state actions) :=
  have both := runAlways_iff_next.mp always
  run_invariant_of_meets property (fun _ _ _ later => later) both.1 both.2

/-- What a step says about a condition when both its ends have a property, a run
says that has the property throughout. -/
theorem runMeets_of_runAlways {condition : σ → α → Prop} {property : σ → Prop}
    (implies : ∀ state action, property state → property (next state action) →
      condition state action)
    {state : σ} {actions : List α} (always : RunAlways next property state actions) :
    RunMeets next condition state actions :=
  have both := runAlways_iff_next.mp always
  runMeets_of_invariant property implies (fun _ _ _ later => later) both.1 both.2

section

variable {condition : σ → α → Prop} {property : σ → Prop} (invariant : σ → Prop)
  (implies : ∀ state, invariant state → property state)

include implies

/-- When the invariant makes `condition` decide whether the next state has the
property, a run has it throughout exactly when its steps all meet the
condition. -/
theorem runAlways_iff_runMeets
    (exact : ∀ state action, invariant state →
      (property (next state action) ↔ condition state action))
    (preserved : ∀ state action, invariant state → condition state action →
      invariant (next state action))
    {state : σ} {actions : List α} (initially : invariant state) :
    RunAlways next property state actions ↔ RunMeets next condition state actions :=
  runAlways_iff_next.trans ((and_iff_right (implies state initially)).trans
    (runMeets_iff invariant exact preserved initially))

/-- A run whose steps meet a condition that preserves the invariant has what the
invariant implies in every state. -/
theorem runAlways_of_invariant
    (preserved : ∀ state action, invariant state → condition state action →
      invariant (next state action))
    {state : σ} {actions : List α} (initially : invariant state)
    (meets : RunMeets next condition state actions) : RunAlways next property state actions :=
  runAlways_iff_next.mpr ⟨implies state initially, runMeets_of_invariant invariant
    (fun state action holds here => implies _ (preserved state action holds here)) preserved
    initially meets⟩

end

/-- When the invariant makes `condition` decide whether the next state has the
property and the step has its own, a run has both throughout exactly when its
steps all meet the condition. -/
theorem runAlways_and_runMeets_iff {condition each : σ → α → Prop} {property : σ → Prop}
    (invariant : σ → Prop) (implies : ∀ state, invariant state → property state)
    (exact : ∀ state action, invariant state →
      ((property (next state action) ∧ each state action) ↔ condition state action))
    (preserved : ∀ state action, invariant state → condition state action →
      invariant (next state action))
    {state : σ} {actions : List α} (initially : invariant state) :
    (RunAlways next property state actions ∧ RunMeets next each state actions) ↔
      RunMeets next condition state actions := by
  rw [runAlways_iff_next, and_assoc, ← runMeets_and_iff, and_iff_right (implies state initially)]
  exact runMeets_iff invariant exact preserved initially

/-- Two properties that agree wherever the invariant holds hold along the same
runs, if the invariant is preserved where they hold. -/
theorem runAlways_iff {first second : σ → Prop} (invariant : σ → Prop)
    (exact : ∀ state, invariant state → (first state ↔ second state))
    (preserved : ∀ state action, invariant state → second state → invariant (next state action))
    {state : σ} (initially : invariant state) (actions : List α) :
    RunAlways next first state actions ↔ RunAlways next second state actions := by
  induction actions generalizing state with
  | nil => exact exact state initially
  | cons action actions ih =>
      refine (and_congr_left' (exact state initially)).trans (and_congr_right fun holds => ?_)
      exact ih (preserved state action initially holds)

end Schedule

section Loop

variable {σ : Type u} {next : Step σ}

/-- Iterate a partial transition until it is undefined, at most `bound` times. -/
def drain (next : Step σ) : Nat → σ → σ
  | 0, state => state
  | bound + 1, state =>
      match next state with
      | none => state
      | some state' => drain next bound state'

variable {state : σ}

theorem drain_of_none (stopped : next state = none) (bound : Nat) :
    drain next bound state = state := by
  cases bound with
  | zero => rfl
  | succ bound => simp [drain, stopped]

theorem drain_of_some {state state' : σ} (step : next state = some state')
    (bound : Nat) : drain next (bound + 1) state = drain next bound state' := by
  simp [drain, step]

/-- Whatever one iteration preserves, the loop preserves. -/
theorem drain_invariant (invariant : σ → Prop)
    (preserved : ∀ state state', next state = some state' →
      invariant state → invariant state')
    (bound : Nat) (initially : invariant state) :
    invariant (drain next bound state) := by
  induction bound generalizing state with
  | zero => exact initially
  | succ bound ih =>
      cases step : next state with
      | none => rwa [drain_of_none step]
      | some state' =>
          rw [drain_of_some step]
          exact ih (preserved state state' step initially)

/-- With a measure that every iteration decreases, a bound of that size lets
the loop run to its own exit. -/
theorem drain_terminal (measure : σ → Nat)
    (decreases : ∀ state state', next state = some state' →
      measure state' < measure state)
    (bound : Nat) (enough : measure state ≤ bound) :
    next (drain next bound state) = none := by
  induction bound generalizing state with
  | zero =>
      cases step : next state with
      | none => exact step
      | some state' =>
          have smaller := decreases state state' step
          omega
  | succ bound ih =>
      cases step : next state with
      | none => rwa [drain_of_none step]
      | some state' =>
          rw [drain_of_some step]
          have smaller := decreases state state' step
          exact ih (by omega)

/-- A state that a run from another comes to. -/
def Reaches (next : Step σ) : σ → σ → Prop :=
  Relation.ReflTransGen fun state state' => next state = some state'

theorem Reaches.head {state state' last : σ} (step : next state = some state')
    (reaches : Reaches next state' last) : Reaches next state last :=
  Relation.ReflTransGen.head step reaches

/-- A run has one end. -/
theorem Reaches.end_unique {state first second : σ} (reaches : Reaches next state first)
    (firstEnds : next first = none) (reaches' : Reaches next state second)
    (secondEnds : next second = none) : first = second := by
  induction reaches using Relation.ReflTransGen.head_induction_on with
  | refl =>
      rcases Relation.ReflTransGen.cases_head reaches' with same | ⟨state', step, _⟩
      · exact same
      · exact absurd (firstEnds.symm.trans step) (Option.some_ne_none _).symm
  | head step _ ih =>
      rcases Relation.ReflTransGen.cases_head reaches' with same | ⟨state', step', later⟩
      · rw [← same] at secondEnds
        exact absurd (secondEnds.symm.trans step) (Option.some_ne_none _).symm
      · rw [step] at step'
        exact ih (Option.some.inj step' ▸ later)

end Loop

section Outcome

variable {ε α β : Type u}

theorem bind_eq_ok_iff {first : Except ε α} {next : α → Except ε β} {result : β} :
    (first >>= next) = .ok result ↔ ∃ value, first = .ok value ∧ next value = .ok result := by
  cases first with
  | error error => exact iff_of_false (fun impossible => by cases impossible) (by simp)
  | ok value => exact ⟨fun done => ⟨value, rfl, done⟩, by rintro ⟨_, ⟨⟩, done⟩; exact done⟩

theorem pure_eq_ok_iff {value result : α} :
    (pure value : Except ε α) = .ok result ↔ value = result :=
  Except.ok.injEq value result ▸ Iff.rfl

/-- What each item of a traversal passes on to its result, the traversal passes
on. -/
theorem flatMap_of_mapM_ok {γ : Type v} {f : α → Except ε β} {before : α → List γ}
    {after : β → List γ} (same : ∀ item result, f item = .ok result → after result = before item)
    {items : List α} {results : List β} (traversed : items.mapM f = .ok results) :
    results.flatMap after = items.flatMap before := by
  induction items generalizing results with
  | nil =>
      rw [List.mapM_nil] at traversed
      rw [← pure_eq_ok_iff.mp traversed]
      rfl
  | cons item items ih =>
      rw [List.mapM_cons] at traversed
      rcases bind_eq_ok_iff.mp traversed with ⟨result, first, traversed⟩
      rcases bind_eq_ok_iff.mp traversed with ⟨others, rest, traversed⟩
      rw [← pure_eq_ok_iff.mp traversed, List.flatMap_cons, List.flatMap_cons, ih rest,
        same item result first]

end Outcome

end Corduit.Transition
