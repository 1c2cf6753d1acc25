import Corduit.Engine.Outbound.Group.Core

/-!
# What a url-test group follows

The health of a member is written by the prober and by every relayed
connection that ends.  A ledger keeps the two apart: a latency is what the last
successful probe measured, and any failure counts until the next success.
-/

namespace Corduit.Engine.Outbound

open Collection Transition

/-- A probe that measured a latency or failed, and a relayed connection that lasted
for some time or failed. -/
inductive HealthEvent where
  | probed (tag : String) (measured : Option Nat)
  | relayed (tag : String) (lasted : Option Nat)
deriving DecidableEq, Repr

namespace GroupOutbound

/-- What `probe_all` does with the result of one probe. -/
def foldProbe (group : GroupOutbound) (tag : String) (measured : Option Nat) : GroupOutbound :=
  match measured with
  | some latency => group.recordSuccess tag (some latency)
  | none => group.recordFailure tag

/-- What `relay_tcp_with_connection` does when the connection through a member is
over. -/
def relayDone (group : GroupOutbound) (tag : String) (lasted : Option Nat) : GroupOutbound :=
  match lasted with
  | some elapsed => group.recordSuccess tag (some elapsed)
  | none => group.recordFailure tag

/-- What an event changes. -/
def observe (group : GroupOutbound) : HealthEvent → GroupOutbound
  | .probed tag measured => group.foldProbe tag measured
  | .relayed tag lasted => group.relayDone tag lasted

theorem relayDone_eq (group : GroupOutbound) (tag : String) (lasted : Option Nat) :
    group.relayDone tag lasted = group.foldProbe tag lasted := by
  cases lasted with
  | none => rfl
  | some elapsed => rfl

theorem healthOf_foldProbe (group : GroupOutbound) (tag other : String) (measured : Option Nat) :
    (group.foldProbe tag measured).healthOf other =
      if other = tag then
        ⟨measured.orElse fun _ => (group.healthOf tag).latency,
          if measured.isSome then 0
          else saturatingSucc (group.healthOf tag).consecutiveFailures⟩
      else
        group.healthOf other := by
  cases measured with
  | none => exact group.healthOf_recordFailure tag other
  | some latency => exact group.healthOf_recordSuccess tag other (some latency)

end GroupOutbound

/-- What a group is to know of its members. -/
structure Ledger where
  failures : String → Nat
  latency : String → Option Nat

namespace Ledger

/-- Nothing has happened. -/
def empty : Ledger :=
  ⟨fun _ => 0, fun _ => none⟩

/-- A success or a failure of a member. -/
def count (ledger : Ledger) (tag : String) (success : Bool) : Ledger :=
  { ledger with failures := fun other =>
      if other = tag then (if success then 0 else ledger.failures tag + 1)
      else ledger.failures other }

/-- A latency that a probe measured. -/
def measure (ledger : Ledger) (tag : String) (measured : Option Nat) : Ledger :=
  { ledger with latency := fun other =>
      if other = tag then measured.orElse fun _ => ledger.latency tag else ledger.latency other }

/-- What an event says. -/
def observe (ledger : Ledger) : HealthEvent → Ledger
  | .probed tag measured => (ledger.count tag measured.isSome).measure tag measured
  | .relayed tag lasted => ledger.count tag lasted.isSome

/-- The members with fewer than two consecutive failures, or all. -/
def available (ledger : Ledger) (members : List String) : List String :=
  let available := members.filter fun tag => ledger.failures tag < 2
  if available.isEmpty then members else available

end Ledger

/-- A group and what it is to know. -/
structure Watched where
  group : GroupOutbound
  ledger : Ledger

namespace Watched

/-- Both of them see the event. -/
def observe (state : Watched) (event : HealthEvent) : Watched :=
  ⟨state.group.observe event, state.ledger.observe event⟩

/-- The group chooses the first available member that measured best. -/
def FollowsProbes (state : Watched) : Prop :=
  ∃ tag, state.group.primary.1 = .ok tag ∧
    FirstBest (state.ledger.available state.group.members) state.ledger.latency tag

/-- The latency of every member is what its last successful probe measured. -/
def KeepsProbes (state : Watched) : Prop :=
  ∀ tag, (state.group.healthOf tag).latency = state.ledger.latency tag

/-- A relayed connection that succeeds lasted as long as the last successful probe
of its member took. -/
def LastsAsProbed (state : Watched) : HealthEvent → Prop
  | .relayed tag (some elapsed) => state.ledger.latency tag = some elapsed
  | _ => True

/-- The failures are counted alike, up to the bound of the counter. -/
def CountsFailures (state : Watched) : Prop :=
  ∀ tag, (state.group.healthOf tag).consecutiveFailures =
    min (state.ledger.failures tag) (2 ^ 32 - 1)

variable {state : Watched}

/-- The member that an event is about, and how it went. -/
def subject : HealthEvent → String × Option Nat
  | .probed tag measured => (tag, measured)
  | .relayed tag lasted => (tag, lasted)

theorem group_observe (group : GroupOutbound) (event : HealthEvent) :
    group.observe event = group.foldProbe (subject event).1 (subject event).2 := by
  cases event with
  | probed tag measured => rfl
  | relayed tag lasted => exact group.relayDone_eq tag lasted

theorem failures_observe (ledger : Ledger) (event : HealthEvent) (other : String) :
    (ledger.observe event).failures other =
      if other = (subject event).1 then
        (if (subject event).2.isSome then 0 else ledger.failures (subject event).1 + 1)
      else ledger.failures other := by
  cases event with
  | probed tag measured => rfl
  | relayed tag lasted => rfl

theorem countsFailures_observe (counts : state.CountsFailures) (event : HealthEvent) :
    (state.observe event).CountsFailures := by
  intro other
  change ((state.group.observe event).healthOf other).consecutiveFailures =
    min ((state.ledger.observe event).failures other) (2 ^ 32 - 1)
  rw [group_observe, GroupOutbound.healthOf_foldProbe, failures_observe]
  by_cases same : other = (subject event).1
  · rw [if_pos same, if_pos same]
    by_cases success : (subject event).2.isSome = true
    · rw [if_pos success, if_pos success, Nat.zero_min]
    · rw [if_neg success, if_neg success, counts (subject event).1]
      simp only [saturatingSucc]
      omega
  · rw [if_neg same, if_neg same]
    exact counts other

/-- A probe keeps the latencies right, and so does a failed connection; one that
succeeds only when it lasted as long as the probe took. -/
theorem keepsProbes_observe_iff (keeps : state.KeepsProbes) (event : HealthEvent) :
    (state.observe event).KeepsProbes ↔ state.LastsAsProbed event := by
  have here : ((state.observe event).group.healthOf (subject event).1).latency =
      (subject event).2.orElse fun _ => state.ledger.latency (subject event).1 := by
    change ((state.group.observe event).healthOf _).latency = _
    rw [group_observe, GroupOutbound.healthOf_foldProbe, if_pos rfl, keeps (subject event).1]
  have there : ∀ other, other ≠ (subject event).1 →
      ((state.observe event).group.healthOf other).latency = state.ledger.latency other := by
    intro other different
    change ((state.group.observe event).healthOf other).latency = _
    rw [group_observe, GroupOutbound.healthOf_foldProbe, if_neg different, keeps other]
  cases event with
  | probed tag measured =>
      refine iff_of_true (fun other => ?_) trivial
      by_cases same : other = tag
      · subst same
        exact here.trans (if_pos rfl).symm
      · exact (there other same).trans (if_neg same).symm
  | relayed tag lasted =>
      cases lasted with
      | none =>
          refine iff_of_true (fun other => ?_) trivial
          by_cases same : other = tag
          · subst same
            exact here
          · exact there other same
      | some elapsed =>
          constructor
          · intro later
            exact (later tag).symm.trans here
          · intro lasts other
            by_cases same : other = tag
            · subst same
              exact here.trans lasts.symm
            · exact there other same

theorem observe_frame (group : GroupOutbound) (event : HealthEvent) :
    (group.observe event).members = group.members ∧
      (group.observe event).strategy = group.strategy ∧
      (group.observe event).cursor = group.cursor := by
  rw [group_observe]
  cases (subject event).2 with
  | none => exact ⟨rfl, rfl, rfl⟩
  | some latency => exact ⟨rfl, rfl, rfl⟩

/-- What a step that meets the condition keeps. -/
structure Agrees (state : Watched) : Prop where
  strategy : state.group.strategy = .urlTest
  counts : state.CountsFailures
  keeps : state.KeepsProbes

theorem agrees_observe (agrees : state.Agrees) {event : HealthEvent}
    (lasts : state.LastsAsProbed event) : (state.observe event).Agrees :=
  ⟨(observe_frame state.group event).2.1.trans agrees.strategy,
    countsFailures_observe agrees.counts event,
    (keepsProbes_observe_iff agrees.keeps event).mpr lasts⟩

theorem available_eq (counts : state.CountsFailures) :
    state.group.availableMembers = state.ledger.available state.group.members := by
  have same : ∀ tag, ((state.group.health.lookup tag).map MemberHealth.isAvailable).getD true =
      decide (state.ledger.failures tag < 2) := by
    intro tag
    rw [GroupOutbound.available_eq, MemberHealth.isAvailable, counts tag, FAILURES_BEFORE_DEAD]
    apply decide_eq_decide.mpr
    omega
  rw [GroupOutbound.availableMembers, Ledger.available, funext same]

theorem followsProbes (agrees : state.Agrees) : state.FollowsProbes := by
  rcases firstBest_spec (fun tag => (state.group.health.lookup tag).bind MemberHealth.latency)
    state.group.availableMembers_ne_nil with ⟨best, found, least⟩
  have chosen : state.group.primary.1 = .ok best := by
    rw [GroupOutbound.primary, agrees.strategy]
    simp only [GroupOutbound.fastestMember, found]
    rfl
  have measured : (fun tag => (state.group.health.lookup tag).bind MemberHealth.latency) =
      state.ledger.latency :=
    funext fun tag => (state.group.latency_eq tag).trans (agrees.keeps tag)
  rw [measured, available_eq agrees.counts] at least
  exact ⟨best, chosen, least⟩

/-- A group of which nothing is known yet. -/
def unmeasured (group : GroupOutbound) : Watched :=
  ⟨{ group with health := ∅ }, Ledger.empty⟩

theorem agrees_unmeasured {group : GroupOutbound} (strategy : group.strategy = .urlTest) :
    (unmeasured group).Agrees :=
  ⟨strategy, fun _ => rfl, fun _ => rfl⟩

/-- When the connections that succeed last as long as the last probe of their
member took, a url-test group chooses by its probes throughout; and its
latencies are what the probes measured throughout exactly then. -/
theorem follows_probes_of_run (group : GroupOutbound) (strategy : group.strategy = .urlTest)
    (events : List HealthEvent) :
    (RunMeets observe LastsAsProbed (unmeasured group) events →
        RunAlways observe FollowsProbes (unmeasured group) events) ∧
      (RunAlways observe KeepsProbes (unmeasured group) events ↔
        RunMeets observe LastsAsProbed (unmeasured group) events) := by
  have initially := agrees_unmeasured strategy
  constructor
  · exact runAlways_of_invariant Agrees (fun state agrees => followsProbes agrees)
      (fun state event agrees lasts => agrees_observe agrees lasts) initially
  · exact runAlways_iff_runMeets Agrees (fun state agrees => agrees.keeps)
      (fun state event agrees => keepsProbes_observe_iff agrees.keeps event)
      (fun state event agrees lasts => agrees_observe agrees lasts) initially

/-- A group of two members. -/
def pair (strategy : GroupStrategy) : GroupOutbound :=
  ⟨"G", strategy, ["A", "B"], List.cons_ne_nil _ _, ∅, none, ∅, 0⟩

theorem follows_probes_pair :
    RunAlways observe FollowsProbes (unmeasured (pair .urlTest))
      [.probed "A" (some 50), .relayed "A" none, .relayed "B" none, .probed "B" (some 100),
        .relayed "A" (some 50)] := by
  refine (follows_probes_of_run (pair .urlTest) rfl _).1 ?_
  exact ⟨trivial, trivial, trivial, trivial, rfl, trivial⟩

/-- Both members are probed and the faster one carries a connection for an hour: the
slower one is chosen. -/
theorem long_connection_not_followed :
    ¬ RunAlways observe FollowsProbes (unmeasured (pair .urlTest))
      [.probed "A" (some 50000000), .probed "B" (some 100000000),
        .relayed "A" (some 3600000000000)] := by
  intro always
  rcases run_of_runAlways always with ⟨tag, chosen, before, after, split, least⟩
  have slower : tag = "B" := (Except.ok.inj (chosen.symm.trans (by decide +kernel)))
  subst slower
  cases before with
  | nil => exact absurd (List.cons.inj split).1 (by decide)
  | cons first before =>
      rw [← (List.cons.inj split).1] at least
      have less := least.1 "A" List.mem_cons_self 50000000 rfl
      exact absurd less (by decide)

end Watched

end Corduit.Engine.Outbound
