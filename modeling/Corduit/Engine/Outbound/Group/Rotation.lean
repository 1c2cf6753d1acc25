import Corduit.Engine.Outbound.Group.Latency
import Mathlib.Data.List.Rotate

/-!
# The rotation of a load-balance group

Every choice of a member takes a turn of the one cursor, whether it is made for
a connection or only to answer a question.
-/

namespace Corduit.Engine.Outbound

open Transition Word

/-- What is asked of a group: a connection, a question, or to take note of a
member's health.  A UDP packet is first checked and then submitted. -/
inductive RotationStep where
  | relayTcp
  | relayUdpPacket
  | udpSubmit (packet : Nat)
  | supportsUdp (packet : Nat)
  | serverAddr
  | effectiveMember
  | health (event : HealthEvent)
deriving DecidableEq, Repr

namespace RotationStep

/-- The steps that open a connection. -/
def IsConnection : RotationStep → Prop
  | relayTcp | relayUdpPacket | udpSubmit _ => True
  | _ => False

/-- The steps that only ask. -/
def IsQuery : RotationStep → Prop
  | supportsUdp _ | serverAddr | effectiveMember => True
  | _ => False

end RotationStep

/-- A group, the members that its connections were given to, the member that was
asked about each packet, and for each submitted packet that member and the one
that it was submitted to. -/
structure Rotating where
  group : GroupOutbound
  served : List String
  checked : Nat → Option String
  submitted : List (Option String × Option String)

namespace Rotating

/-- Nothing was served. -/
def start (group : GroupOutbound) : Rotating :=
  ⟨group, [], fun _ => none, []⟩

/-- The member that the group would choose now. -/
def member (state : Rotating) : Option String :=
  state.group.primary.1.toOption

/-- A connection is given to the member that is chosen. -/
def serve (state : Rotating) : Rotating :=
  { state with
    group := state.group.primary.2
    served := state.served ++ state.member.toList }

/-- The state behind a step. -/
def next (state : Rotating) : RotationStep → Rotating
  | .relayTcp => state.serve
  | .relayUdpPacket => state.serve
  | .udpSubmit packet =>
      { state.serve with
        submitted := state.submitted ++ [(state.checked packet, state.member)] }
  | .supportsUdp packet =>
      { state with
        group := state.group.supportsUdp.2
        checked := fun other => if other = packet then state.member else state.checked other }
  | .serverAddr => { state with group := state.group.serverAddr.2 }
  | .effectiveMember => { state with group := state.group.effectiveMember.2 }
  | .health event => { state with group := state.group.observe event }

/-- The connections go round the members, as if nothing had been asked between
them; every window of as many connections as members uses each once; and a
packet is submitted to the member that was asked about it. -/
structure Rotates (available : List String) (cursor : Nat) (state : Rotating) : Prop where
  turns : ∀ index < state.served.length,
    state.served[index]? = available[(cursor + index) % available.length]?
  windows : ∀ first, first + available.length ≤ state.served.length →
    ((state.served.drop first).take available.length).Perm available
  asked : ∀ pair ∈ state.submitted, ∀ member, pair.1 = some member → pair.2 = some member

/-- Nothing is asked of a group with more than one available member, and the cursor
only wraps where the rotation does. -/
def Counts (available : List String) (state : Rotating) (step : RotationStep) : Prop :=
  (step.IsQuery → available.length = 1) ∧
    (step.IsQuery ∨ step.IsConnection →
      state.group.cursor.toNat + 1 < 2 ^ 64 ∨ available.length ∣ 2 ^ 64)

variable {available : List String} {group : GroupOutbound} {state : Rotating}

theorem primary_loadBalance (balances : group.strategy = .loadBalance)
    (members : group.availableMembers = available) :
    ∃ inside : group.cursor.toNat % available.length < available.length,
      group.primary = (.ok available[group.cursor.toNat % available.length],
        { group with cursor := group.cursor + 1 }) := by
  have some : available ≠ [] := members ▸ group.availableMembers_ne_nil
  have inside : group.cursor.toNat % available.length < available.length :=
    Nat.mod_lt _ (List.length_pos_iff.mpr some)
  refine ⟨inside, ?_⟩
  rw [GroupOutbound.primary, balances]
  simp only [members, List.isEmpty_iff, some, if_false, List.getElem?_eq_getElem inside]
  rfl

theorem resolved_snd (group : GroupOutbound) : group.resolved.2 = group.primary.2 := by
  rw [GroupOutbound.resolved]
  rcases group.primary with ⟨chosen, after⟩
  cases chosen with
  | error error => rfl
  | ok tag =>
      simp only
      cases after.registry.lookup tag with
      | none => rfl
      | some proxy => rfl

theorem turn_succ {cursor : BitVec 64} {size : Nat} (wraps : cursor.toNat + 1 < 2 ^ 64 ∨ size ∣ 2 ^ 64) :
    (cursor + 1).toNat % size = (cursor.toNat + 1) % size := by
  have sum : (cursor + 1).toNat = (cursor.toNat + 1) % 2 ^ 64 := BitVec.toNat_add cursor 1
  rw [sum]
  rcases wraps with small | divides
  · rw [Nat.mod_eq_of_lt small]
  · exact Nat.mod_mod_of_dvd _ divides

/-- What a step that meets the condition keeps. -/
structure Turning (available : List String) (cursor : Nat) (state : Rotating) : Prop where
  strategy : state.group.strategy = .loadBalance
  position : state.group.cursor.toNat % available.length =
    (cursor + state.served.length) % available.length
  turns : ∀ index < state.served.length,
    state.served[index]? = available[(cursor + index) % available.length]?
  checked : ∀ packet member, state.checked packet = some member → available = [member]
  asked : ∀ pair ∈ state.submitted, ∀ member, pair.1 = some member → pair.2 = some member

theorem Turning.rotates {cursor : Nat} (turning : Turning available cursor state) :
    Rotates available cursor state := by
  refine ⟨turning.turns, fun first enough => ?_, turning.asked⟩
  have window : (state.served.drop first).take available.length =
      available.rotate (cursor + first) := by
    apply List.ext_getElem?
    intro index
    by_cases inside : index < available.length
    · rw [List.getElem?_take_of_lt inside, List.getElem?_drop, List.getElem?_rotate inside,
        turning.turns (first + index) (by omega)]
      congr 2
      omega
    · rw [List.getElem?_eq_none (by rw [List.length_take]; omega),
        List.getElem?_eq_none (by rw [List.length_rotate]; omega)]
  rw [window]
  exact available.rotate_perm _

theorem mod_single (single : available.length = 1) (first second : Nat) :
    first % available.length = second % available.length := by
  rw [single, Nat.mod_one, Nat.mod_one]

/-- A question is only asked of one member, which is the turn of every connection. -/
theorem turn_single {turn : Nat} (single : available.length = 1) (inside : turn < available.length) :
    available = [available[turn]] := by
  rcases List.length_eq_one_iff.mp single with ⟨only, rfl⟩
  rcases Nat.lt_one_iff.mp inside with rfl
  rfl

section

variable {cursor : Nat} (turning : Turning available cursor state)
  (members : state.group.availableMembers = available)

include turning members

theorem turning_serve (wraps : state.group.cursor.toNat + 1 < 2 ^ 64 ∨ available.length ∣ 2 ^ 64) :
    Turning available cursor state.serve := by
  rcases primary_loadBalance turning.strategy members with ⟨inside, chosen⟩
  have served : state.serve.served =
      state.served ++ [available[state.group.cursor.toNat % available.length]] := by
    rw [serve, member, chosen]
    rfl
  have after : state.serve.group = { state.group with cursor := state.group.cursor + 1 } := by
    rw [serve, chosen]
  constructor
  · rw [after]
    exact turning.strategy
  · rw [after, served, List.length_append, List.length_singleton, turn_succ wraps, Nat.add_mod,
      turning.position, ← Nat.add_mod, Nat.add_assoc]
  · intro index less
    rw [served, List.length_append, List.length_singleton] at less
    rw [served]
    by_cases old : index < state.served.length
    · rw [List.getElem?_append_left old]
      exact turning.turns index old
    · have last : index = state.served.length := by omega
      rw [last, List.getElem?_concat_length, ← turning.position, List.getElem?_eq_getElem inside]
  · exact turning.checked
  · exact turning.asked

theorem turning_query (single : available.length = 1) {after : GroupOutbound}
    (asked : after = state.group.primary.2) :
    Turning available cursor { state with group := after } := by
  rcases primary_loadBalance turning.strategy members with ⟨_, chosen⟩
  rw [chosen] at asked
  subst asked
  constructor
  · exact turning.strategy
  · exact mod_single single _ _
  · exact turning.turns
  · exact turning.checked
  · exact turning.asked

theorem turning_next {step : RotationStep} (counts : Counts available state step) :
    Turning available cursor (state.next step) := by
  rcases primary_loadBalance turning.strategy members with ⟨inside, chosen⟩
  have now : state.member = some available[state.group.cursor.toNat % available.length] := by
    rw [member, chosen]
    rfl
  cases step with
  | relayTcp => exact turning_serve turning members (counts.2 (Or.inr trivial))
  | relayUdpPacket => exact turning_serve turning members (counts.2 (Or.inr trivial))
  | udpSubmit packet =>
      have served := turning_serve turning members (counts.2 (Or.inr trivial))
      refine ⟨served.strategy, served.position, served.turns, served.checked, ?_⟩
      intro pair member' asked found
      rcases List.mem_append.mp member' with old | last
      · exact turning.asked pair old asked found
      · rw [List.mem_singleton.mp last] at found ⊢
        have single := turning.checked packet asked found
        have only : ∀ item ∈ available, item = asked := by
          rw [single]
          exact fun item listed => List.mem_singleton.mp listed
        exact now.trans (congrArg some (only _ (List.getElem_mem inside)))
  | supportsUdp packet =>
      have single := counts.1 trivial
      have query := turning_query turning members single
        (show state.group.supportsUdp.2 = state.group.primary.2 from resolved_snd state.group)
      refine ⟨query.strategy, query.position, query.turns, ?_, query.asked⟩
      intro other asked found
      by_cases same : other = packet
      · have here := (if_pos same).symm.trans found
        rw [now] at here
        rw [← Option.some.inj here]
        exact turn_single single inside
      · exact turning.checked other asked ((if_neg same).symm.trans found)
  | serverAddr =>
      exact turning_query turning members (counts.1 trivial) (resolved_snd state.group)
  | effectiveMember => exact turning_query turning members (counts.1 trivial) rfl
  | health event =>
      rcases Watched.observe_frame state.group event with ⟨_, strategy, position⟩
      constructor
      · exact strategy.trans turning.strategy
      · change (state.group.observe event).cursor.toNat % available.length = _
        rw [position]
        exact turning.position
      · exact turning.turns
      · exact turning.checked
      · exact turning.asked

end

theorem turning_start (balances : group.strategy = .loadBalance) :
    Turning available group.cursor.toNat (start group) where
  strategy := balances
  position := rfl
  turns := fun index less => absurd less (Nat.not_lt_zero index)
  checked := fun packet member found => by cases found
  asked := fun pair member => absurd member List.not_mem_nil

/-- While the available members stay the same, and nothing is asked of more than one
of them, a run goes round them.  A question that is asked of more moves the
rotation: what is checked for a packet is not where it goes. -/
theorem rotates_of_run (group : GroupOutbound) (balances : group.strategy = .loadBalance)
    (available : List String) (steps : List RotationStep)
    (fixed : RunAlways next (fun state => state.group.availableMembers = available)
      (start group) steps) :
    (RunMeets next (Counts available) (start group) steps →
        RunAlways next (Rotates available group.cursor.toNat) (start group) steps) ∧
      (2 ≤ available.length → available.Nodup → group.cursor.toNat + 1 < 2 ^ 64 →
        ∃ checked submitted, group.primary.1 = .ok checked ∧
          group.supportsUdp.2.primary.1 = .ok submitted ∧ checked ≠ submitted) := by
  constructor
  · intro counts
    have members : RunMeets next
        (fun state _ => state.group.availableMembers = available) (start group) steps :=
      runMeets_of_runAlways (fun state step holds _ => holds) fixed
    exact runAlways_of_invariant (Turning available group.cursor.toNat)
      (fun state turning => turning.rotates)
      (fun state step turning each => turning_next turning each.1 each.2)
      (turning_start balances) (runMeets_and members counts)
  · intro several distinct room
    have members : group.availableMembers = available := by
      cases steps with
      | nil => exact fixed
      | cons step steps => exact fixed.1
    have asked : group.supportsUdp.2 = group.primary.2 := resolved_snd group
    rcases primary_loadBalance balances members with ⟨inside, first⟩
    have after : group.supportsUdp.2 = { group with cursor := group.cursor + 1 } := by
      rw [asked, first]
    have balances' : group.supportsUdp.2.strategy = .loadBalance := by rw [after]; exact balances
    have members' : group.supportsUdp.2.availableMembers = available := by
      rw [after]
      exact members
    rcases primary_loadBalance balances' members' with ⟨inside', second⟩
    refine ⟨_, _, congrArg Prod.fst first, congrArg Prod.fst second, ?_⟩
    intro same
    have turns := (@List.Nodup.getElem_inj_iff _ _ distinct _ inside _ inside').mp same
    have cursor : group.supportsUdp.2.cursor = group.cursor + 1 := by rw [after]
    rw [cursor, turn_succ (Or.inl room)] at turns
    have apart := Nat.sub_mod_eq_zero_of_mod_eq turns.symm
    rw [Nat.add_sub_cancel_left, Nat.mod_eq_of_lt several] at apart
    exact Nat.one_ne_zero apart

theorem rotates_pair :
    RunAlways next (Rotates ["A", "B"] 0) (start (Watched.pair .loadBalance))
      [.relayTcp, .relayUdpPacket, .udpSubmit 0] := by
  refine (rotates_of_run (Watched.pair .loadBalance) rfl ["A", "B"] _ ?_).1 ?_
  · exact ⟨rfl, rfl, rfl, rfl⟩
  · refine ⟨⟨fun query => query.elim, fun _ => Or.inl (by decide)⟩,
      ⟨fun query => query.elim, fun _ => Or.inl (by decide)⟩,
      ⟨fun query => query.elim, fun _ => Or.inl (by decide)⟩, trivial⟩

/-- Two packets, each checked and then submitted: one member is asked about both and
the other gets both. -/
theorem checked_packets_do_not_rotate :
    RunAlways next (fun state => state.group.availableMembers = ["A", "B"])
        (start (Watched.pair .loadBalance))
        [.supportsUdp 0, .udpSubmit 0, .supportsUdp 1, .udpSubmit 1] ∧
      (run next (start (Watched.pair .loadBalance))
        [.supportsUdp 0, .udpSubmit 0, .supportsUdp 1, .udpSubmit 1]).submitted =
        [(some "A", some "B"), (some "A", some "B")] ∧
      ¬ RunAlways next (Rotates ["A", "B"] 0) (start (Watched.pair .loadBalance))
        [.supportsUdp 0, .udpSubmit 0, .supportsUdp 1, .udpSubmit 1] := by
  have swapped : (run next (start (Watched.pair .loadBalance))
      [.supportsUdp 0, .udpSubmit 0, .supportsUdp 1, .udpSubmit 1]).submitted =
      [(some "A", some "B"), (some "A", some "B")] := by
    rfl
  refine ⟨⟨rfl, rfl, rfl, rfl, rfl⟩, swapped, fun always => ?_⟩
  have asked := (run_of_runAlways always).asked
  rw [swapped] at asked
  exact absurd (asked _ List.mem_cons_self "A" rfl) (by decide)

end Rotating

end Corduit.Engine.Outbound
