import Corduit.Collection.First
import Corduit.Engine.RuleProvider

/-!
# Proxy groups

A group is a policy over other outbounds: it decides which member serves a
connection, from the user's choice, from what is known of the members' health
or in rotation.  A group has at least one member; building one without is an
error.

Durations are nanoseconds.  The rotation cursor is a machine word, and wraps.
-/

namespace Corduit.Engine.Outbound

open Collection Engine Word

/-- Failures after which a member is dead. -/
def FAILURES_BEFORE_DEAD : Nat :=
  2

/-- How a group chooses. -/
inductive GroupStrategy where
  | select
  | urlTest
  | fallback
  | loadBalance
  | relay
deriving DecidableEq, Repr

/-- What the group knows about one member: the measured round-trip time of the last
successful probe, and the failures since the last success. -/
structure MemberHealth where
  latency : Option Nat := none
  consecutiveFailures : Nat := 0
deriving DecidableEq, Repr

/-- Too many failures in a row make a member unavailable. -/
def MemberHealth.isAvailable (state : MemberHealth) : Bool :=
  state.consecutiveFailures < FAILURES_BEFORE_DEAD

/-- `u32::saturating_add` of one. -/
def saturatingSucc (count : Nat) : Nat :=
  min (count + 1) (2 ^ 32 - 1)

/-- What the group asks a member's proxy. -/
structure Proxy where
  supportsUdp : Bool
  serverAddr : Option (String × BitVec 16)
deriving DecidableEq, Repr

/-- `GroupOutbound`; `selection` is the entry of the group in the table of manual
selections. -/
structure GroupOutbound where
  tag : String
  strategy : GroupStrategy
  members : List String
  nonempty : members ≠ []
  registry : Table String Proxy
  selection : Option String
  health : Table String MemberHealth
  cursor : BitVec 64

namespace GroupOutbound

/-- What is known of a member; of a new one nothing is. -/
def healthOf (group : GroupOutbound) (tag : String) : MemberHealth :=
  (group.health.lookup tag).getD {}

/-- A success, with a latency if one was measured. -/
def recordSuccess (group : GroupOutbound) (tag : String) (latency : Option Nat) :
    GroupOutbound :=
  let state := group.healthOf tag
  let state := ⟨latency.orElse fun _ => state.latency, 0⟩
  { group with health := group.health.insert tag state }

/-- A failure. -/
def recordFailure (group : GroupOutbound) (tag : String) : GroupOutbound :=
  let state := group.healthOf tag
  let state := { state with consecutiveFailures := saturatingSucc state.consecutiveFailures }
  { group with health := group.health.insert tag state }

/-- A manual selection counts when it is a member. -/
def manualSelection (group : GroupOutbound) : Option String :=
  group.selection.filter fun tag => group.members.contains tag

/-- The members that may be chosen, or all when there is none. -/
def availableMembers (group : GroupOutbound) : List String :=
  let available := group.members.filter fun tag =>
    ((group.health.lookup tag).map MemberHealth.isAvailable).getD true
  if available.isEmpty then group.members else available

/-- The error of an empty group. -/
def emptyGroupError (group : GroupOutbound) : Error :=
  .config ("Proxy group '" ++ group.tag ++ "' has no selectable member")

/-- The available member of least latency. -/
def fastestMember (group : GroupOutbound) : Option String :=
  firstBest (fun tag => (group.health.lookup tag).bind MemberHealth.latency)
    group.availableMembers

/-- The answer for a member that may be missing. -/
def orEmpty (group : GroupOutbound) (member : Option String) : Except Error String :=
  match member with
  | some tag => .ok tag
  | none => .error group.emptyGroupError

/-- The member that serves, and the group after it was chosen. -/
def primary (group : GroupOutbound) : Except Error String × GroupOutbound :=
  match group.strategy with
  | .select =>
      (group.orEmpty (group.manualSelection.orElse fun _ => group.members.head?), group)
  | .relay => (group.orEmpty group.members.head?, group)
  | .fallback => (group.orEmpty group.availableMembers.head?, group)
  | .urlTest => (group.orEmpty group.fastestMember, group)
  | .loadBalance =>
      let available := group.availableMembers
      if available.isEmpty then
        (.error group.emptyGroupError, group)
      else
        (group.orEmpty available[group.cursor.toNat % available.length]?,
          { group with cursor := group.cursor + 1 })

/-- The proxy of the member that serves. -/
def resolved (group : GroupOutbound) : Except Error Proxy × GroupOutbound :=
  match group.primary with
  | (.error error, group) => (.error error, group)
  | (.ok tag, group) =>
      match group.registry.lookup tag with
      | some proxy => (.ok proxy, group)
      | none => (.error (.config ("Proxy group '" ++ group.tag ++ "' selected '" ++ tag ++
          "', which is not in the registry")), group)

/-- The member that would be used. -/
def effectiveMember (group : GroupOutbound) : Option String × GroupOutbound :=
  let (member, group) := group.primary
  (member.toOption, group)

/-- Whether the member carries UDP. -/
def supportsUdp (group : GroupOutbound) : Bool × GroupOutbound :=
  let (proxy, group) := group.resolved
  ((proxy.toOption.map Proxy.supportsUdp).getD false, group)

/-- The address of the member. -/
def serverAddr (group : GroupOutbound) : Option (String × BitVec 16) × GroupOutbound :=
  let (proxy, group) := group.resolved
  (proxy.toOption.bind Proxy.serverAddr, group)

variable (group : GroupOutbound)

theorem healthOf_recordSuccess (tag other : String) (latency : Option Nat) :
    (group.recordSuccess tag latency).healthOf other =
      if other = tag then
        ⟨latency.orElse fun _ => (group.healthOf tag).latency, 0⟩
      else
        group.healthOf other := by
  by_cases same : other = tag
  · rw [if_pos same, same, healthOf, recordSuccess, AList.lookup_insert]
    rfl
  · rw [if_neg same, healthOf, recordSuccess, AList.lookup_insert_ne same]
    rfl

theorem healthOf_recordFailure (tag other : String) :
    (group.recordFailure tag).healthOf other =
      if other = tag then
        ⟨(group.healthOf tag).latency,
          saturatingSucc (group.healthOf tag).consecutiveFailures⟩
      else
        group.healthOf other := by
  by_cases same : other = tag
  · rw [if_pos same, same, healthOf, recordFailure, AList.lookup_insert]
    rfl
  · rw [if_neg same, healthOf, recordFailure, AList.lookup_insert_ne same]
    rfl

theorem available_eq (tag : String) :
    ((group.health.lookup tag).map MemberHealth.isAvailable).getD true =
      (group.healthOf tag).isAvailable := by
  rw [healthOf]
  cases group.health.lookup tag with
  | none => rfl
  | some state => rfl

theorem latency_eq (tag : String) :
    (group.health.lookup tag).bind MemberHealth.latency = (group.healthOf tag).latency := by
  rw [healthOf]
  cases group.health.lookup tag with
  | none => rfl
  | some state => rfl

theorem availableMembers_ne_nil : group.availableMembers ≠ [] := by
  rw [availableMembers]
  split
  · exact group.nonempty
  · rename_i some
    intro none
    exact some (List.isEmpty_iff.mpr none)

end GroupOutbound

end Corduit.Engine.Outbound
