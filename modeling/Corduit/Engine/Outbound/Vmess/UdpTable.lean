import Corduit.Transition.Guards

/-!
# The table of UDP sessions

Sessions are kept in a sharded map.  A lookup gives a guard of its shard, and
the block that looks at the session has the guard to its end, so the expired
session is removed with the guard in hand.  The table may change and the clock
goes on between two accesses.
-/

namespace Corduit.Engine.Outbound.Vmess

open Transition Transition.Guards

/-- When a session was last used, in nanoseconds; nothing when its lock is poisoned. -/
structure TableSession where
  lastUsed : Option Nat
deriving DecidableEq, Repr

/-- `Duration::from_secs`. -/
def fromSecs (seconds : Nat) : Nat :=
  seconds * 1000000000

/-- Whether the session was idle for too long. -/
def TableSession.isExpired (session : TableSession) (now timeout : Nat) : Bool :=
  match session.lastUsed with
  | some used => timeout < now - used
  | none => true

/-- Note the use. -/
def TableSession.touch (session : TableSession) (now : Nat) : TableSession :=
  match session.lastUsed with
  | some _ => ⟨some now⟩
  | none => session

/-- `udp_sessions`: its shards, what is in it when the thread makes its access of this number,
and the clock then. -/
structure UdpTable where
  shards : List Nat
  shardOf : String → Nat
  sessions : Nat → List (String × TableSession)
  clock : Nat → Nat

namespace UdpTable

variable (table : UdpTable)

/-- `iter`, with the keys of the sessions that have expired: one shard after the other, with a
guard each. -/
def expiredKeys : (shards : List Nat) → (index : Nat) → List (Access Nat) × List String
  | [], _ => ([], [])
  | shard :: shards, index =>
      let expired := (table.sessions index).filter fun entry =>
        table.shardOf entry.1 = shard ∧ entry.2.isExpired (table.clock index) (fromSecs 120)
      let (trace, keys) := expiredKeys shards (index + 2)
      (.acquire shard :: .release shard :: trace, expired.map Prod.fst ++ keys)

/-- `remove`, or `insert`. -/
def writes (key : String) : Access Nat :=
  .write (table.shardOf key)

/-- `cleanup_udp_sessions`, from the access with this number on. -/
def cleanupUdpSessions (index : Nat) : List (Access Nat) :=
  let (trace, expired) := table.expiredKeys table.shards index
  trace ++ expired.map table.writes

/-- What follows when there is no session to return: the cleanup, and the new session if the
server is reached. -/
def createUdpSession (sessionKey : String) (connected : Except String TableSession)
    (index : Nat) : Except String TableSession × List (Access Nat) :=
  let cleanup := table.cleanupUdpSessions index
  match connected with
  | .error error => (.error error, cleanup)
  | .ok session => (.ok session, cleanup ++ [table.writes sessionKey])

/-- `get_or_create_udp_session`: the session, and the accesses to the table. -/
def getOrCreateUdpSession (sessionKey : String) (connected : Except String TableSession) :
    Except String TableSession × List (Access Nat) :=
  let shard := table.shardOf sessionKey
  match (table.sessions 0).lookup sessionKey with
  | some session =>
      if session.isExpired (table.clock 0) (fromSecs 60) = false then
        (.ok (session.touch (table.clock 0)), [.acquire shard, .release shard])
      else
        -- The guard is dropped behind the block, after the removal.
        let (result, trace) := table.createUdpSession sessionKey connected 3
        (result, .acquire shard :: table.writes sessionKey :: .release shard :: trace)
  | none =>
      let (result, trace) := table.createUdpSession sessionKey connected 2
      (result, .acquire shard :: .release shard :: trace)

section Hands

variable {table} {sessionKey : String} {connected : Except String TableSession} {index : Nat}

theorem holds_guard (shard : Nat) (trace : List (Access Nat)) :
    holds [] (.acquire shard :: .release shard :: trace) = holds [] trace := by
  simp [Access.after]

theorem safe_guard (shard : Nat) (trace : List (Access Nat)) :
    Safe (.acquire shard :: .release shard :: trace) ↔ Safe trace := by
  simp [Safe, SafeFrom, Access.after]

theorem settled_expiredKeys (shards : List Nat) :
    Settled (table.expiredKeys shards index).1 ∧ Safe (table.expiredKeys shards index).1 := by
  induction shards generalizing index with
  | nil => exact ⟨rfl, trivial⟩
  | cons shard shards ih =>
      constructor
      · exact (holds_guard shard _).trans ih.1
      · exact (safe_guard shard _).mpr ih.2

theorem settled_writes (keys : List String) :
    Settled (keys.map table.writes) ∧ Safe (keys.map table.writes) := by
  induction keys with
  | nil => exact ⟨rfl, trivial⟩
  | cons key keys ih => exact ⟨ih.1, rfl, ih.2⟩

theorem cleanup_orderly (table : UdpTable) (index : Nat) :
    Settled (table.cleanupUdpSessions index) ∧ Safe (table.cleanupUdpSessions index) := by
  rcases @settled_expiredKeys table index table.shards with ⟨settled, safe⟩
  rcases @settled_writes table (table.expiredKeys table.shards index).2 with ⟨settled', safe'⟩
  constructor
  · exact (settled_append settled).mpr settled'
  · exact (safe_append settled).mpr ⟨safe, safe'⟩

theorem create_orderly (table : UdpTable) (sessionKey : String)
    (connected : Except String TableSession) (index : Nat) :
    Settled (table.createUdpSession sessionKey connected index).2 ∧
      Safe (table.createUdpSession sessionKey connected index).2 := by
  have cleanup := cleanup_orderly table index
  cases connected with
  | error error => exact cleanup
  | ok session =>
      constructor
      · exact (settled_append cleanup.1).mpr rfl
      · exact (safe_append cleanup.1).mpr ⟨cleanup.2, rfl, trivial⟩

/-- The session that the lookup finds can still be used, if it finds one. -/
def Usable (table : UdpTable) (sessionKey : String) : Prop :=
  ∀ session, (table.sessions 0).lookup sessionKey = some session →
    session.isExpired (table.clock 0) (fromSecs 60) = false

variable (table : UdpTable) (sessionKey : String) (connected : Except String TableSession)

theorem getOrCreate_settled :
    Settled (table.getOrCreateUdpSession sessionKey connected).2 := by
  unfold getOrCreateUdpSession
  split
  · split
    · exact holds_guard _ _
    · have settled := (create_orderly table sessionKey connected 3).1
      simpa [Settled, Access.after, writes] using settled
  · exact (holds_guard _ _).trans (create_orderly table sessionKey connected 2).1

/-- A call never writes with a guard in hand exactly when it finds no session that has
expired. -/
theorem getOrCreate_safe_iff :
    Safe (table.getOrCreateUdpSession sessionKey connected).2 ↔ table.Usable sessionKey := by
  unfold getOrCreateUdpSession Usable
  cases found : (table.sessions 0).lookup sessionKey with
  | none =>
      have safe := (create_orderly table sessionKey connected 2).2
      simp [safe_guard, safe]
  | some session =>
      by_cases usable : session.isExpired (table.clock 0) (fromSecs 60) = false
      · simp [usable, Safe, SafeFrom]
      · simp [usable, Safe, SafeFrom, Access.after, writes]

end Hands

/-- Neither function ever asks for write access with a guard in hand, if and only if the lookup
finds no session that has expired. -/
theorem table_safe_iff (sessionKey : String) (connected : Except String TableSession) :
    (Safe (table.getOrCreateUdpSession sessionKey connected).2 ∧
        ∀ (other : UdpTable) (index : Nat), Safe (other.cleanupUdpSessions index)) ↔
      table.Usable sessionKey := by
  constructor
  · rintro ⟨safe, _⟩
    exact (getOrCreate_safe_iff table sessionKey connected).mp safe
  · intro usable
    constructor
    · exact (getOrCreate_safe_iff table sessionKey connected).mpr usable
    · intro other index
      exact (cleanup_orderly other index).2

/-- A table with a session that has been idle for 61 seconds. -/
def idleTable : UdpTable where
  shards := [0, 1]
  shardOf key := key.length % 2
  sessions _ := [("example.org:53", ⟨some 0⟩)]
  clock _ := fromSecs 61

theorem idleTable_unsafe :
    ¬ Safe (idleTable.getOrCreateUdpSession "example.org:53" (.error "unreachable")).2 := by
  decide

section Threads

variable {pool : List (Thread Nat)} {index : Nat}

/-- A thread that makes a call. -/
def caller (sessionKey : String) (connected : Except String TableSession) : Thread Nat :=
  ⟨[], (table.getOrCreateUdpSession sessionKey connected).2⟩

/-- Callers that find no expired session never lock each other out. -/
theorem callers_granted (callers : List (UdpTable × String × Except String TableSession))
    (usable : ∀ caller ∈ callers, caller.1.Usable caller.2.1) (schedule : List Nat)
    {thread : Thread Nat}
    (member : thread ∈ run step (callers.map fun (table, key, connected) =>
      table.caller key connected) schedule) (unfinished : thread.ahead ≠ []) :
    ∃ other ∈ run step (callers.map fun (table, key, connected) =>
        table.caller key connected) schedule,
      ∃ access rest, other.ahead = access :: rest ∧
        Granted (run step (callers.map fun (table, key, connected) =>
          table.caller key connected) schedule) access := by
  refine run_granted ?_ schedule member unfinished
  intro thread member
  rcases List.mem_map.mp member with ⟨⟨table, key, connected⟩, listed, rfl⟩
  constructor
  · exact (getOrCreate_safe_iff table key connected).mpr (usable _ listed)
  · exact getOrCreate_settled table key connected

/-- Two callers of other keys, in the same shard. -/
def twoCallers : List (UdpTable × String × Except String TableSession) :=
  [(idleTable, "a", .ok ⟨some 0⟩), (idleTable, "b", .ok ⟨some 0⟩)]

theorem callers_granted_waiting :
    let pool := run step (twoCallers.map fun (table, key, connected) =>
      table.caller key connected) [0, 0, 0, 0, 0, 0, 1, 0]
    (pool.map (·.ahead.head?) = [some (.write 1), some (.release 1)] ∧
        ¬ Granted pool (.write 1)) ∧
      ∃ other ∈ pool, ∃ access rest, other.ahead = access :: rest ∧ Granted pool access :=
  ⟨by decide, callers_granted twoCallers
    (by simp [twoCallers, Usable, idleTable, List.lookup_cons]) [0, 0, 0, 0, 0, 0, 1, 0]
    List.mem_cons_self (by decide)⟩

/-- A caller that has found an expired session waits for itself, whatever the others do. -/
theorem caller_stuck {sessionKey : String} {connected : Except String TableSession}
    {session : TableSession} (found : (table.sessions 0).lookup sessionKey = some session)
    (expired : session.isExpired (table.clock 0) (fromSecs 60) = true)
    (located : pool[index]? = some (table.caller sessionKey connected)) (schedule : List Nat) :
    ∃ rest, (run step (step pool index) schedule)[index]? =
      some ⟨[table.shardOf sessionKey], table.writes sessionKey :: rest⟩ := by
  have inside : index < pool.length := (List.getElem?_eq_some_iff.mp located).1
  have ahead : ∃ rest, (table.getOrCreateUdpSession sessionKey connected).2 =
      .acquire (table.shardOf sessionKey) :: table.writes sessionKey :: rest := by
    simp [getOrCreateUdpSession, found, expired]
  rcases ahead with ⟨rest, ahead⟩
  have taken : (step pool index)[index]? =
      some ⟨[table.shardOf sessionKey], table.writes sessionKey :: rest⟩ := by
    rw [step, located]
    simp only [caller, ahead]
    have granted : Granted pool (.acquire (table.shardOf sessionKey)) := trivial
    rw [if_pos granted]
    exact List.getElem?_set_self inside
  exact ⟨rest, stuck_run taken List.mem_cons_self rfl schedule⟩

theorem caller_stuck_idle :
    let pool := [idleTable.caller "example.org:53" (.error "unreachable"),
      idleTable.caller "a" (.ok ⟨some 0⟩)]
    ((run step (step pool 0) [1, 0, 1, 1, 1, 0, 1, 1, 1, 0])[1]?.map (·.ahead) = some []) ∧
      ∃ rest, (run step (step pool 0) [1, 0, 1, 1, 1, 0, 1, 1, 1, 0])[0]? =
        some ⟨[idleTable.shardOf "example.org:53"], idleTable.writes "example.org:53" :: rest⟩ :=
  ⟨by decide, caller_stuck idleTable rfl (by decide) rfl [1, 0, 1, 1, 1, 0, 1, 1, 1, 0]⟩

end Threads

end UdpTable

end Corduit.Engine.Outbound.Vmess
