import Corduit.Collection.Table
import Corduit.Netstack.Tcp.Core

/-!
# The NAT table

Flows are tracked by their address pair, once for TCP and once for UDP.  Each
tracked flow is given a local port from a range by a counter that both
protocols share, and a reverse table maps the port back to the flow.

The two protocols are handled alike, so one half of the table is defined once
and used twice.  The clock is read once in each call.
-/

namespace Corduit.Netstack.Nat

open Collection Netstack.Tcp Transition

/-- The states of a flow. -/
inductive NatState where
  | active
  | establishing
  | closing
  | closed
  deriving DecidableEq, Repr

/-- A flow. -/
structure NatEntry where
  src : SocketAddr
  dst : SocketAddr
  localPort : BitVec 16
  created : Nat
  lastActive : Nat
  bytesTx : BitVec 64
  bytesRx : BitVec 64
  state : NatState
  domain : Option String
  deriving DecidableEq, Repr

/-- The port range is not empty: the allocation divides by its size. -/
structure NatConfig where
  maxEntries : Nat := 65536
  tcpTimeout : Nat := 300
  udpTimeout : Nat := 60
  portStart : BitVec 16 := 10000
  portEnd : BitVec 16 := 60000
  ports : portStart < portEnd := by decide

/-- The flows of one protocol, by address pair and by local port. -/
structure Half where
  entries : Table NatKey NatEntry
  reverse : Table (BitVec 16) NatKey

/-- The flows and the next port. -/
structure NatTable where
  tcp : Half
  udp : Half
  config : NatConfig
  nextPort : BitVec 64

namespace Half

/-- No flows. -/
def empty : Half where
  entries := ∅
  reverse := ∅

/-- A flow that is not tracked yet, while there is room for it. -/
def Admits (half : Half) (config : NatConfig) (key : NatKey) : Prop :=
  half.entries.lookup key = none ∧ half.entries.size < config.maxEntries

instance (half : Half) (config : NatConfig) (key : NatKey) : Decidable (half.Admits config key) :=
  inferInstanceAs (Decidable (_ ∧ _))

/-- Record an entry under its address pair and under its port. -/
def record (half : Half) (key : NatKey) (entry : NatEntry) : Half where
  entries := half.entries.insert key entry
  reverse := half.reverse.insert entry.localPort key

/-- Forget a flow under its address pair and under its port. -/
def remove (half : Half) (key : NatKey) : Half :=
  match half.entries.lookup key with
  | none => half
  | some entry =>
      { entries := half.entries.erase key
        reverse := half.reverse.erase entry.localPort }

/-- Forget every flow that is over. -/
def sweep (half : Half) (expired : NatEntry → Bool) : Half :=
  (Table.keysWhere half.entries fun _ entry => expired entry).foldl remove half

end Half

namespace NatTable

/-- A table without flows. -/
def withConfig (config : NatConfig) : NatTable where
  tcp := .empty
  udp := .empty
  config := config
  nextPort := config.portStart.setWidth 64

/-- The port that the counter stands for. -/
def portOf (config : NatConfig) (count : BitVec 64) : BitVec 16 :=
  let range := (config.portEnd - config.portStart).setWidth 64
  config.portStart + ((count - config.portStart.setWidth 64) % range).setWidth 16

/-- The next port in turn. -/
def allocPort (table : NatTable) : BitVec 16 × NatTable :=
  (portOf table.config table.nextPort, { table with nextPort := table.nextPort + 1 })

/-- The entry of a new flow. -/
def newEntry (src dst : SocketAddr) (localPort : BitVec 16) (now : Nat) (state : NatState)
    (domain : Option String) : NatEntry where
  src := src
  dst := dst
  localPort := localPort
  created := now
  lastActive := now
  bytesTx := 0
  bytesRx := 0
  state := state
  domain := domain

/-- A TCP flow goes in. -/
def insertTcp (table : NatTable) (src dst : SocketAddr) (domain : Option String) (now : Nat) :
    NatTable × Except SolidTcpError NatEntry :=
  match table.tcp.entries.lookup ⟨src, dst⟩ with
  | some entry => (table, .ok entry)
  | none =>
      if table.config.maxEntries ≤ table.tcp.entries.size then
        (table, .error (.natTableFull table.config.maxEntries))
      else
        let (localPort, table) := table.allocPort
        let entry := newEntry src dst localPort now .establishing domain
        ({ table with tcp := table.tcp.record ⟨src, dst⟩ entry }, .ok entry)

/-- A UDP flow goes in. -/
def insertUdp (table : NatTable) (src dst : SocketAddr) (domain : Option String) (now : Nat) :
    NatTable × Except SolidTcpError NatEntry :=
  match table.udp.entries.lookup ⟨src, dst⟩ with
  | some entry => (table, .ok entry)
  | none =>
      if table.config.maxEntries ≤ table.udp.entries.size then
        (table, .error (.natTableFull table.config.maxEntries))
      else
        let (localPort, table) := table.allocPort
        let entry := newEntry src dst localPort now .active domain
        ({ table with udp := table.udp.record ⟨src, dst⟩ entry }, .ok entry)

/-- A flow changes its state. -/
def updateTcpState (table : NatTable) (src dst : SocketAddr) (state : NatState) (now : Nat) :
    NatTable :=
  match table.tcp.entries.lookup ⟨src, dst⟩ with
  | none => table
  | some entry =>
      let entry := { entry with state := state, lastActive := now }
      { table with tcp := { table.tcp with entries := table.tcp.entries.insert ⟨src, dst⟩ entry } }

/-- A TCP flow goes. -/
def removeTcp (table : NatTable) (src dst : SocketAddr) : NatTable :=
  { table with tcp := table.tcp.remove ⟨src, dst⟩ }

/-- A UDP flow goes. -/
def removeUdp (table : NatTable) (src dst : SocketAddr) : NatTable :=
  { table with udp := table.udp.remove ⟨src, dst⟩ }

/-- Idle flows go. -/
def cleanup (table : NatTable) (now : Nat) : NatTable :=
  { table with
    tcp := table.tcp.sweep fun entry =>
      decide (table.config.tcpTimeout < now - entry.lastActive) || decide (entry.state = .closed)
    udp := table.udp.sweep fun entry =>
      decide (table.config.udpTimeout < now - entry.lastActive) }

/-- All flows go. -/
def clear (table : NatTable) : NatTable :=
  { table with
    tcp := .empty
    udp := .empty }

end NatTable

/-- One call on the table, with what it reads from the clock. -/
inductive NatOp where
  | insertTcp (src dst : SocketAddr) (domain : Option String) (now : Nat)
  | insertUdp (src dst : SocketAddr) (domain : Option String) (now : Nat)
  | removeTcp (src dst : SocketAddr)
  | removeUdp (src dst : SocketAddr)
  | updateTcpState (src dst : SocketAddr) (state : NatState) (now : Nat)
  | cleanup (now : Nat)
  | clear

/-- One call. -/
def NatTable.step (table : NatTable) : NatOp → NatTable
  | .insertTcp src dst domain now => (table.insertTcp src dst domain now).1
  | .insertUdp src dst domain now => (table.insertUdp src dst domain now).1
  | .removeTcp src dst => table.removeTcp src dst
  | .removeUdp src dst => table.removeUdp src dst
  | .updateTcpState src dst state now => table.updateTcpState src dst state now
  | .cleanup now => table.cleanup now
  | .clear => table.clear

/-!
# The two directions of the NAT table

A local port should lead back to the one flow that it was given to.  Ports are
handed out round-robin without a look at who still holds them, so after a full
round a new flow can be given the port of a live one; its reverse entry then
replaces the other's, and removing either flow removes the reverse entry of
both.

The tables agree throughout a run exactly when no flow is given a port that a
live flow of the same protocol holds.
-/

namespace Half

/-- A port maps to a flow exactly when the flow holds the port. -/
def Agrees (half : Half) : Prop :=
  ∀ port key, half.reverse.lookup port = some key ↔
    ∃ entry, half.entries.lookup key = some entry ∧ entry.localPort = port

/-- No flow holds the port. -/
def PortFree (half : Half) (port : BitVec 16) : Prop :=
  ∀ key entry, half.entries.lookup key = some entry → entry.localPort ≠ port

/-- The two directions agree, no two flows share a port, and removing a flow
leaves the reverse entries of the others. -/
structure Sound (half : Half) : Prop where
  agrees : half.Agrees
  distinct : ∀ first second entry other, half.entries.lookup first = some entry →
    half.entries.lookup second = some other → entry.localPort = other.localPort → first = second
  removal : ∀ key other entry, other ≠ key → half.entries.lookup other = some entry →
    (half.remove key).reverse.lookup entry.localPort = some other

variable {half : Half}

theorem agrees_empty : empty.Agrees := by
  intro port key
  simp [empty]

theorem Agrees.injective (agrees : half.Agrees) {first second : NatKey}
    {entry other : NatEntry} (firstAt : half.entries.lookup first = some entry)
    (secondAt : half.entries.lookup second = some other)
    (same : entry.localPort = other.localPort) : first = second := by
  have firstNamed := (agrees entry.localPort first).mpr ⟨entry, firstAt, rfl⟩
  have secondNamed := (agrees entry.localPort second).mpr ⟨other, secondAt, same.symm⟩
  exact Option.some.inj (firstNamed.symm.trans secondNamed)

theorem Agrees.remove (agrees : half.Agrees) (key : NatKey) : (half.remove key).Agrees := by
  unfold Half.remove
  cases located : half.entries.lookup key with
  | none => exact agrees
  | some entry =>
      intro port other
      by_cases samePort : port = entry.localPort
      · subst samePort
        simp only [AList.lookup_erase, reduceCtorEq, false_iff, not_exists, not_and]
        intro found foundAt holds
        by_cases sameKey : other = key
        · subst sameKey
          simp at foundAt
        · rw [AList.lookup_erase_ne sameKey] at foundAt
          exact sameKey (agrees.injective foundAt located holds)
      · rw [AList.lookup_erase_ne samePort, agrees]
        by_cases sameKey : other = key
        · subst sameKey
          simp only [located, AList.lookup_erase, reduceCtorEq, false_and, exists_false,
            Option.some.injEq, exists_eq_left', iff_false]
          exact fun holds => samePort holds.symm
        · rw [AList.lookup_erase_ne sameKey]

theorem lookup_remove_ne {key other : NatKey} (different : other ≠ key) :
    (half.remove key).entries.lookup other = half.entries.lookup other := by
  unfold Half.remove
  split
  · rfl
  · exact AList.lookup_erase_ne different

theorem Agrees.sound (agrees : half.Agrees) : half.Sound where
  agrees := agrees
  distinct _ _ _ _ firstAt secondAt same := agrees.injective firstAt secondAt same
  removal key other entry different located := by
    rw [agrees.remove key]
    exact ⟨entry, (lookup_remove_ne different).trans located, rfl⟩

theorem sound_iff_agrees : half.Sound ↔ half.Agrees :=
  ⟨Sound.agrees, Agrees.sound⟩

theorem Agrees.sweep (agrees : half.Agrees) (expired : NatEntry → Bool) :
    (half.sweep expired).Agrees := by
  unfold Half.sweep
  generalize Table.keysWhere half.entries _ = keys
  induction keys generalizing half with
  | nil => exact agrees
  | cons key keys ih => exact ih (agrees.remove key)

theorem Agrees.update (agrees : half.Agrees) {key : NatKey} {entry entry' : NatEntry}
    (located : half.entries.lookup key = some entry)
    (same : entry'.localPort = entry.localPort) :
    Agrees { half with entries := half.entries.insert key entry' } := by
  intro port other
  rw [agrees]
  by_cases sameKey : other = key
  · subst sameKey
    simp [located, same]
  · rw [AList.lookup_insert_ne sameKey]

/-- A new flow keeps the agreement exactly when its port is free. -/
theorem Agrees.record_iff (agrees : half.Agrees) {key : NatKey} (entry : NatEntry)
    (absent : half.entries.lookup key = none) :
    (half.record key entry).Agrees ↔ half.PortFree entry.localPort := by
  have elsewhere : ∀ {other found}, half.entries.lookup other = some found → other ≠ key := by
    rintro other found located rfl
    rw [absent] at located
    cases located
  constructor
  · intro agrees' other found located samePort
    have kept : (half.record key entry).entries.lookup other = some found :=
      (AList.lookup_insert_ne (elsewhere located)).trans located
    have new : (half.record key entry).entries.lookup key = some entry := AList.lookup_insert _
    exact elsewhere located (agrees'.injective kept new samePort)
  · intro free port other
    unfold Half.record
    by_cases samePort : port = entry.localPort
    · subst samePort
      rw [AList.lookup_insert, Option.some.injEq]
      constructor
      · rintro rfl
        exact ⟨entry, AList.lookup_insert _, rfl⟩
      · rintro ⟨found, located, holds⟩
        by_cases sameKey : other = key
        · exact sameKey.symm
        · rw [AList.lookup_insert_ne sameKey] at located
          exact absurd holds (free other found located)
    · rw [AList.lookup_insert_ne samePort, agrees]
      by_cases sameKey : other = key
      · subst sameKey
        simp only [absent, reduceCtorEq, false_and, exists_false, AList.lookup_insert,
          Option.some.injEq, exists_eq_left', false_iff]
        exact fun holds => samePort holds.symm
      · rw [AList.lookup_insert_ne sameKey]

end Half

namespace NatTable

/-- Both protocols are sound. -/
def Sound (table : NatTable) : Prop :=
  table.tcp.Sound ∧ table.udp.Sound

/-- A call that tracks a new flow gives it a port that no live flow of its
protocol holds. -/
def Fresh (table : NatTable) : NatOp → Prop
  | .insertTcp src dst _ _ =>
      table.tcp.Admits table.config ⟨src, dst⟩ →
        table.tcp.PortFree (portOf table.config table.nextPort)
  | .insertUdp src dst _ _ =>
      table.udp.Admits table.config ⟨src, dst⟩ →
        table.udp.PortFree (portOf table.config table.nextPort)
  | _ => True

variable {table : NatTable}

theorem sound_iff : table.Sound ↔ table.tcp.Agrees ∧ table.udp.Agrees :=
  and_congr Half.sound_iff_agrees Half.sound_iff_agrees

section

variable (table : NatTable) (src dst : SocketAddr) (domain : Option String) (now : Nat)

theorem insertTcp_cases :
    (¬ table.tcp.Admits table.config ⟨src, dst⟩ ∧ (table.insertTcp src dst domain now).1 = table) ∨
    (table.tcp.Admits table.config ⟨src, dst⟩ ∧
      (table.insertTcp src dst domain now).1.tcp = table.tcp.record ⟨src, dst⟩
        (newEntry src dst (portOf table.config table.nextPort) now .establishing domain) ∧
      (table.insertTcp src dst domain now).1.udp = table.udp) := by
  unfold insertTcp Half.Admits
  cases located : table.tcp.entries.lookup ⟨src, dst⟩ with
  | some entry => exact Or.inl ⟨by simp, rfl⟩
  | none =>
      dsimp only
      split
      · rename_i full
        exact Or.inl ⟨fun admits => absurd admits.2 (Nat.not_lt.mpr full), rfl⟩
      · rename_i room
        exact Or.inr ⟨⟨rfl, Nat.lt_of_not_le room⟩, rfl, rfl⟩

theorem insertUdp_cases :
    (¬ table.udp.Admits table.config ⟨src, dst⟩ ∧ (table.insertUdp src dst domain now).1 = table) ∨
    (table.udp.Admits table.config ⟨src, dst⟩ ∧
      (table.insertUdp src dst domain now).1.udp = table.udp.record ⟨src, dst⟩
        (newEntry src dst (portOf table.config table.nextPort) now .active domain) ∧
      (table.insertUdp src dst domain now).1.tcp = table.tcp) := by
  unfold insertUdp Half.Admits
  cases located : table.udp.entries.lookup ⟨src, dst⟩ with
  | some entry => exact Or.inl ⟨by simp, rfl⟩
  | none =>
      dsimp only
      split
      · rename_i full
        exact Or.inl ⟨fun admits => absurd admits.2 (Nat.not_lt.mpr full), rfl⟩
      · rename_i room
        exact Or.inr ⟨⟨rfl, Nat.lt_of_not_le room⟩, rfl, rfl⟩

end

/-- From a sound table, the next one is sound exactly when the call is fresh. -/
theorem sound_step_iff (sound : table.Sound) (op : NatOp) :
    (table.step op).Sound ↔ table.Fresh op := by
  rcases sound_iff.mp sound with ⟨tcp, udp⟩
  cases op with
  | insertTcp src dst domain now =>
      rw [NatTable.step, Fresh]
      rcases table.insertTcp_cases src dst domain now with
        ⟨refused, same⟩ | ⟨admits, recorded, kept⟩
      · rw [same]
        exact iff_of_true sound fun admits => absurd admits refused
      · rw [sound_iff, recorded, kept, tcp.record_iff _ admits.1]
        simp [admits, udp, newEntry]
  | insertUdp src dst domain now =>
      rw [NatTable.step, Fresh]
      rcases table.insertUdp_cases src dst domain now with
        ⟨refused, same⟩ | ⟨admits, recorded, kept⟩
      · rw [same]
        exact iff_of_true sound fun admits => absurd admits refused
      · rw [sound_iff, recorded, kept, udp.record_iff _ admits.1]
        simp [admits, tcp, newEntry]
  | removeTcp src dst => exact iff_of_true (sound_iff.mpr ⟨tcp.remove _, udp⟩) trivial
  | removeUdp src dst => exact iff_of_true (sound_iff.mpr ⟨tcp, udp.remove _⟩) trivial
  | updateTcpState src dst state now =>
      apply iff_of_true _ trivial
      rw [NatTable.step, updateTcpState, sound_iff]
      cases located : table.tcp.entries.lookup ⟨src, dst⟩ with
      | none => exact ⟨tcp, udp⟩
      | some entry => exact ⟨tcp.update located rfl, udp⟩
  | cleanup now => exact iff_of_true (sound_iff.mpr ⟨tcp.sweep _, udp.sweep _⟩) trivial
  | clear => exact iff_of_true (sound_iff.mpr ⟨Half.agrees_empty, Half.agrees_empty⟩) trivial

/-- In every run the two directions agree throughout exactly when every new
flow is given a port that no live flow of its protocol holds. -/
theorem sound_always_iff_fresh (config : NatConfig) (ops : List NatOp) :
    RunAlways step Sound (withConfig config) ops ↔ RunMeets step Fresh (withConfig config) ops := by
  refine runAlways_iff_runMeets Sound (fun _ sound => sound)
    (fun _ op sound => sound_step_iff sound op)
    (fun _ op sound fresh => (sound_step_iff sound op).mpr fresh) ?_
  exact sound_iff.mpr ⟨Half.agrees_empty, Half.agrees_empty⟩

/-- A range of a single port. -/
def onePort : NatConfig where
  portStart := 10000
  portEnd := 10001

/-- A client socket that differs from others by its port. -/
def client (port : BitVec 16) : SocketAddr :=
  ⟨.v4 0x0A000001, port⟩

/-- The server of the flow. -/
def server : SocketAddr :=
  ⟨.v4 0x0A000002, 443⟩

/-- The second flow takes the only port from the first; removing the first flow
then removes the reverse entry of the second. -/
theorem shared_port_unsound :
    let both := run step (withConfig onePort)
      [.insertTcp (client 1) server none 0, .insertTcp (client 2) server none 0]
    ¬ both.Sound ∧
    both.tcp.reverse.lookup 10000 = some ⟨client 2, server⟩ ∧
    (both.removeTcp (client 1) server).tcp.reverse.lookup 10000 = none ∧
    ((both.removeTcp (client 1) server).tcp.entries.lookup ⟨client 2, server⟩).isSome = true := by
  intro both
  refine ⟨?_, by decide, by decide, by decide⟩
  intro sound
  have reversed := (sound.1.agrees 10000 ⟨client 1, server⟩).mpr ⟨_, rfl, rfl⟩
  revert reversed
  decide

end NatTable

end Corduit.Netstack.Nat
