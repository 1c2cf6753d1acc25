import Corduit.Netstack.FakeIp.Core
import Corduit.Netstack.Tcp.Counters

/-!
# What the stack sends to the client

The segments that carry out an action on a connection and those into which the
reader thread cuts what it has read from the proxy.  A segment reaches the
tunnel when the tunnel's channel is set and open and both addresses are of one
family; what is recorded as sent are the arguments of `build_tcp`.
-/

namespace Corduit.Netstack.Stack

open Netstack.Tcp Transition Word

/-- The sending half of the tunnel's channel. -/
inductive TunTx where
  | unset
  | closed
  | listening
  deriving DecidableEq, Repr

/-- Send a segment to the tunnel; the result is the packet on its way. -/
def sendTcpPacket (tun : TunTx) (ipId : BitVec 16) (seg : Segment) :
    Except SolidTcpError (List Byte) :=
  match tun with
  | .unset => .error .deviceNotReady
  | _ =>
      match Packet.buildTcp seg.src.ip seg.dst.ip seg.src.port seg.dst.port seg.seq seg.ack
          seg.flags seg.window seg.payload seg.mss ipId with
      | .error error => .error error
      | .ok packet => if tun = .closed then .error .channelClosed else .ok packet

/-- Segments between these addresses reach the tunnel. -/
def reaches (tun : TunTx) (first second : IpAddr) : Bool :=
  match tun, first, second with
  | .listening, .v4 _, .v4 _ => true
  | .listening, .v6 _, .v6 _ => true
  | _, _, _ => false

theorem isOk_sendTcpPacket (tun : TunTx) (ipId : BitVec 16) (seg : Segment) :
    (sendTcpPacket tun ipId seg).isOk = reaches tun seg.src.ip seg.dst.ip := by
  unfold sendTcpPacket reaches
  cases tun <;> cases seg.src.ip <;> cases seg.dst.ip <;> rfl

/-- What of a segment arrives at the tunnel. -/
def transmit (tun : TunTx) (seg : Segment) : List Segment :=
  match sendTcpPacket tun 0 seg with
  | .ok _ => [seg]
  | .error _ => []

theorem mem_transmit {tun : TunTx} {seg other : Segment} :
    other ∈ transmit tun seg ↔ reaches tun seg.src.ip seg.dst.ip = true ∧ other = seg := by
  rw [← isOk_sendTcpPacket tun 0 seg]
  unfold transmit
  cases sendTcpPacket tun 0 seg with
  | ok packet => simp [Except.isOk, Except.toBool]
  | error error => simp [Except.isOk, Except.toBool]

/-- A segment from the address the client talks to, to the client. -/
def reply (conn : TcpConnection) (seq ack : SeqNum) (flags : TcpFlags) (window : BitVec 16)
    (payload : List Byte) (mss : Option (BitVec 16)) : Segment where
  src := conn.key.dst
  dst := conn.key.src
  seq := seq
  ack := ack
  flags := flags
  window := window
  payload := payload
  mss := mss

/-- The receive window as a header carries it. -/
def window (conn : TcpConnection) : BitVec 16 :=
  conn.recvWindow.setWidth 16

/-- The answer to a SYN. -/
def synAckSegment (conn : TcpConnection) : Segment :=
  reply conn (conn.sndNxt - 1) conn.rcvNxt .synAck (window conn) [] (some conn.mss)

/-- An acknowledgement. -/
def ackSegment (conn : TcpConnection) : Segment :=
  reply conn conn.sndNxt conn.rcvNxt .ackOnly (window conn) [] none

/-- The FIN that `SendFin`, `SendFinAck` and the reader thread send. -/
def finSegment (conn : TcpConnection) : Segment :=
  reply conn conn.sndNxt conn.rcvNxt .finAck (window conn) [] none

/-- A reset. -/
def rstSegment (conn : TcpConnection) : Segment :=
  reply conn conn.sndNxt 0 .rstOnly MAX_RECV_WINDOW [] none

/-- Data for the client. -/
def dataSegment (conn : TcpConnection) (data : List Byte) : Segment :=
  reply conn conn.sndNxt conn.rcvNxt .pshAck (window conn) data none

/-- What carrying out an action comes to.  `removes` asks for the connection to
be taken out of the manager. -/
structure Executed where
  conn : TcpConnection
  result : Except SolidTcpError Unit
  segments : List Segment
  removes : Bool

/-- Send one segment; the connection afterwards depends on whether it went. -/
def sendOn (tun : TunTx) (seg : Segment) (sent failed : TcpConnection) : Executed :=
  match sendTcpPacket tun 0 seg with
  | .ok _ => ⟨sent, .ok (), [seg], false⟩
  | .error error => ⟨failed, .error error, [], false⟩

/-- `execute_tcp_action`.  Only a FIN that was sent closes the connection, while
data counts as sent before it is. -/
def executeTcpAction (tun : TunTx) (conn : TcpConnection) : TcpAction → Executed
  | .sendAck => sendOn tun (ackSegment conn) conn conn
  | .sendFinAck => sendOn tun (finSegment conn) conn.close.1 conn
  | .sendFin => sendOn tun (finSegment conn) conn conn
  | .sendRst => sendOn tun (rstSegment conn) conn conn
  | .established => ⟨conn, .ok (), [], false⟩
  | .close => ⟨conn, .ok (), [], true⟩
  | .sendData data =>
      let advanced := conn.advanceSndNxt (BitVec.ofNat 32 data.length)
      sendOn tun (dataSegment conn data) advanced advanced
  | .none => ⟨conn, .ok (), [], false⟩

section SendOn

variable (tun : TunTx) (seg : Segment) (sent failed : TcpConnection)

theorem segments_sendOn : (sendOn tun seg sent failed).segments = transmit tun seg := by
  unfold sendOn transmit
  split <;> rfl

theorem conn_sendOn :
    (sendOn tun seg sent failed).conn =
      if reaches tun seg.src.ip seg.dst.ip then sent else failed := by
  rw [← isOk_sendTcpPacket tun 0 seg]
  unfold sendOn
  cases sendTcpPacket tun 0 seg with
  | ok packet => rfl
  | error error => rfl

end SendOn

/-- The largest payload of a segment of this connection. -/
def effectiveMss (conn : TcpConnection) : Nat :=
  let familyMss := match conn.key.dst.ip with
    | .v4 _ => DEFAULT_MSS_V4
    | .v6 _ => DEFAULT_MSS_V6
  min conn.mss.toNat familyMss.toNat

/-- How far the reader has cut what it has read. -/
structure Batch where
  offset : Nat
  seq : SeqNum
  packets : List Segment

/-- One turn of the loop that cuts `data`; it ends with the data, or with a
segment that cannot be built. -/
def cutNext (conn : TcpConnection) (data : List Byte) : Step Batch := fun batch =>
  if batch.offset < data.length then
    let chunkEnd := min (batch.offset + effectiveMss conn) data.length
    let chunk := (data.take chunkEnd).drop batch.offset
    let flags :=
      if chunkEnd = data.length ∨ data.length ≤ effectiveMss conn then
        TcpFlags.pshAck
      else
        TcpFlags.ackOnly
    match Packet.buildTcp conn.key.dst.ip conn.key.src.ip conn.key.dst.port conn.key.src.port
        batch.seq conn.rcvNxt flags (window conn) chunk none 0 with
    | .error _ => none
    | .ok _ =>
        some {
          offset := chunkEnd
          seq := batch.seq + BitVec.ofNat 32 chunk.length
          packets := batch.packets ++
            [reply conn batch.seq conn.rcvNxt flags (window conn) chunk none] }
  else
    none

/-- The segments of one read.  Every turn of the loop moves on by at least one
byte, provided that the segment size is not zero. -/
def readerPackets (conn : TcpConnection) (data : List Byte) : List Segment :=
  (drain (cutNext conn data) data.length ⟨0, conn.sndNxt, []⟩).packets

/-- What goes out of a batch: the first failing send ends it. -/
def sendBatch (tun : TunTx) (packets : List Segment) : List Segment :=
  if tun = .listening then packets else []

/-- A read of at most the size of the reader's buffer. -/
def ReadSize (data : List Byte) : Prop :=
  data ≠ [] ∧ data.length ≤ 65536

instance (data : List Byte) : Decidable (ReadSize data) :=
  inferInstanceAs (Decidable (_ ∧ _))

/-- No segment of a batch carries a FIN. -/
theorem fin_readerPackets (conn : TcpConnection) (data : List Byte) :
    ∀ seg ∈ readerPackets conn data, seg.flags.fin = false := by
  refine drain_invariant
    (fun batch : Batch => ∀ seg ∈ batch.packets, seg.flags.fin = false) ?_ _ (by simp)
  intro first second turn plain
  unfold cutNext at turn
  split at turn
  · dsimp only at turn
    split at turn
    · cases turn
    · obtain rfl := Option.some.inj turn
      intro seg member
      rcases List.mem_append.mp member with earlier | last
      · exact plain seg earlier
      · rw [List.mem_singleton.mp last, reply]
        dsimp only
        split <;> rfl
  · cases turn

/-!
# The stack and its threads

The TCP half of the stack as one transition system.  A connection is shared by
the manager's table and the threads that serve it, so connections live in a
list of cells and are named by their position; the table maps a pair of
addresses to such a name.  The steps are those of

* the thread that feeds packets to the stack, which carries out the action of
  a packet before it takes the next one,
* the threads that dial the proxy for a flow and then read from it, up to the
  final removal of the flow's addresses from the table,
* the writer threads of the connections, and
* the sweep that removes closed and idle connections.

A thread holds no lock between its steps, so any interleaving is a schedule.
-/

open Collection Netstack.FakeIp

/-- The most connections to the proxy. -/
def MAX_TUN_PROXY_CONNECTIONS : Nat := 2048

/-- A connection with what it was opened with and the number of FINs of the
client that its `rcv_nxt` has moved over. -/
structure Cell where
  conn : TcpConnection
  opening : TcpConnection.Opening
  fins : Nat

/-- How far the thread of a flow has come; `removing` is the reader after its
FIN and before the removal. -/
inductive FlowPhase where
  | dialing
  | reading
  | removing
  deriving DecidableEq, Repr

/-- The thread that serves a flow and the cell of the connection it was
started for. -/
structure Flow where
  key : NatKey
  cell : Nat
  phase : FlowPhase
  deriving DecidableEq, Repr

/-- The action that a packet has led to. -/
structure Job where
  key : NatKey
  cell : Nat
  action : TcpAction
  deriving DecidableEq, Repr

/-- The stack with its threads. -/
structure SolidStack where
  config : TcpConfig
  tun : TunTx
  cells : List Cell
  connections : Table NatKey Nat
  flows : List Flow
  slots : Nat
  job : Option Job
  sweep : List NatKey

/-- A packet that has been parsed.  `pool` is the fake-IP pool as it is when
the packet arrives, `iss` what the generator draws for a new connection, and
`spawned` whether its thread can be started. -/
structure Arrival where
  key : NatKey
  info : TcpInfo
  payload : List Byte
  now : Nat
  pool : FakeIpPool
  iss : SeqNum
  spawned : Bool

/-- How `establish_proxy_connection` ends: without a connection to the proxy,
without one of its threads, or with both running. -/
inductive DialOutcome where
  | failed
  | noWriter
  | noReader
  | connected
  deriving DecidableEq, Repr

/-- What the threads do. -/
inductive StackOp where
  | packet (arrival : Arrival)
  | execute
  | dial (index : Nat) (outcome : DialOutcome)
  | read (index : Nat) (data : List Byte)
  | finish (index : Nat)
  | remove (index : Nat)
  | writer (cell : Nat) (op : Op)
  | collect (now : Nat)
  | evict
  | hangUp

/-- The steps that a writer thread takes on its connection. -/
def byWriter : Op → Bool
  | .receive _ | .take _ | .written _ | .dropWriter _ | .dropReceiver _ | .setWebsocket _ => true
  | _ => false

namespace Arrival

/-- A SYN that opens a connection, or repeats one. -/
def isSyn (arrival : Arrival) : Bool :=
  arrival.info.flags.syn && !arrival.info.flags.ack

/-- The destination, if it is an address of the fake-IP range. -/
def fakeIp (arrival : Arrival) : Option Ipv4Addr :=
  match arrival.key.dst.ip with
  | .v4 ip => if FakeIpPool.isFakeIp arrival.pool.config ip then some ip else none
  | .v6 _ => none

/-- The domain behind a fake address. -/
def domain (arrival : Arrival) : Option String :=
  arrival.fakeIp.bind arrival.pool.lookup

/-- The destination is a fake address that stands for no domain. -/
def unmapped (arrival : Arrival) : Bool :=
  arrival.fakeIp.isSome && arrival.domain.isNone

/-- A reset in answer to the packet. -/
def reset (arrival : Arrival) (seq : SeqNum) : Segment where
  src := arrival.key.dst
  dst := arrival.key.src
  seq := seq
  ack := arrival.info.seq + 1
  flags := .rstAck
  window := MAX_RECV_WINDOW
  payload := []
  mss := none

/-- What the packet does to the connection it belongs to. -/
def processBy (arrival : Arrival) (cell : Cell) : Cell :=
  { cell with
    conn := (cell.conn.process arrival.now arrival.info arrival.payload).1
    fins := cell.fins + cell.conn.finCount arrival.info }

/-- A packet from one client port, sent to port 443 of an address outside the
fake-IP range. -/
def sample (flags : TcpFlags) (iss : SeqNum) : Arrival where
  key := (TcpConnection.Opening.sample 100 {}).key
  info := TcpConnection.sampleSegment 100 flags
  payload := []
  now := 0
  pool := .withConfig {}
  iss := iss
  spawned := true

end Arrival

/-- Change the connection of a cell. -/
def Cell.onConn (update : TcpConnection → TcpConnection) (cell : Cell) : Cell :=
  { cell with conn := update cell.conn }

namespace SolidStack

/-- A stack without connections. -/
def start (config : TcpConfig) (tun : TunTx) : SolidStack where
  config := config
  tun := tun
  cells := []
  connections := ∅
  flows := []
  slots := 0
  job := none
  sweep := []

/-- What `new_passive` receives for a SYN. -/
def openingFor (stack : SolidStack) (arrival : Arrival) : TcpConnection.Opening where
  key := arrival.key
  theirSeq := arrival.info.seq
  theirMss := arrival.info.mss
  domain := arrival.domain
  config := stack.config
  iss := arrival.iss
  now := arrival.now

/-- Put a new connection into the table. -/
def track (stack : SolidStack) (opening : TcpConnection.Opening) : SolidStack :=
  { stack with
    cells := stack.cells ++ [⟨.opened opening, opening, 0⟩]
    connections := stack.connections.insert opening.key stack.cells.length }

/-- The rest of `handle_tcp_syn`, once a slot has been acquired.  The slot is
kept only by a thread that has been started. -/
def accept (stack : SolidStack) (arrival : Arrival) : SolidStack × List Segment :=
  let opening := stack.openingFor arrival
  let tracked := stack.track opening
  let seg := synAckSegment (.opened opening)
  match sendTcpPacket stack.tun 0 seg with
  | .error _ => (tracked, [])
  | .ok _ =>
      if arrival.spawned then
        ({ tracked with
           flows := stack.flows ++ [⟨arrival.key, stack.cells.length, .dialing⟩]
           slots := stack.slots + 1 }, [seg])
      else
        (tracked, [seg])

/-- The answer to a SYN of a connection that is tracked already. -/
def reanswer (stack : SolidStack) (id : Nat) : List Segment :=
  match stack.cells[id]? with
  | none => []
  | some cell => transmit stack.tun (synAckSegment cell.conn)

/-- A SYN opens a connection or is repeated. -/
def handleTcpSyn (stack : SolidStack) (arrival : Arrival) : SolidStack × List Segment :=
  match stack.connections.lookup arrival.key with
  | some id => (stack, stack.reanswer id)
  | none =>
      if arrival.unmapped then
        (stack, transmit stack.tun (arrival.reset 0))
      else if MAX_TUN_PROXY_CONNECTIONS ≤ stack.slots then
        (stack, transmit stack.tun (arrival.reset 0))
      else
        stack.accept arrival

/-- Run the state machine of a tracked connection and note its action. -/
def process (stack : SolidStack) (arrival : Arrival) (id : Nat) : SolidStack :=
  match stack.cells[id]? with
  | none => stack
  | some cell =>
      { stack with
        cells := stack.cells.modify id arrival.processBy
        job := some ⟨arrival.key, id,
          (cell.conn.process arrival.now arrival.info arrival.payload).2⟩ }

/-- What a packet does. -/
def handleTcpPacket (stack : SolidStack) (arrival : Arrival) : SolidStack × List Segment :=
  if arrival.isSyn then
    stack.handleTcpSyn arrival
  else
    match stack.connections.lookup arrival.key with
    | some id => (stack.process arrival id, [])
    | none =>
        if arrival.info.flags.rst then
          (stack, [])
        else
          (stack, transmit stack.tun (arrival.reset arrival.info.ack))

/-- Carry out the action of the last packet. -/
def execute (stack : SolidStack) : SolidStack × List Segment :=
  match stack.job with
  | none => (stack, [])
  | some job =>
      match stack.cells[job.cell]? with
      | none => ({ stack with job := none }, [])
      | some cell =>
          let executed := executeTcpAction stack.tun cell.conn job.action
          ({ stack with
             cells := stack.cells.modify job.cell (Cell.onConn fun _ => executed.conn)
             connections :=
               if executed.removes then stack.connections.erase job.key else stack.connections
             job := none }, executed.segments)

/-- A thread ends and gives its slot back. -/
def endFlow (stack : SolidStack) (index : Nat) : SolidStack :=
  { stack with
    flows := stack.flows.eraseIdx index
    slots := stack.slots - 1 }

/-- A thread moves on. -/
def setPhase (stack : SolidStack) (index : Nat) (phase : FlowPhase) : SolidStack :=
  { stack with flows := stack.flows.modify index fun flow => { flow with phase := phase } }

/-- Change the connection in a cell. -/
def onConn (stack : SolidStack) (id : Nat) (update : TcpConnection → TcpConnection) :
    SolidStack :=
  { stack with cells := stack.cells.modify id (Cell.onConn update) }

/-- `set_proxy_tx`, with a writer that is dropped at once if its thread could
not be started. -/
def attachProxy (outcome : DialOutcome) (conn : TcpConnection) : TcpConnection :=
  let attached := conn.setProxyTx true
  match outcome with
  | .noWriter => (attached.dropWriter conn.links.length).dropReceiver conn.links.length
  | _ => attached

/-- A flow leaves the connection in the table when its dial fails. -/
def dial (stack : SolidStack) (index : Nat) (flow : Flow) : DialOutcome → SolidStack
  | .failed => stack.endFlow index
  | .connected => (stack.onConn flow.cell (attachProxy .connected)).setPhase index .reading
  | outcome => (stack.onConn flow.cell (attachProxy outcome)).endFlow index

/-- One read from the proxy.  With a segment size of zero the reader never
leaves its loop: it sends nothing, holds its slot and takes no other step. -/
def readFlow (stack : SolidStack) (index : Nat) (flow : Flow) (data : List Byte) :
    SolidStack × List Segment :=
  match stack.cells[flow.cell]? with
  | none => (stack, [])
  | some cell =>
      let advanced := stack.onConn flow.cell fun conn =>
        conn.advanceSndNxt (BitVec.ofNat 32 data.length)
      if effectiveMss cell.conn = 0 then
        ({ advanced with flows := stack.flows.eraseIdx index }, [])
      else
        (advanced, sendBatch stack.tun (readerPackets cell.conn data))

/-- The reader has left its loop: it sends a FIN. -/
def finishFlow (stack : SolidStack) (index : Nat) (flow : Flow) : SolidStack × List Segment :=
  match stack.cells[flow.cell]? with
  | none => (stack, [])
  | some cell => (stack.setPhase index .removing, transmit stack.tun (finSegment cell.conn))

/-- The last step of a reader: it removes its addresses from the table. -/
def removeFlow (stack : SolidStack) (index : Nat) (flow : Flow) : SolidStack :=
  { stack.endFlow index with connections := stack.connections.erase flow.key }

/-- The connection is closed or has been idle for too long. -/
def sweepable (stack : SolidStack) (now : Nat) (id : Nat) : Bool :=
  (stack.cells[id]?).any fun cell => cell.conn.isClosed || cell.conn.isTimedOut now

/-- The first half of `cleanup`: the keys to remove are collected. -/
def collect (stack : SolidStack) (now : Nat) : SolidStack :=
  { stack with
    sweep := stack.sweep ++ stack.connections.keysWhere fun _ id => stack.sweepable now id }

/-- The second half of `cleanup`: the next collected key is removed. -/
def evict (stack : SolidStack) : SolidStack :=
  match stack.sweep with
  | [] => stack
  | key :: rest => { stack with connections := stack.connections.erase key, sweep := rest }

/-- The thread at an index, if it is in the given phase. -/
def flowIn (stack : SolidStack) (index : Nat) (phase : FlowPhase) : Option Flow :=
  (stack.flows[index]?).filter fun flow => decide (flow.phase = phase)

/-- One step, and the segments it sends. -/
def act (stack : SolidStack) : StackOp → SolidStack × List Segment
  | .packet arrival => if stack.job.isSome then (stack, []) else stack.handleTcpPacket arrival
  | .execute => stack.execute
  | .dial index outcome =>
      match stack.flowIn index .dialing with
      | none => (stack, [])
      | some flow => (stack.dial index flow outcome, [])
  | .read index data =>
      match stack.flowIn index .reading with
      | none => (stack, [])
      | some flow => if ReadSize data then stack.readFlow index flow data else (stack, [])
  | .finish index =>
      match stack.flowIn index .reading with
      | none => (stack, [])
      | some flow => stack.finishFlow index flow
  | .remove index =>
      match stack.flowIn index .removing with
      | none => (stack, [])
      | some flow => (stack.removeFlow index flow, [])
  | .writer id op => (if byWriter op then stack.onConn id (·.perform op) else stack, [])
  | .collect now => (stack.collect now, [])
  | .evict => (stack.evict, [])
  | .hangUp => (if stack.tun = .listening then { stack with tun := .closed } else stack, [])

/-- The state behind a step. -/
def step (stack : SolidStack) (op : StackOp) : SolidStack :=
  (stack.act op).1

end SolidStack

end Corduit.Netstack.Stack
