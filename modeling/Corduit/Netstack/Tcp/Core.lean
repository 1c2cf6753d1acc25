import Corduit.Collection.Modify
import Corduit.Collection.OrderedMap
import Corduit.Netstack.Packet.Core
import Corduit.Word.Serial

/-!
# TCP connections

The connection state machine of the TUN stack: acknowledgement bookkeeping,
reassembly of the peer's byte stream, the hand-off to the proxy writer and the
receive window computed from what is queued.

The proxy side of a connection is shared with another thread.  The in-flight
counter and the liveness flag are fields of the connection, and a `ProxyLink`
holds the state of one channel and of the writer that owns its receiving end.
Times are natural numbers read from a clock that every operation receives as
an argument.
-/

namespace Corduit.Netstack.Tcp

open Collection Transition Word

/-- A TCP sequence number. -/
abbrev SeqNum := BitVec 32

/-- The largest receive window a TCP header can carry. -/
def MAX_RECV_WINDOW : BitVec 16 := 65535

/-- TCP state (RFC 793). -/
inductive TcpState where
  | closed
  | listen
  | synSent
  | synReceived
  | established
  | finWait1
  | finWait2
  | closeWait
  | closing
  | lastAck
  | timeWait
  deriving DecidableEq, Repr

/-- The action to take after a segment has been processed. -/
inductive TcpAction where
  | none
  | sendAck
  | sendFin
  | sendFinAck
  | sendRst
  | sendData (data : List Byte)
  | established
  | close
  deriving DecidableEq, Repr

/-- The configuration fields that the connection reads. -/
structure TcpConfig where
  mss : BitVec 16 := 1360
  idleTimeout : Nat := 300
  connectTimeout : Nat := 30
  timeWait : Nat := 10
  websocketTimeout : Nat := 3600
  maxRecvBuffer : Nat := 1024 * 1024
  deriving DecidableEq, Repr

/-- The pair of addresses that identifies a flow. -/
structure NatKey where
  src : SocketAddr
  dst : SocketAddr
  deriving DecidableEq, Repr

/-- One channel given to `set_proxy_tx` and the writer at its receiving end.
`sent` is everything ever sent on the channel.  The writer has received the
first `received` of these chunks and has put the first `taken` on its books;
`held` is what it has on them now and `released` what it has given back. -/
structure ProxyLink where
  sent : List (List Byte)
  received : Nat
  taken : Nat
  receiverAlive : Bool
  writerAlive : Bool
  held : Nat
  released : Nat
  deriving DecidableEq, Repr

/-- A fresh channel, whose receiver may already be gone. -/
def ProxyLink.fresh (receiverAlive : Bool) : ProxyLink where
  sent := []
  received := 0
  taken := 0
  receiverAlive := receiverAlive
  writerAlive := true
  held := 0
  released := 0

/-- A TCP connection.  `proxyTx` is the channel in use; `oldLinks` are the
channels that an earlier `set_proxy_tx` had attached, oldest first. -/
structure TcpConnection where
  key : NatKey
  state : TcpState
  sndNxt : SeqNum
  sndUna : SeqNum
  rcvNxt : SeqNum
  mss : BitVec 16
  config : TcpConfig
  recvBuf : List Byte
  sendBuf : List Byte
  lastActive : Nat
  bytesTx : Nat
  bytesRx : Nat
  domain : Option String
  proxyTx : Option ProxyLink
  oldLinks : List ProxyLink
  finRecv : Bool
  pendingData : List Byte
  oooSegments : OrderedMap SeqNum (List Byte)
  maxOooSize : Nat
  oooSize : Nat
  isWebsocket : Bool
  recvWindow : BitVec 32
  lastAdvertised : BitVec 32
  proxyInflight : Nat
  proxyAlive : Bool
  proxyDead : Bool
  dupAckCount : BitVec 32
  deriving DecidableEq

namespace TcpConnection

/-- The connection created for a SYN, with `iss` drawn from the OS generator. -/
def newPassive (key : NatKey) (theirSeq : SeqNum) (theirMss : Option (BitVec 16))
    (domain : Option String) (config : TcpConfig) (iss : SeqNum) (now : Nat) :
    TcpConnection :=
  let fallbackMss := match key.dst.ip with
    | .v4 _ => DEFAULT_MSS_V4
    | .v6 _ => DEFAULT_MSS_V6
  let offered := theirMss.getD fallbackMss
  let mss := if offered ≤ config.mss then offered else config.mss
  let isWebsocket := decide (key.dst.port ∈ ([80, 443, 8080, 8443, 9000] : List (BitVec 16)))
  { key := key
    state := .synReceived
    sndNxt := iss + 1
    sndUna := iss
    rcvNxt := theirSeq + 1
    mss := mss
    config := config
    recvBuf := []
    sendBuf := []
    lastActive := now
    bytesTx := 0
    bytesRx := 0
    domain := domain
    proxyTx := none
    oldLinks := []
    finRecv := false
    pendingData := []
    oooSegments := OrderedMap.empty
    maxOooSize := 512 * 1024
    oooSize := 0
    isWebsocket := isWebsocket
    recvWindow := MAX_RECV_WINDOW.setWidth 32
    lastAdvertised := MAX_RECV_WINDOW.setWidth 32
    proxyInflight := 0
    proxyAlive := false
    proxyDead := false
    dupAckCount := 0 }

/-- Web sockets may buffer more. -/
def setWebsocket (conn : TcpConnection) (isWs : Bool) : TcpConnection :=
  let conn := { conn with isWebsocket := isWs }
  if isWs then { conn with maxOooSize := 1024 * 1024 } else conn

/-- Everything accepted from the peer that the proxy has not written yet. -/
def queuedBytes (conn : TcpConnection) : Nat :=
  saturatingAdd
    (saturatingAdd (saturatingAdd conn.recvBuf.length conn.pendingData.length) conn.oooSize)
    conn.proxyInflight

/-- The writer has exited, or its channel has rejected a send. -/
def proxyIsGone (conn : TcpConnection) : Bool :=
  conn.proxyDead || (conn.proxyTx.isSome && !conn.proxyAlive)

/-- Whether one more segment of `len` bytes fits in the queued-data budget. -/
def hasRoomFor (conn : TcpConnection) (len : Nat) : Bool :=
  !conn.proxyIsGone &&
    decide (saturatingAdd conn.queuedBytes len ≤ conn.config.maxRecvBuffer)

/-- The segment size to round windows to, never zero. -/
def segmentSize (conn : TcpConnection) : Nat :=
  max conn.mss.toNat 1

/-- The window for what is left of the buffer. -/
def updateRecvWindow (conn : TcpConnection) : TcpConnection :=
  let available := conn.config.maxRecvBuffer - conn.queuedBytes
  let segment := conn.segmentSize
  let window := min (available / segment * segment) MAX_RECV_WINDOW.toNat
  { conn with
    recvWindow := BitVec.ofNat 32 window
    lastAdvertised := BitVec.ofNat 32 window }

/-- Recompute the window and report whether it has just reopened. -/
def windowUpdateDue (conn : TcpConnection) : TcpConnection × Bool :=
  let wasClosed := conn.lastAdvertised == 0
  let conn := conn.updateRecvWindow
  (conn, wasClosed && decide (conn.segmentSize ≤ conn.recvWindow.toNat))

/-- Nothing more is to come. -/
def isClosed (conn : TcpConnection) : Bool :=
  decide (conn.state = .closed ∨ conn.state = .timeWait)

/-- The increment of the in-flight counter that precedes every send. -/
def reserve (conn : TcpConnection) (len : Nat) : TcpConnection :=
  { conn with proxyInflight := conn.proxyInflight + len }

/-- `Sender::send`, which fails exactly when the receiver is gone. -/
def channelSend (conn : TcpConnection) (data : List Byte) : Option TcpConnection :=
  match conn.proxyTx with
  | none => none
  | some link =>
      if link.receiverAlive then
        some { conn with proxyTx := some { link with sent := link.sent ++ [data] } }
      else
        none

/-- What a failed send undoes. -/
def rollback (conn : TcpConnection) (len : Nat) : TcpConnection :=
  { conn with
    proxyInflight := wrappingSub conn.proxyInflight len
    proxyDead := true }

/-- Count a chunk and send it, or take the count back. -/
def handOff (conn : TcpConnection) (data : List Byte) : TcpConnection :=
  let conn := conn.reserve data.length
  match conn.channelSend data with
  | some conn => conn
  | none => conn.rollback data.length

/-- Put a fresh channel in the place of the one in use. -/
def attach (conn : TcpConnection) (receiverAlive : Bool) : TcpConnection :=
  { conn with
    oldLinks := conn.oldLinks ++ conn.proxyTx.toList
    proxyTx := some (ProxyLink.fresh receiverAlive) }

/-- Hand off what was buffered while there was no channel. -/
def flushPending (conn : TcpConnection) : TcpConnection :=
  if conn.pendingData.isEmpty then
    conn
  else
    { conn with pendingData := [] }.handOff conn.pendingData

/-- Attach the proxy writer's channel and flush what was buffered for it. -/
def setProxyTx (conn : TcpConnection) (receiverAlive : Bool) : TcpConnection :=
  { (conn.attach receiverAlive).flushPending with proxyAlive := true }

/-- Hand data to the proxy writer, or buffer it until there is one. -/
def deliverToProxy (conn : TcpConnection) (data : List Byte) : TcpConnection :=
  if data.isEmpty then
    conn
  else
    match conn.proxyTx with
    | none => { conn with pendingData := conn.pendingData ++ data }
    | some _ => conn.handOff data

/-- Before, on the circle. -/
def seqBefore (seq1 seq2 : SeqNum) : Bool :=
  Serial.before seq1 seq2

/-- After, on the circle. -/
def seqAfter (seq1 seq2 : SeqNum) : Bool :=
  Serial.after seq1 seq2

/-- Not after, on the circle. -/
def seqBeforeOrEq (seq1 seq2 : SeqNum) : Bool :=
  Serial.beforeOrEq seq1 seq2

/-- Bytes were sent. -/
def advanceSndNxt (conn : TcpConnection) (len : BitVec 32) : TcpConnection :=
  { conn with
    sndNxt := conn.sndNxt + len
    bytesTx := conn.bytesTx + len.toNat }

/-- Whether a number acknowledges something new. -/
def validAck (conn : TcpConnection) (ack : SeqNum) : Bool :=
  if conn.sndUna ≤ conn.sndNxt then
    decide (conn.sndUna < ack) && decide (ack ≤ conn.sndNxt)
  else
    decide (conn.sndUna < ack) || decide (ack ≤ conn.sndNxt)

/-- Take an acknowledgement. -/
def processAck (conn : TcpConnection) (ack : SeqNum) : TcpConnection :=
  if conn.validAck ack then { conn with sndUna := ack } else conn

/-- The first buffered segment, by key, that covers `rcvNxt`, with the number
of its bytes that precede it. -/
def findStraddling (segments : OrderedMap SeqNum (List Byte)) (rcvNxt : SeqNum) :
    Option (SeqNum × Nat) :=
  segments.entries.findSome? fun entry =>
    let segEnd := entry.1 + BitVec.ofNat 32 entry.2.length
    if seqBeforeOrEq entry.1 rcvNxt && seqAfter segEnd rcvNxt then
      let skip := (rcvNxt - entry.1).toNat
      if skip < entry.2.length then some (entry.1, skip) else none
    else
      none

/-- The buffered segment the delivery loop takes next: its key, its data and
the number of leading bytes to skip. -/
def nextSegment (segments : OrderedMap SeqNum (List Byte)) (rcvNxt : SeqNum) :
    Option (SeqNum × List Byte × Nat) :=
  match segments.get? rcvNxt with
  | some data => some (rcvNxt, data, 0)
  | none =>
      match findStraddling segments rcvNxt with
      | none => none
      | some (segSeq, skip) =>
          (segments.get? segSeq).map fun data => (segSeq, data, skip)

/-- Append in-order data to the receive buffer. -/
def appendInOrder (conn : TcpConnection) (data : List Byte) : TcpConnection :=
  { conn with
    recvBuf := conn.recvBuf ++ data
    rcvNxt := conn.rcvNxt + BitVec.ofNat 32 data.length
    bytesRx := conn.bytesRx + data.length }

/-- Take a buffered segment off the books. -/
def removeSegment (conn : TcpConnection) (segSeq : SeqNum) (data : List Byte) :
    TcpConnection :=
  { conn with
    oooSegments := conn.oooSegments.erase segSeq
    oooSize := wrappingSub conn.oooSize data.length }

/-- Put a segment on the books of the reassembly buffer. -/
def storeSegment (conn : TcpConnection) (seq : SeqNum) (data : List Byte) : TcpConnection :=
  { conn with
    oooSegments := conn.oooSegments.insert seq data
    oooSize := conn.oooSize + data.length }

/-- One turn of the loop of `try_deliver_ooo_segments`. -/
def deliverNext : Step TcpConnection := fun conn =>
  (nextSegment conn.oooSegments conn.rcvNxt).map fun (segSeq, data, skip) =>
    (conn.removeSegment segSeq data).appendInOrder (data.drop skip)

/-- Each turn removes one buffered segment, so there are at most as many turns
as segments. -/
def tryDeliverOooSegments (conn : TcpConnection) : TcpConnection :=
  drain deliverNext conn.oooSegments.entries.length conn

/-- What both accepting branches of `process_data` do with new data. -/
def acceptData (conn : TcpConnection) (newData : List Byte) : TcpConnection :=
  let conn := (conn.appendInOrder newData).tryDeliverOooSegments
  let data := conn.recvBuf
  let conn := { conn with recvBuf := [] }
  let conn := if data.isEmpty then conn else conn.deliverToProxy data
  conn.updateRecvWindow

/-- Take the payload of a segment. -/
def processData (conn : TcpConnection) (seq : SeqNum) (data : List Byte) :
    TcpConnection × TcpAction :=
  if data.isEmpty then
    (conn, .none)
  else if conn.proxyIsGone then
    ({ conn with state := .closed }, .sendRst)
  else
    let conn := conn.updateRecvWindow
    let seqEnd := seq + BitVec.ofNat 32 data.length
    if seqBeforeOrEq seqEnd conn.rcvNxt then
      (conn, .sendAck)
    else if seq = conn.rcvNxt then
      if !conn.hasRoomFor data.length then
        (conn, .sendAck)
      else
        ({ conn with dupAckCount := 0 }.acceptData data, .sendAck)
    else if seqBefore seq conn.rcvNxt && seqAfter seqEnd conn.rcvNxt then
      let skip := (conn.rcvNxt - seq).toNat
      if skip < data.length then
        let newData := data.drop skip
        if !conn.hasRoomFor newData.length then
          (conn, .sendAck)
        else
          (conn.acceptData newData, .sendAck)
      else
        (conn, .sendAck)
    else if seqAfter seq conn.rcvNxt then
      let conn := { conn with dupAckCount := conn.dupAckCount + 1 }
      if conn.oooSize + data.length ≤ conn.maxOooSize then
        match conn.oooSegments.get? seq with
        | none => (conn.storeSegment seq data, .sendAck)
        | some _ => (conn, .sendAck)
      else
        (conn, .sendAck)
    else
      (conn, .sendAck)

/-- The handler of `SynRecv`. -/
def onSynRecv (conn : TcpConnection) (seg : TcpInfo) : TcpConnection × TcpAction :=
  if seg.flags.ack && conn.validAck seg.ack then
    ({ conn with sndUna := seg.ack, state := .established }, .established)
  else
    (conn, .none)

/-- The part of `on_established` that precedes its FIN check. -/
def onPayload (conn : TcpConnection) (seg : TcpInfo) (payload : List Byte) :
    TcpConnection × TcpAction :=
  let conn := if seg.flags.ack then conn.processAck seg.ack else conn
  if payload.isEmpty then (conn, .none) else conn.processData seg.seq payload

/-- The handler of `Established`. -/
def onEstablished (conn : TcpConnection) (seg : TcpInfo) (payload : List Byte) :
    TcpConnection × TcpAction :=
  let (conn, action) := conn.onPayload seg payload
  if seg.flags.fin then
    ({ conn with
       finRecv := true
       rcvNxt := conn.rcvNxt + 1
       state := .closeWait }, .sendFinAck)
  else if action = .none then
    let (conn, due) := conn.windowUpdateDue
    (conn, if due then .sendAck else .none)
  else
    (conn, action)

/-- The handler of `FinWait1`. -/
def onFinWait1 (conn : TcpConnection) (seg : TcpInfo) : TcpConnection × TcpAction :=
  if seg.flags.ack && conn.validAck seg.ack then
    let conn := { conn with sndUna := seg.ack }
    if seg.flags.fin then
      ({ conn with rcvNxt := conn.rcvNxt + 1, state := .timeWait }, .sendAck)
    else
      ({ conn with state := .finWait2 }, .none)
  else if seg.flags.fin then
    ({ conn with rcvNxt := conn.rcvNxt + 1, state := .closing }, .sendAck)
  else
    (conn, .none)

/-- The handler of `FinWait2`. -/
def onFinWait2 (conn : TcpConnection) (seg : TcpInfo) : TcpConnection × TcpAction :=
  if seg.flags.fin then
    ({ conn with rcvNxt := conn.rcvNxt + 1, state := .timeWait }, .sendAck)
  else
    (conn, .none)

/-- The handler of `CloseWait`. -/
def onCloseWait (conn : TcpConnection) (seg : TcpInfo) : TcpConnection × TcpAction :=
  (if seg.flags.ack then conn.processAck seg.ack else conn, .none)

/-- The handler of `Closing`. -/
def onClosing (conn : TcpConnection) (seg : TcpInfo) : TcpConnection × TcpAction :=
  if seg.flags.ack && conn.validAck seg.ack then
    ({ conn with state := .timeWait }, .none)
  else
    (conn, .none)

/-- The handler of `LastAck`. -/
def onLastAck (conn : TcpConnection) (seg : TcpInfo) : TcpConnection × TcpAction :=
  if seg.flags.ack && conn.validAck seg.ack then
    ({ conn with state := .closed }, .close)
  else
    (conn, .none)

/-- The handler of `TimeWait`. -/
def onTimeWait (conn : TcpConnection) (seg : TcpInfo) : TcpConnection × TcpAction :=
  (conn, if seg.flags.fin then .sendAck else .none)

/-- Record activity on the connection. -/
def touch (conn : TcpConnection) (now : Nat) : TcpConnection :=
  { conn with lastActive := now }

/-- Take a segment. -/
def process (conn : TcpConnection) (now : Nat) (seg : TcpInfo) (payload : List Byte) :
    TcpConnection × TcpAction :=
  let conn := conn.touch now
  if seg.flags.rst then
    ({ conn with state := .closed }, .close)
  else
    match conn.state with
    | .synReceived => conn.onSynRecv seg
    | .established => conn.onEstablished seg payload
    | .finWait1 => conn.onFinWait1 seg
    | .finWait2 => conn.onFinWait2 seg
    | .closeWait => conn.onCloseWait seg
    | .closing => conn.onClosing seg
    | .lastAck => conn.onLastAck seg
    | .timeWait => conn.onTimeWait seg
    | _ => (conn, .none)

/-- Data for the client. -/
def send (conn : TcpConnection) (data : List Byte) : TcpConnection :=
  { conn with sendBuf := conn.sendBuf ++ data }

/-- What goes into the next segment. -/
def getSendData (conn : TcpConnection) : TcpConnection × Option (List Byte) :=
  if conn.sendBuf.isEmpty then
    (conn, none)
  else
    let len := min conn.sendBuf.length conn.mss.toNat
    let data := conn.sendBuf.take len
    ({ conn with
       sendBuf := conn.sendBuf.drop len
       sndNxt := conn.sndNxt + BitVec.ofNat 32 data.length
       bytesTx := conn.bytesTx + data.length }, some data)

/-- Begin to close. -/
def close (conn : TcpConnection) : TcpConnection × TcpAction :=
  match conn.state with
  | .established => ({ conn with state := .finWait1 }, .sendFin)
  | .closeWait => ({ conn with state := .lastAck }, .sendFin)
  | _ => (conn, .none)

/-- Idle for too long. -/
def isTimedOut (conn : TcpConnection) (now : Nat) : Bool :=
  let timeout := match conn.state with
    | .established =>
        if conn.isWebsocket then conn.config.websocketTimeout else conn.config.idleTimeout
    | .timeWait => conn.config.timeWait
    | _ => conn.config.connectTimeout
  decide (timeout < now - conn.lastActive)

end TcpConnection

/-!
# The proxy writer

The writer thread of a link receives chunks from the channel, puts them on the
books of its `ProxyWriter`, writes them to the proxy and gives their bytes
back to the in-flight counter.  It may stop at any point: dropping the
`ProxyWriter` releases what it holds and clears the liveness flag, dropping
the receiver discards what is still in the channel.

Each function below is one atomic step of that thread on the link with the
given index.  A step that is not enabled changes nothing.
-/

namespace ProxyLink

/-- The writer receives the oldest chunk of its channel. -/
def receiveNext (link : ProxyLink) : ProxyLink :=
  if link.receiverAlive ∧ link.writerAlive ∧ link.taken = link.received ∧
      link.received < link.sent.length then
    { link with received := link.received + 1 }
  else
    link

/-- `ProxyWriter::take` of the chunk just received. -/
def takeNext (link : ProxyLink) : ProxyLink :=
  match link.sent[link.taken]? with
  | none => link
  | some chunk =>
      if link.writerAlive ∧ link.taken < link.received then
        { link with held := link.held + chunk.length, taken := link.taken + 1 }
      else
        link

/-- What the writer holds is given back. -/
def settle (link : ProxyLink) : ProxyLink :=
  { link with held := 0, released := link.released + link.held }

end ProxyLink

namespace TcpConnection

/-- Every link the connection ever had, the one in use last. -/
def links (conn : TcpConnection) : List ProxyLink :=
  conn.oldLinks ++ conn.proxyTx.toList

/-- Update one link. -/
def modifyLink (conn : TcpConnection) (index : Nat) (update : ProxyLink → ProxyLink) :
    TcpConnection :=
  if index < conn.oldLinks.length then
    { conn with oldLinks := conn.oldLinks.modify index update }
  else if index = conn.oldLinks.length then
    { conn with proxyTx := conn.proxyTx.map update }
  else
    conn

@[simp]
theorem links_modifyLink (conn : TcpConnection) (index : Nat)
    (update : ProxyLink → ProxyLink) :
    (conn.modifyLink index update).links = conn.links.modify index update := by
  unfold modifyLink links
  split
  · rename_i old
    rw [modify_append_of_lt old]
  · rename_i notOld
    rcases Nat.exists_eq_add_of_le (Nat.le_of_not_lt notOld) with ⟨rest, rfl⟩
    rw [modify_append_length]
    cases rest with
    | zero => cases conn.proxyTx <;> simp
    | succ rest => cases attached : conn.proxyTx <;> simp [attached]

/-- Nothing but the fields shared with the writer threads differs. -/
def SameButProxy (conn conn' : TcpConnection) : Prop :=
  conn' = { conn with
    oldLinks := conn'.oldLinks
    proxyTx := conn'.proxyTx
    proxyInflight := conn'.proxyInflight
    proxyAlive := conn'.proxyAlive }

theorem SameButProxy.trans {first second third : TcpConnection}
    (before : SameButProxy first second) (after : SameButProxy second third) :
    SameButProxy first third := by
  unfold SameButProxy at before after ⊢
  rw [after, before]

section

variable (conn : TcpConnection) (index : Nat) (update : ProxyLink → ProxyLink)

theorem modifyLink_frame : SameButProxy conn (conn.modifyLink index update) := by
  unfold modifyLink
  split
  · rfl
  · split <;> rfl

@[simp]
theorem proxyInflight_modifyLink :
    (conn.modifyLink index update).proxyInflight = conn.proxyInflight := by
  unfold modifyLink
  split
  · rfl
  · split <;> rfl

theorem proxyTx_modifyLink :
    (conn.modifyLink index update).proxyTx = conn.proxyTx ∨
      (conn.modifyLink index update).proxyTx = conn.proxyTx.map update := by
  unfold modifyLink
  split
  · exact Or.inl rfl
  · split
    · exact Or.inr rfl
    · exact Or.inl rfl

end

/-- `ProxyWriter::release_held`. -/
def releaseHeld (conn : TcpConnection) (index : Nat) : TcpConnection :=
  match conn.links[index]? with
  | none => conn
  | some link =>
      if 0 < link.held then
        { conn with proxyInflight := wrappingSub conn.proxyInflight link.held }.modifyLink index
          ProxyLink.settle
      else
        conn

/-- The receive step of a writer. -/
def receive (conn : TcpConnection) (index : Nat) : TcpConnection :=
  conn.modifyLink index ProxyLink.receiveNext

/-- The take step of a writer. -/
def take (conn : TcpConnection) (index : Nat) : TcpConnection :=
  conn.modifyLink index ProxyLink.takeNext

/-- The writer still owns its `ProxyWriter`, and has taken what it received. -/
def writerReady (conn : TcpConnection) (index : Nat) : Bool :=
  (conn.links[index]?).any fun link => link.writerAlive && link.taken == link.received

/-- `ProxyWriter::written`. -/
def written (conn : TcpConnection) (index : Nat) : TcpConnection :=
  if conn.writerReady index then conn.releaseHeld index else conn

/-- The drop of a `ProxyWriter`. -/
def dropWriter (conn : TcpConnection) (index : Nat) : TcpConnection :=
  if conn.writerReady index then
    { conn.releaseHeld index with proxyAlive := false }.modifyLink index
      fun link => { link with writerAlive := false }
  else
    conn

/-- The drop of a channel's receiver, with everything still in the channel. -/
def dropReceiver (conn : TcpConnection) (index : Nat) : TcpConnection :=
  conn.modifyLink index fun link => { link with receiverAlive := false }

variable (conn : TcpConnection) (index : Nat)

theorem receive_frame :
    SameButProxy conn (conn.receive index) :=
  conn.modifyLink_frame index _

theorem take_frame :
    SameButProxy conn (conn.take index) :=
  conn.modifyLink_frame index _

theorem dropReceiver_frame :
    SameButProxy conn (conn.dropReceiver index) :=
  conn.modifyLink_frame index _

theorem releaseHeld_frame :
    SameButProxy conn (conn.releaseHeld index) := by
  unfold releaseHeld
  split
  · rfl
  · split
    · refine SameButProxy.trans ?_ (modifyLink_frame _ _ _)
      rfl
    · rfl

theorem written_frame :
    SameButProxy conn (conn.written index) := by
  unfold written
  split
  · exact conn.releaseHeld_frame index
  · rfl

theorem dropWriter_frame :
    SameButProxy conn (conn.dropWriter index) := by
  unfold dropWriter
  split
  · refine (conn.releaseHeld_frame index).trans
      (SameButProxy.trans ?_ (modifyLink_frame _ _ _))
    rfl
  · rfl

end TcpConnection

end Corduit.Netstack.Tcp
