import Corduit.Protocol.Quic.Connection.Session

/-!
# The limits of the peer

The transport parameters of the server grant the first credit, and MAX frames
raise it.  The connection reads the frames and never the parameters, and what
it reads for a single stream is not what it consults when it sends on the
stream: no byte of a stream is ever sent.
-/

namespace Corduit.Protocol.Quic

open Collection Transition Word

/-- The largest values of the MAX frames received so far, zero without one. -/
structure Raised where
  data : Nat := 0
  bidi : Nat := 0
  uni : Nat := 0
  stream : Nat → Nat := fun _ => 0

/-- Note a frame of the peer. -/
def Raised.note (raised : Raised) : Frame → Raised
  | .maxData limit => { raised with data := max raised.data limit }
  | .maxStreams unidirectional limit =>
      if unidirectional then
        { raised with uni := max raised.uni limit }
      else
        { raised with bidi := max raised.bidi limit }
  | .maxStreamData streamId limit =>
      { raised with
        stream := Function.update raised.stream streamId (max (raised.stream streamId) limit) }
  | _ => raised

/-- The first limit for a stream that the client opens. -/
def TransportParameters.initialMaxStreamData (tp : TransportParameters) (id : Nat) : Nat :=
  if id &&& 2 = 0 then tp.initialMaxStreamDataBidiRemote else tp.initialMaxStreamDataUni

/-- A connection and the frames that raised its limits. -/
structure Sender (κ ξ : Type) where
  conn : Connection κ ξ
  raised : Raised

/-- What the connection allows is what the peer has granted. -/
structure SendState.Credited (state : SendState) (tp : TransportParameters) (raised : Raised) :
    Prop where
  data : state.peerMaxData = max tp.initialMaxData raised.data
  bidi : state.peerBidiLimit = max tp.initialMaxStreamsBidi raised.bidi
  uni : state.peerUniLimit = max tp.initialMaxStreamsUni raised.uni
  stream : ∀ id stream, id &&& 1 = 0 → state.streams.lookup id = some stream →
    state.sendLimit id = max (tp.initialMaxStreamData id) (raised.stream id)

/-- The parameters grant no more than the frames, and nothing for the streams
that the client has opened. -/
structure SendState.Covered (state : SendState) (tp : TransportParameters) (raised : Raised) :
    Prop where
  data : tp.initialMaxData ≤ raised.data
  bidi : tp.initialMaxStreamsBidi ≤ raised.bidi
  uni : tp.initialMaxStreamsUni ≤ raised.uni
  stream : ∀ id stream, id &&& 1 = 0 → state.streams.lookup id = some stream →
    tp.initialMaxStreamData id = 0 ∧ raised.stream id = 0

/-- The connection keeps the largest values of the frames, and no limits for
streams. -/
def Raised.limits (raised : Raised) : Limits where
  bidi := raised.bidi
  uni := raised.uni
  data := raised.data
  streamDataBidi := 0
  streamDataUni := 0

namespace SendState

variable {state : SendState} {raised : Raised}

variable (matched : state.limits = raised.limits)

include matched

theorem credited_iff_covered (tp : TransportParameters) :
    state.Credited tp raised ↔ state.Covered tp raised := by
  have data : state.peerMaxData = raised.data := congrArg Limits.data matched
  have bidi : state.peerBidiLimit = raised.bidi := congrArg Limits.bidi matched
  have uni : state.peerUniLimit = raised.uni := congrArg Limits.uni matched
  have streamBidi : state.peerMaxStreamDataBidi = 0 := congrArg Limits.streamDataBidi matched
  have limit : ∀ id, id &&& 1 = 0 → state.sendLimit id = 0 := by
    intro id client
    rw [sendLimit, if_pos client, streamBidi]
  constructor
  · intro credited
    refine ⟨?_, ?_, ?_, ?_⟩
    · have := credited.data
      omega
    · have := credited.bidi
      omega
    · have := credited.uni
      omega
    · intro id stream client found
      have := credited.stream id stream client found
      rw [limit id client] at this
      omega
  · intro covered
    refine ⟨?_, ?_, ?_, ?_⟩
    · have := covered.data
      omega
    · have := covered.bidi
      omega
    · have := covered.uni
      omega
    · intro id stream client found
      have := covered.stream id stream client found
      rw [limit id client]
      omega

theorem limits_onMaxData (limit : Nat) :
    (state.onMaxData limit).limits = (raised.note (.maxData limit)).limits := by
  simp only [limits, Raised.limits, Limits.mk.injEq] at matched
  rcases matched with ⟨bidi, uni, data, streamBidi, streamUni⟩
  unfold onMaxData
  split
  · simp only [limits, Raised.limits, Raised.note, Limits.mk.injEq]
    exact ⟨bidi, uni, by omega, streamBidi, streamUni⟩
  · simp only [limits, Raised.limits, Raised.note, Limits.mk.injEq]
    exact ⟨bidi, uni, by omega, streamBidi, streamUni⟩

theorem limits_onMaxStreams (unidirectional : Bool) (limit : Nat) :
    (state.onMaxStreams unidirectional limit).limits =
      (raised.note (.maxStreams unidirectional limit)).limits := by
  simp only [limits, Raised.limits, Limits.mk.injEq] at matched
  rcases matched with ⟨bidi, uni, data, streamBidi, streamUni⟩
  unfold onMaxStreams
  cases unidirectional with
  | true =>
      simp only [if_true, Raised.note]
      split
      · simp only [limits, Raised.limits, Limits.mk.injEq]
        exact ⟨bidi, by omega, data, streamBidi, streamUni⟩
      · simp only [limits, Raised.limits, Limits.mk.injEq]
        exact ⟨bidi, by omega, data, streamBidi, streamUni⟩
  | false =>
      simp only [Bool.false_eq_true, if_false, Raised.note]
      split
      · simp only [limits, Raised.limits, Limits.mk.injEq]
        exact ⟨by omega, uni, data, streamBidi, streamUni⟩
      · simp only [limits, Raised.limits, Limits.mk.injEq]
        exact ⟨by omega, uni, data, streamBidi, streamUni⟩

end SendState

namespace Connection

variable {κ ξ : Type} {library : TlsLibrary κ ξ} {packets : PacketLibrary κ} {conn : Connection κ ξ}

theorem send_settle (outcome : Except QuicError Unit × Connection κ ξ) :
    (settle outcome).send = outcome.2.send := by
  rcases outcome with ⟨result, conn⟩
  cases result with
  | ok => rfl
  | error error =>
      unfold settle processFatal
      dsimp only
      split
      · rfl
      · rfl

theorem send_onCrypto (conn : Connection κ ξ) (space : PnSpace) (offset : Nat)
    (data : List Byte) : (conn.onCrypto library space offset data).2.send = conn.send := by
  rcases @rekeys_onCrypto _ _ library conn space offset data with ⟨_, _, rekeys⟩
  exact rekeys.send

theorem send_processRetry (packets : PacketLibrary κ) (conn : Connection κ ξ) (data : List Byte) :
    (conn.processRetry packets data).2.send = conn.send := by
  rcases processRetry_cases packets conn data with same | ⟨retry, fresh, tls, _, same⟩
  · rw [same]
  · rw [same]
    rfl

end Connection

namespace Sender

variable {κ ξ : Type} (library : TlsLibrary κ ξ) (packets : PacketLibrary κ)

/-- The frames of a step that raise limits. -/
def noteOp (raised : Raised) : DriverOp → Raised
  | .conn (.frame _ _ frame) => raised.note frame
  | _ => raised

/-- Steps one after the other; nothing follows a panic. -/
def advance (state : Except Fault (Sender κ ξ)) (op : DriverOp) : Except Fault (Sender κ ξ) :=
  state.bind fun sender =>
    (Connection.drive library packets (.ok sender.conn) op).map fun conn =>
      { conn := conn, raised := noteOp sender.raised op }

/-- Once the handshake is complete, what the connection allows is what the peer
has granted. -/
def IsCredited : Except Fault (Sender κ ξ) → Prop
  | .ok sender => ∀ tp, sender.conn.tls.isComplete = true → sender.conn.tls.peerTp = some tp →
      sender.conn.send.Credited tp sender.raised
  | .error _ => True

/-- Once the handshake is complete, its parameters grant no more than the frames
do. -/
def IsCovered : Except Fault (Sender κ ξ) → Prop
  | .ok sender => ∀ tp, sender.conn.tls.isComplete = true → sender.conn.tls.peerTp = some tp →
      sender.conn.send.Covered tp sender.raised
  | .error _ => True

/-- Followed, unless the program has stopped. -/
def IsMatched : Except Fault (Sender κ ξ) → Prop
  | .ok sender => sender.conn.send.limits = sender.raised.limits
  | .error _ => True

variable {library packets} {sender : Sender κ ξ}

theorem isMatched_frame (matched : sender.conn.send.limits = sender.raised.limits)
    (space : PnSpace) (clock : Clock) (frame : Frame) {conn : Connection κ ξ}
    (performed : sender.conn.perform library packets (.frame space clock frame) = .ok conn) :
    conn.send.limits = (sender.raised.note frame).limits := by
  unfold Connection.perform at performed
  dsimp only at performed
  cases processed : sender.conn.processFrame library clock space frame with
  | error fault =>
      rw [processed] at performed
      cases performed
  | ok outcome =>
      rcases outcome with ⟨result, conn'⟩
      rw [processed] at performed
      cases performed
      rw [Connection.send_settle]
      dsimp only
      rcases Connection.processFrame_cases processed with ⟨offset, data, rfl, handled⟩ |
        ⟨limit, rfl, same⟩ | ⟨unidirectional, limit, rfl, same⟩ | ⟨rfl, same⟩ |
        ⟨untouched, notCrypto, notMaxData, notMaxStreams, notDone⟩
      · have kept := @Connection.send_onCrypto _ _ library sender.conn space offset data
        rw [handled] at kept
        dsimp only at kept
        rw [kept]
        exact matched
      · rw [same]
        exact SendState.limits_onMaxData matched limit
      · rw [same]
        exact SendState.limits_onMaxStreams matched unidirectional limit
      · rw [same]
        exact matched
      · rw [untouched.limits, matched]
        cases frame with
        | maxData limit => exact absurd rfl (notMaxData limit)
        | maxStreams unidirectional limit => exact absurd rfl (notMaxStreams unidirectional limit)
        | _ => rfl

theorem isMatched_advance (state : Except Fault (Sender κ ξ)) (op : DriverOp)
    (matched : IsMatched state) : IsMatched (advance library packets state op) := by
  cases state with
  | error fault => exact trivial
  | ok sender =>
      have moved : advance library packets (.ok sender) op =
          (Connection.drive library packets (.ok sender.conn) op).map fun conn =>
            { conn := conn, raised := noteOp sender.raised op } := rfl
      rw [moved]
      cases op with
      | retry data =>
          have driven : Connection.drive library packets (.ok sender.conn) (.retry data) =
            .ok (Connection.settle (sender.conn.processRetry packets data)) := rfl
          rw [driven]
          have kept : (Connection.settle (sender.conn.processRetry packets data)).send =
              sender.conn.send := by
            rw [Connection.send_settle, Connection.send_processRetry]
          exact (congrArg SendState.limits kept).trans matched
      | conn op =>
          have driven : Connection.drive library packets (.ok sender.conn) (.conn op) =
            sender.conn.perform library packets op := rfl
          rw [driven]
          cases performed : sender.conn.perform library packets op with
          | error fault => exact trivial
          | ok conn =>
              cases op with
              | frame space clock frame => exact isMatched_frame matched space clock frame performed
              | note space pn =>
                  cases performed
                  have kept : (if sender.conn.closed.isNone then
                      sender.conn.updateSpace space (·.noteReceived pn)
                    else sender.conn).send = sender.conn.send := by
                    split
                    · rfl
                    · rfl
                  exact (congrArg SendState.limits kept).trans matched
              | adopt parsed =>
                  cases performed
                  have kept : (sender.conn.adoptScid parsed).send = sender.conn.send := by
                    rcases Connection.adoptScid_eq sender.conn parsed with ⟨dcid, adopted⟩
                    rw [adopted]
                  exact (congrArg SendState.limits kept).trans matched
              | act op => exact (Connection.Untouched.act performed).limits.trans matched

/-- In every run, a connection allows what the peer has granted exactly when the
transport parameters grant no more than the MAX frames do, and nothing is
granted for the streams that the client has opened. -/
theorem send_credit_follows_peer_iff (library : TlsLibrary κ ξ) (packets : PacketLibrary κ)
    (tls : Tls13Client κ ξ) (scid dcid : List Byte) (key writeKey : κ)
    (initialMaxData initialMaxStreamData : Nat) (ops : List DriverOp) :
    RunAlways (advance library packets) IsCredited
        (.ok ⟨.start tls scid dcid key writeKey initialMaxData initialMaxStreamData, {}⟩) ops ↔
      RunAlways (advance library packets) IsCovered
        (.ok ⟨.start tls scid dcid key writeKey initialMaxData initialMaxStreamData, {}⟩) ops := by
  refine runAlways_iff IsMatched ?_ (fun state op matched _ => isMatched_advance state op matched)
    ?_ ops
  · intro state matched
    cases state with
    | error fault => exact Iff.rfl
    | ok sender =>
        exact forall_congr' fun tp => imp_congr_right fun _ => imp_congr_right fun _ =>
          SendState.credited_iff_covered matched tp
  · rfl

/-- The flights of a server that grants 100 bytes and 3 streams, then two more
frames that open the way for one stream of the client. -/
def grantedStream : List DriverOp :=
  [.conn (.frame .initial ⟨0, 0, 0⟩ (.crypto 0 Plain.serverHello)),
    .conn (.frame .handshake ⟨0, 0, 0⟩ (.crypto 0 (Plain.encryptedExtensions ++
      Plain.certificate ++ Plain.certificateVerify ++ Plain.finished))),
    .conn (.frame .application ⟨0, 0, 0⟩ (.maxStreams false 3)),
    .conn (.frame .application ⟨0, 0, 0⟩ (.maxData 100)),
    .conn (.act (.openStream false))]

/-- The server grants 50 bytes for the stream, and the connection sends none. -/
theorem granted_stream_never_sent :
    ¬ RunAlways (advance Plain.tls Plain.packets) IsCredited (.ok ⟨Plain.connection, {}⟩)
      grantedStream := by
  intro always
  have credited := run_of_runAlways always
  have evaluated : (run (advance Plain.tls Plain.packets) (.ok ⟨Plain.connection, {}⟩)
      grantedStream).map (fun sender => (sender.conn.tls.isComplete,
        sender.conn.tls.peerTp.map (·.initialMaxStreamDataBidiRemote),
        (sender.conn.send.streams.lookup 0).isSome, sender.conn.send.sendLimit 0)) =
      .ok (true, some 50, true, 0) := rfl
  generalize run (advance Plain.tls Plain.packets) (.ok ⟨Plain.connection, {}⟩) grantedStream =
    state at credited evaluated
  cases state with
  | error fault => cases evaluated
  | ok sender =>
      simp only [Except.map, Except.ok.injEq, Prod.mk.injEq, Option.map_eq_some_iff] at evaluated
      rcases evaluated with ⟨complete, ⟨tp, found, granted⟩, opened, limit⟩
      rcases Option.isSome_iff_exists.mp opened with ⟨stream, opened⟩
      have equal := (credited tp complete found).stream 0 stream rfl opened
      rw [limit, TransportParameters.initialMaxStreamData, if_pos (by decide), granted] at equal
      omega

end Sender

end Corduit.Protocol.Quic
