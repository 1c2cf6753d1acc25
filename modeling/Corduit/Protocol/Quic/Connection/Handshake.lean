import Corduit.Protocol.Quic.Connection.Effects
import Corduit.Protocol.Quic.Tls.Messages

/-!
# Handshake bytes that arrive

A peer sends the handshake of each space as one stream of bytes, cut into CRYPTO
frames that may repeat what was sent before.  The offset of a frame counts from
the start of the stream.  The connection compares it with the number of bytes
that wait, which falls when messages are consumed.
-/

namespace Corduit.Protocol.Quic

open Collection Transition Word

/-- A CRYPTO frame lays its bytes over those that wait, unless it begins behind
their end. -/
theorem overlay_eq (waiting : List Byte) (offset : Nat) (data : List Byte) :
    overlay waiting offset data =
      if offset ≤ waiting.length then some (writeAt waiting offset data) else none := by
  unfold overlay writeAt
  dsimp only
  rcases Nat.lt_trichotomy offset waiting.length with less | equal | greater
  · rw [if_neg (Nat.ne_of_lt less), if_pos less, if_pos (Nat.le_of_lt less)]
    by_cases beyond : offset + data.length > waiting.length
    · rw [if_pos beyond, Nat.min_eq_right (Nat.le_of_lt beyond), if_pos less, List.drop_length,
        List.append_nil, List.append_assoc, List.take_append_drop,
        List.drop_eq_nil_of_le (Nat.le_of_lt beyond), List.append_nil]
    · have within : offset + data.length ≤ waiting.length := Nat.le_of_not_lt beyond
      rw [if_neg beyond, Nat.min_eq_left within, Nat.add_sub_cancel_left, List.take_length]
      by_cases some_ : offset + data.length > offset
      · rw [if_pos some_]
      · have empty : data = [] := List.length_eq_zero_iff.mp (by omega)
        rw [if_neg some_, empty, List.append_nil, List.length_nil, Nat.add_zero,
          List.take_append_drop]
  · rw [if_pos equal, if_pos (Nat.le_of_eq equal), equal, List.take_length,
      List.drop_eq_nil_of_le (Nat.le_add_right _ _), List.append_nil]
  · rw [if_neg (Nat.ne_of_gt greater), if_neg (Nat.not_lt_of_gt greater),
      if_neg (Nat.not_le_of_gt greater)]

/-- A CRYPTO frame of a space, cut from its stream: it begins `overlap` bytes
before the end of what has arrived. -/
structure Piece where
  space : PnSpace
  overlap : Nat
  length : Nat

/-- A connection while handshake bytes arrive: how many bytes of each stream it
was sent, and the bytes that the handshake has hashed since, in order. -/
structure Feeding (κ ξ : Type) where
  conn : Connection κ ξ
  received : PnSpace → Nat := fun _ => 0
  handed : List (PnSpace × List Byte) := []

namespace Feeding

variable {κ ξ : Type}

/-- Nothing has arrived. -/
def start (conn : Connection κ ξ) : Feeding κ ξ where
  conn := conn

/-- The bytes of a space that the handshake has taken. -/
def handedIn (feeding : Feeding κ ξ) (space : PnSpace) : List Byte :=
  (feeding.handed.filter (·.1 = space)).flatMap (·.2)

/-- The bytes of a space that wait for the rest of their message. -/
def waitingIn (feeding : Feeding κ ξ) (space : PnSpace) : List Byte :=
  (feeding.conn.spaces space).cryptoRecv

/-- Where the piece begins. -/
def offset (feeding : Feeding κ ξ) (piece : Piece) : Nat :=
  feeding.received piece.space - piece.overlap

/-- The bytes of the piece. -/
def data (streams : PnSpace → List Byte) (feeding : Feeding κ ξ) (piece : Piece) : List Byte :=
  slice (streams piece.space) (feeding.offset piece) piece.length

/-- How much of the stream is there behind the piece. -/
def receivedAfter (streams : PnSpace → List Byte) (feeding : Feeding κ ξ) (piece : Piece) :
    Nat :=
  max (feeding.received piece.space)
    (feeding.offset piece + (feeding.data streams piece).length)

/-- A frame arrives; an error ends the connection. -/
def arrive (library : TlsLibrary κ ξ) (streams : PnSpace → List Byte)
    (state : Except QuicError (Feeding κ ξ)) (piece : Piece) :
    Except QuicError (Feeding κ ξ) :=
  state.bind fun feeding =>
    match feeding.conn.onCrypto library piece.space (feeding.offset piece)
        (feeding.data streams piece) with
    | (.error error, _) => .error error
    | (.ok (), conn) => .ok
        { conn := conn
          received := Function.update feeding.received piece.space
            (feeding.receivedAfter streams piece)
          handed := feeding.handed ++
            [(piece.space, conn.tls.transcript.drop feeding.conn.tls.transcript.length)] }

/-- What the handshake has taken of each stream and what waits is what has
arrived; what it has taken are complete messages, each hashed once, in order. -/
structure Intact (streams : PnSpace → List Byte) (hello : List Byte) (feeding : Feeding κ ξ) :
    Prop where
  within : ∀ space, feeding.received space ≤ (streams space).length
  stream : ∀ space, feeding.handedIn space ++ feeding.waitingIn space =
    (streams space).take (feeding.received space)
  complete : ∀ space, Complete (feeding.handedIn space)
  transcript : feeding.conn.tls.transcript = hello ++ feeding.handed.flatMap (·.2)

/-- With the frame, the handshake is given exactly what it has not taken yet. -/
def FedExactly (streams : PnSpace → List Byte) (feeding : Feeding κ ξ) (piece : Piece) : Prop :=
  ∃ waiting, overlay (feeding.waitingIn piece.space) (feeding.offset piece)
      (feeding.data streams piece) = some waiting ∧
    feeding.handedIn piece.space ++ waiting =
      (streams piece.space).take (feeding.receivedAfter streams piece)

/-- The handshake has taken nothing of the space yet, or the frame repeats bytes
that wait, counted from the first of them. -/
def Aligned (streams : PnSpace → List Byte) (feeding : Feeding κ ξ) (piece : Piece) : Prop :=
  feeding.handedIn piece.space = [] ∨
    SliceOf (feeding.waitingIn piece.space) (feeding.offset piece) (feeding.data streams piece)

variable {library : TlsLibrary κ ξ} {streams : PnSpace → List Byte} {hello : List Byte}
  {feeding : Feeding κ ξ} {piece : Piece}

theorem handedIn_append_self (feeding : Feeding κ ξ) (space : PnSpace) (bytes : List Byte) :
    handedIn { feeding with handed := feeding.handed ++ [(space, bytes)] } space =
      feeding.handedIn space ++ bytes := by
  simp [handedIn]

theorem handedIn_append_of_ne {space other : PnSpace} (different : other ≠ space)
    (feeding : Feeding κ ξ) (bytes : List Byte) :
    handedIn { feeding with handed := feeding.handed ++ [(space, bytes)] } other =
      feeding.handedIn other := by
  simp [handedIn, different.symm]

variable (intact : feeding.Intact streams hello)

include intact

theorem Intact.sliceOf_data (piece : Piece) :
    SliceOf (streams piece.space) (feeding.offset piece) (feeding.data streams piece) :=
  SliceOf.of_slice (Nat.le_trans (Nat.sub_le _ _) (intact.within piece.space)) piece.length

theorem Intact.length_eq (space : PnSpace) :
    (feeding.handedIn space).length + (feeding.waitingIn space).length =
      feeding.received space := by
  rw [← List.length_append, intact.stream space, List.length_take_of_le (intact.within space)]

theorem Intact.receivedAfter_le (piece : Piece) :
    feeding.receivedAfter streams piece ≤ (streams piece.space).length :=
  Nat.max_le.mpr ⟨intact.within piece.space, (intact.sliceOf_data piece).inside⟩

/-- As long as the streams are intact, alignment decides whether a frame is laid
where it belongs. -/
theorem Intact.fedExactly_iff (piece : Piece) :
    feeding.FedExactly streams piece ↔ feeding.Aligned streams piece := by
  have cut := intact.sliceOf_data piece
  have lengths := intact.length_eq piece.space
  have after := intact.receivedAfter_le piece
  have split := intact.stream piece.space
  have early : feeding.offset piece ≤ feeding.received piece.space := Nat.sub_le _ _
  unfold FedExactly Aligned receivedAfter at *
  rw [overlay_eq]
  constructor
  · rintro ⟨waiting, laid, exactly⟩
    split at laid
    case isFalse => cases laid
    case isTrue inside =>
      cases laid
      by_cases fresh : feeding.handedIn piece.space = []
      · exact Or.inl fresh
      · have some_ : 0 < (feeding.handedIn piece.space).length := List.length_pos_iff.mpr fresh
        have total := congrArg List.length exactly
        rw [List.length_append, writeAt, List.length_append, List.length_append,
          List.length_take_of_le inside, List.length_drop, List.length_take_of_le after] at total
        have same : max (feeding.received piece.space) (feeding.offset piece +
            (feeding.data streams piece).length) = feeding.received piece.space := by omega
        rw [same, ← split] at exactly
        exact Or.inr ((SliceOf.iff_writeAt_eq inside).mpr (List.append_cancel_left exactly))
  · rintro (fresh | repeated)
    · rw [fresh, List.nil_append] at split
      rw [fresh, List.length_nil, Nat.zero_add] at lengths
      refine ⟨_, if_pos (lengths ▸ early), ?_⟩
      rw [fresh, List.nil_append, split]
      exact cut.writeAt_take early
    · have inside := repeated.inside
      refine ⟨_, if_pos (by omega), ?_⟩
      rw [(SliceOf.iff_writeAt_eq (by omega)).mp repeated, split]
      congr 1
      omega

end Feeding

namespace Connection

variable {κ ξ : Type} {library : TlsLibrary κ ξ} {space : PnSpace} {conn conn' : Connection κ ξ}

/-- A CRYPTO frame that is accepted: the handshake takes messages from what
waits, and the rest goes on waiting. -/
theorem consumed_of_onCrypto {offset : Nat} {data : List Byte}
    (handled : conn.onCrypto library space offset data = (.ok (), conn')) :
    ∃ waiting taken rest, overlay (conn.spaces space).cryptoRecv offset data = some waiting ∧
      Tls13Client.Consumed conn.tls conn'.tls waiting taken rest ∧
      (conn'.spaces space).cryptoRecv = rest ∧
      ∀ other, other ≠ space →
        (conn'.spaces other).cryptoRecv = (conn.spaces other).cryptoRecv := by
  rcases onCrypto_cases handled with ⟨_, impossible, _⟩ | ⟨_, _, _, _, _, impossible, _⟩ |
    ⟨waiting, count, tls, fed, keyed, laid, consumption, _, feeding, keying, same⟩
  · cases impossible
  · cases impossible
  · have consumed := Tls13Client.consumed_of_consumeCrypto consumption
    have rekeys := (Rekeys.takeCryptoPending fed).trans (Rekeys.installKeys fed.takeCryptoPending)
    rw [← keying] at rekeys
    have transcript : conn'.tls.transcript = tls.transcript := by
      rw [same]
      dsimp only
      rw [rekeys.transcript, feeding]
    have waits : ∀ other, (conn'.spaces other).cryptoRecv = (fed.spaces other).cryptoRecv := by
      intro other
      rw [same]
      exact (rekeys.spaces other).cryptoRecv
    refine ⟨waiting, _, _, laid, ⟨consumed.split, transcript.trans consumed.transcript,
      consumed.complete, consumed.stopped⟩, ?_, ?_⟩
    · rw [waits, feeding]
      dsimp only
      rw [spaces_updateSpace_self]
    · intro other different
      rw [waits, feeding]
      dsimp only
      rw [spaces_updateSpace_of_ne different]

end Connection

namespace Feeding

variable {κ ξ : Type} {library : TlsLibrary κ ξ} {streams : PnSpace → List Byte}
  {hello : List Byte} {feeding feeding' : Feeding κ ξ} {piece : Piece}

theorem consumed_of_arrive (arrived : arrive library streams (.ok feeding) piece = .ok feeding') :
    ∃ waiting taken rest, overlay (feeding.waitingIn piece.space) (feeding.offset piece)
        (feeding.data streams piece) = some waiting ∧
      Tls13Client.Consumed feeding.conn.tls feeding'.conn.tls waiting taken rest ∧
      feeding'.handed = feeding.handed ++ [(piece.space, taken)] ∧
      feeding'.received = Function.update feeding.received piece.space
        (feeding.receivedAfter streams piece) ∧
      feeding'.waitingIn piece.space = rest ∧
      ∀ other, other ≠ piece.space → feeding'.waitingIn other = feeding.waitingIn other := by
  unfold arrive at arrived
  dsimp only [Except.bind] at arrived
  rcases handled : feeding.conn.onCrypto library piece.space (feeding.offset piece)
    (feeding.data streams piece) with ⟨result, conn⟩
  rw [handled] at arrived
  cases result with
  | error error => cases arrived
  | ok =>
      cases arrived
      rcases Connection.consumed_of_onCrypto handled with
        ⟨waiting, taken, rest, laid, consumed, here, elsewhere⟩
      refine ⟨waiting, taken, rest, laid, consumed, ?_, rfl, here, elsewhere⟩
      dsimp only
      rw [consumed.transcript, List.drop_left]

theorem Intact.arrive (intact : feeding.Intact streams hello)
    (exactly : feeding.FedExactly streams piece)
    (arrived : arrive library streams (.ok feeding) piece = .ok feeding') :
    feeding'.Intact streams hello := by
  rcases consumed_of_arrive arrived with
    ⟨waiting, taken, rest, laid, consumed, handed, received, here, elsewhere⟩
  rcases exactly with ⟨waiting', laid', exactly⟩
  rw [laid] at laid'
  cases laid'
  have handedHere : feeding'.handedIn piece.space = feeding.handedIn piece.space ++ taken := by
    unfold handedIn
    rw [handed]
    exact handedIn_append_self feeding piece.space taken
  have handedElse : ∀ other, other ≠ piece.space →
      feeding'.handedIn other = feeding.handedIn other := by
    intro other different
    unfold handedIn
    rw [handed]
    exact handedIn_append_of_ne different feeding taken
  constructor
  · intro space
    rw [received]
    by_cases same : space = piece.space
    · rw [same, Function.update_self]
      exact intact.receivedAfter_le piece
    · rw [Function.update_of_ne same]
      exact intact.within space
  · intro space
    rw [received]
    by_cases same : space = piece.space
    · rw [same, Function.update_self, handedHere, here, List.append_assoc, ← consumed.split]
      exact exactly
    · rw [Function.update_of_ne same, handedElse space same, elsewhere space same]
      exact intact.stream space
  · intro space
    by_cases same : space = piece.space
    · rw [same, handedHere]
      exact (intact.complete piece.space).append consumed.complete
    · rw [handedElse space same]
      exact intact.complete space
  · rw [consumed.transcript, intact.transcript, handed, List.flatMap_append, List.append_assoc]
    simp

/-- The invariant, unless the client has failed. -/
def IsIntact (streams : PnSpace → List Byte) (hello : List Byte) :
    Except QuicError (Feeding κ ξ) → Prop
  | .ok feeding => feeding.Intact streams hello
  | .error _ => True

/-- No complete message waits in any space. -/
def NoneWaits : Except QuicError (Feeding κ ξ) → Prop
  | .ok feeding => ∀ space, takeHsMessage (feeding.waitingIn space) = none
  | .error _ => True

/-- Fed exactly, unless the client has failed. -/
def IsFedExactly (streams : PnSpace → List Byte) : Except QuicError (Feeding κ ξ) → Piece → Prop
  | .ok feeding, piece => feeding.FedExactly streams piece
  | .error _, _ => True

/-- Aligned, unless the client has failed. -/
def IsAligned (streams : PnSpace → List Byte) : Except QuicError (Feeding κ ξ) → Piece → Prop
  | .ok feeding, piece => feeding.Aligned streams piece
  | .error _, _ => True

/-- Among the bytes that have not been taken, no complete message stands behind a
Finished. -/
def FinishesLast (streams : PnSpace → List Byte) : Except QuicError (Feeding κ ξ) → Piece → Prop
  | .ok feeding, piece => FinishedLast (((streams piece.space).take
      (feeding.receivedAfter streams piece)).drop (feeding.handedIn piece.space).length)
  | .error _, _ => True

section

variable (state : Except QuicError (Feeding κ ξ)) (piece : Piece)
  (intact : IsIntact streams hello state)

include intact

theorem isIntact_arrive_iff :
    (IsIntact streams hello (arrive library streams state piece) ∧
      IsFedExactly streams state piece) ↔ IsAligned streams state piece := by
  cases state with
  | error error => exact iff_of_true ⟨trivial, trivial⟩ trivial
  | ok feeding =>
      have decided := Intact.fedExactly_iff intact piece
      constructor
      · exact fun both => decided.mp both.2
      · intro aligned
        have exactly := decided.mpr aligned
        refine ⟨?_, exactly⟩
        cases arrived : arrive library streams (.ok feeding) piece with
        | error error => trivial
        | ok feeding' => exact Intact.arrive intact exactly arrived

theorem noneWaits_arrive (none_ : NoneWaits state) (aligned : IsAligned streams state piece)
    (last : FinishesLast streams state piece) :
    NoneWaits (arrive library streams state piece) := by
  cases state with
  | error error => trivial
  | ok feeding =>
      cases arrived : arrive library streams (.ok feeding) piece with
      | error error => trivial
      | ok feeding' =>
          rcases (Intact.fedExactly_iff intact piece).mpr aligned with ⟨waiting, laid, exactly⟩
          rcases consumed_of_arrive arrived with
            ⟨waiting', taken, rest, laid', consumed, _, _, here, elsewhere⟩
          rw [laid] at laid'
          cases laid'
          intro space
          by_cases same : space = piece.space
          · rw [same, here]
            refine consumed.exhausted ?_
            have remaining := last
            unfold FinishesLast at remaining
            dsimp only at remaining
            rw [← exactly, List.drop_left] at remaining
            exact remaining
          · rw [elsewhere space same]
            exact none_ space

end

/-- In every delivery of handshake streams, the handshake is given exactly the
bytes it has not taken, each message once and in order, if and only if every
frame arrives before anything of its space is taken or repeats bytes that wait.
No complete message is then left waiting, unless it stands behind a Finished. -/
theorem crypto_streams_intact_iff (library : TlsLibrary κ ξ) (streams : PnSpace → List Byte)
    (tls : Tls13Client κ ξ) (scid dcid : List Byte) (key writeKey : κ)
    (initialMaxData initialMaxStreamData : Nat) (pieces : List Piece) :
    ((RunAlways (arrive library streams) (IsIntact streams tls.transcript)
            (.ok (start (.start tls scid dcid key writeKey initialMaxData initialMaxStreamData)))
            pieces ∧
          RunMeets (arrive library streams) (IsFedExactly streams)
            (.ok (start (.start tls scid dcid key writeKey initialMaxData initialMaxStreamData)))
            pieces) ↔
        RunMeets (arrive library streams) (IsAligned streams)
          (.ok (start (.start tls scid dcid key writeKey initialMaxData initialMaxStreamData)))
          pieces) ∧
      (RunMeets (arrive library streams) (IsAligned streams)
          (.ok (start (.start tls scid dcid key writeKey initialMaxData initialMaxStreamData)))
          pieces →
        RunMeets (arrive library streams) (FinishesLast streams)
          (.ok (start (.start tls scid dcid key writeKey initialMaxData initialMaxStreamData)))
          pieces →
        RunAlways (arrive library streams) NoneWaits
          (.ok (start (.start tls scid dcid key writeKey initialMaxData initialMaxStreamData)))
          pieces) := by
  have nothing : ∀ space, waitingIn (start (.start tls scid dcid key writeKey initialMaxData
      initialMaxStreamData)) space = [] := by
    intro space
    cases space with
    | initial => rfl
    | handshake => rfl
    | application => rfl
  have initially : IsIntact streams tls.transcript (.ok (start (.start tls scid dcid key writeKey
      initialMaxData initialMaxStreamData))) := by
    refine ⟨fun _ => Nat.zero_le _, ?_, fun _ => .nil, (List.append_nil _).symm⟩
    intro space
    rw [nothing]
    rfl
  have preserved : ∀ (state : Except QuicError (Feeding κ ξ)) (piece : Piece),
      IsIntact streams tls.transcript state → IsAligned streams state piece →
      IsIntact streams tls.transcript (arrive library streams state piece) :=
    fun state piece intact aligned => ((isIntact_arrive_iff state piece intact).mpr aligned).1
  refine ⟨runAlways_and_runMeets_iff (IsIntact streams tls.transcript) (fun _ intact => intact)
    isIntact_arrive_iff preserved initially, ?_⟩
  intro aligned last
  refine runAlways_of_invariant
    (fun state => IsIntact streams tls.transcript state ∧ NoneWaits state)
    (fun _ both => both.2) ?_ ⟨initially, ?_⟩ (runMeets_and aligned last)
  · rintro state piece ⟨intact, none_⟩ ⟨alignedHere, lastHere⟩
    exact ⟨preserved state piece intact alignedHere,
      noneWaits_arrive state piece intact none_ alignedHere lastHere⟩
  · intro space
    rw [nothing]
    rfl

/-- The flights of a server. -/
def serverFlights : PnSpace → List Byte
  | .initial => Plain.serverHello
  | .handshake => Plain.encryptedExtensions ++ Plain.certificate ++ Plain.certificateVerify ++
      Plain.finished
  | .application => []

/-- The second flight is cut behind its first message. -/
def cutFlights : List Piece :=
  [⟨.initial, 0, Plain.serverHello.length⟩,
    ⟨.handshake, 0, Plain.encryptedExtensions.length⟩,
    ⟨.handshake, 0, Plain.certificate.length⟩]

theorem overlay_of_isFedExactly {state : Except QuicError (Feeding κ ξ)}
    (exactly : IsFedExactly streams state piece) :
    state.map (fun feeding => (overlay (feeding.waitingIn piece.space) (feeding.offset piece)
      (feeding.data streams piece)).isSome) ≠ .ok false := by
  cases state with
  | error error => exact fun impossible => by cases impossible
  | ok feeding =>
      rcases exactly with ⟨waiting, laid, _⟩
      rw [Except.map, laid]
      exact fun impossible => by cases impossible

/-- The frame behind the cut is refused as a gap. -/
theorem cut_flight_refused :
    run (arrive Plain.tls serverFlights) (.ok (start Plain.connection)) cutFlights =
        .error (.protocol "CRYPTO gap from peer") ∧
      ¬ RunMeets (arrive Plain.tls serverFlights) (IsFedExactly serverFlights)
        (.ok (start Plain.connection)) cutFlights := by
  refine ⟨rfl, ?_⟩
  rintro ⟨_, _, exactly, _⟩
  refine overlay_of_isFedExactly exactly ?_
  rfl

end Feeding

end Corduit.Protocol.Quic
