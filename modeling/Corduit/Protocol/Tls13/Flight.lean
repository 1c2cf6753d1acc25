import Corduit.Protocol.Tls13.Echo

/-!
# TLS 1.3: the flight of the server

A handshake should complete only through EncryptedExtensions, a Certificate, a
CertificateVerify and a Finished, in this order and with nothing else.  A
CertificateVerify needs a Certificate, but a Certificate needs no
EncryptedExtensions, and the other checks come when the record of the Finished
is used up.
-/

namespace Corduit.Protocol.Tls13

open Transition Transport Word

namespace Flight

variable {ξ : Type} {primitives : Primitives ξ} {config : Tls13ClientConfig ξ}
  {handshake : Handshake} {flight flight' : Flight ξ} {msgType : Byte}
  {body message : List Byte}

/-- What an accepted message does to the flight. -/
inductive Accepted (primitives : Primitives ξ) (config : Tls13ClientConfig ξ)
    (handshake : Handshake) (flight : Flight ξ) (body message : List Byte) :
    Byte → Flight ξ → Prop where
  | extensions {alpn : Option (List Byte)} (first : flight.sawEe = false) :
      Accepted primitives config handshake flight body message HS_ENCRYPTED_EXTENSIONS
        { flight.hashed message with sawEe := true, negotiatedAlpn := alpn }
  | certificate {der : List Byte} {leaf : ξ} (first : flight.leaf = none)
      (checked : authenticated primitives config body = .ok (der, leaf)) :
      Accepted primitives config handshake flight body message HS_CERTIFICATE
        { flight.hashed message with leafDer := some der, leaf := some leaf }
  | certificateVerify {leaf : ξ} (first : flight.sawCertVerify = false)
      (known : flight.leaf = some leaf)
      (signed : checkSignature primitives config handshake leaf flight.transcript body = .ok ()) :
      Accepted primitives config handshake flight body message HS_CERTIFICATE_VERIFY
        { flight.hashed message with sawCertVerify := true }
  | finished (mac : handshake.secrets.finished primitives handshake.secrets.serverHsTraffic
        flight.transcript = body) :
      Accepted primitives config handshake flight body message HS_FINISHED
        { flight with serverFinishedMsg := some message }
  | ticket : Accepted primitives config handshake flight body message HS_NEW_SESSION_TICKET flight

theorem accepted_of_onMessage
    (handled : flight.onMessage primitives config handshake msgType body message = .ok flight') :
    Accepted primitives config handshake flight body message msgType flight' := by
  unfold onMessage at handled
  by_cases extensions : msgType = HS_ENCRYPTED_EXTENSIONS
  · rw [if_pos extensions] at handled
    subst extensions
    unfold onEncryptedExtensions at handled
    split at handled
    · cases handled
    case isFalse first =>
      have first : flight.sawEe = false := by simpa using first
      rcases bind_eq_ok_iff.mp handled with ⟨selected, _, handled⟩
      cases selected with
      | none =>
          rw [← pure_eq_ok_iff.mp handled]
          exact .extensions first
      | some proto =>
          dsimp only at handled
          split at handled
          · rw [← pure_eq_ok_iff.mp handled]
            exact .extensions first
          · cases handled
  rw [if_neg extensions] at handled
  by_cases certificate : msgType = HS_CERTIFICATE
  · rw [if_pos certificate] at handled
    subst certificate
    unfold onCertificate at handled
    split at handled
    · cases handled
    case isFalse first =>
      rcases bind_eq_ok_iff.mp handled with ⟨⟨der, leaf⟩, checked, handled⟩
      rw [← pure_eq_ok_iff.mp handled]
      exact .certificate (by simpa using first) checked
  rw [if_neg certificate] at handled
  by_cases certificateVerify : msgType = HS_CERTIFICATE_VERIFY
  · rw [if_pos certificateVerify] at handled
    subst certificateVerify
    unfold onCertificateVerify at handled
    split at handled
    · cases handled
    case isFalse first =>
      cases known : flight.leaf with
      | none =>
          rw [known] at handled
          cases handled
      | some leaf =>
          rw [known] at handled
          dsimp only at handled
          rcases bind_eq_ok_iff.mp handled with ⟨_, signed, handled⟩
          rw [← pure_eq_ok_iff.mp handled]
          exact .certificateVerify (by simpa using first) known signed
  rw [if_neg certificateVerify] at handled
  by_cases finished : msgType = HS_FINISHED
  · rw [if_pos finished] at handled
    subst finished
    unfold onFinished at handled
    split at handled
    · cases handled
    split at handled
    · cases handled
    case isFalse mac =>
      cases handled
      exact .finished (not_not.mp mac)
  rw [if_neg finished] at handled
  by_cases ticket : msgType = HS_NEW_SESSION_TICKET
  · rw [if_pos ticket] at handled
    subst ticket
    cases handled
    exact .ticket
  rw [if_neg ticket] at handled
  split at handled
  · cases handled
  · cases handled

section

variable (accepted : Accepted primitives config handshake flight body message msgType flight')

include accepted

theorem Accepted.keeps :
    (flight.sawEe = true → flight'.sawEe = true) ∧
      (msgType ≠ HS_FINISHED → flight'.serverFinishedMsg = flight.serverFinishedMsg) := by
  cases accepted with
  | extensions => exact ⟨fun _ => rfl, fun _ => rfl⟩
  | certificate => exact ⟨id, fun _ => rfl⟩
  | certificateVerify => exact ⟨id, fun _ => rfl⟩
  | finished => exact ⟨id, fun other => absurd rfl other⟩
  | ticket => exact ⟨id, fun _ => rfl⟩

theorem Accepted.sees :
    (msgType = HS_ENCRYPTED_EXTENSIONS → flight'.sawEe = true) ∧
      (msgType = HS_CERTIFICATE_VERIFY → flight'.sawCertVerify = true) := by
  cases accepted with
  | extensions => exact ⟨fun _ => rfl, fun other => absurd other (by decide)⟩
  | certificate =>
      exact ⟨fun other => absurd other (by decide), fun other => absurd other (by decide)⟩
  | certificateVerify => exact ⟨fun other => absurd other (by decide), fun _ => rfl⟩
  | finished =>
      exact ⟨fun other => absurd other (by decide), fun other => absurd other (by decide)⟩
  | ticket =>
      exact ⟨fun other => absurd other (by decide), fun other => absurd other (by decide)⟩

end

/-- The messages are accepted one after the other. -/
def Accepts (primitives : Primitives ξ) (config : Tls13ClientConfig ξ) (handshake : Handshake) :
    Flight ξ → List (List Byte) → Flight ξ → Prop
  | flight, [], flight' => flight = flight'
  | flight, message :: messages, flight' => ∃ msgType middle, IsMessage msgType message ∧
      flight.onMessage primitives config handshake msgType (message.drop 4) message = .ok middle ∧
      Accepts primitives config handshake middle messages flight'

theorem Accepts.append {messages messages' : List (List Byte)} {middle : Flight ξ}
    (first : Accepts primitives config handshake flight messages middle)
    (second : Accepts primitives config handshake middle messages' flight') :
    Accepts primitives config handshake flight (messages ++ messages') flight' := by
  induction messages generalizing flight with
  | nil =>
      subst first
      exact second
  | cons message messages ih =>
      rcases first with ⟨msgType, next, is, handled, later⟩
      exact ⟨msgType, next, is, handled, ih later⟩

theorem Accepts.all {messages : List (List Byte)}
    (accepts : Accepts primitives config handshake flight messages flight') :
    ∀ message ∈ messages, ∃ msgType, IsMessage msgType message := by
  induction messages generalizing flight with
  | nil => simp
  | cons message messages ih =>
      rcases accepts with ⟨msgType, next, is, _, later⟩
      rw [List.forall_mem_cons]
      exact ⟨⟨msgType, is⟩, ih later⟩

theorem accepts_of_drainFrom {bound : Nat} {pending rest : List Byte}
    (drained : drainFrom primitives config handshake bound flight pending = .ok (flight', rest))
    (enough : pending.length ≤ bound) :
    ∃ messages, pending = messages.flatten ++ rest ∧
      Accepts primitives config handshake flight messages flight' ∧
      readHsMessage rest = none := by
  induction bound generalizing flight pending with
  | zero =>
      have empty := List.length_eq_zero_iff.mp (Nat.le_zero.mp enough)
      subst empty
      cases drained
      exact ⟨[], rfl, rfl, rfl⟩
  | succ bound ih =>
      rw [drainFrom] at drained
      cases found : readHsMessage pending with
      | none =>
          rw [found] at drained
          cases drained
          exact ⟨[], rfl, rfl, found⟩
      | some parts =>
          rcases parts with ⟨msgType, body, used⟩
          rw [found] at drained
          rcases bind_eq_ok_iff.mp drained with ⟨middle, handled, drained⟩
          rcases readHsMessage_split found with ⟨within, header, _, _⟩
          have shorter : (pending.drop used).length ≤ bound := by
            rw [List.length_drop]
            omega
          rcases ih drained shorter with ⟨messages, split, accepts, stopped⟩
          refine ⟨pending.take used :: messages, ?_,
            ⟨msgType, middle, isMessage_take found, handled, accepts⟩, stopped⟩
          rw [List.flatten_cons, List.append_assoc, ← split, List.take_append_drop]

end Flight

section Run

variable {ξ : Type} {primitives : Primitives ξ} {config : Tls13ClientConfig ξ}
  {handshake : Handshake} {state state' : FlightState ξ}

/-- The handshake bytes that the next turn reads. -/
def handshakeData (primitives : Primitives ξ) (state : FlightState ξ) : List Byte :=
  if state.flight.serverFinishedMsg.isSome then
    []
  else
    match readFlightRecord primitives state with
    | (.ok (some plaintext), _) => plaintext
    | _ => []

/-- The handshake bytes of all records that a loop reads. -/
def dataFrom (primitives : Primitives ξ) (config : Tls13ClientConfig ξ) (handshake : Handshake)
    (bound : Nat) (state : FlightState ξ) : List Byte :=
  (visits (flightTurn primitives config handshake) bound state).flatMap
    (handshakeData primitives)

/-- The handshake bytes that came in the epoch of the handshake keys. -/
def received (primitives : Primitives ξ) (config : Tls13ClientConfig ξ) (handshake : Handshake)
    (incoming : Incoming) : List Byte :=
  dataFrom primitives config handshake (incoming.wire.length + 1)
    (startFlight handshake incoming)

theorem readFlightRecord_flight (state : FlightState ξ) :
    (readFlightRecord primitives state).2.flight = state.flight ∧
      (readFlightRecord primitives state).2.pending = state.pending := by
  unfold readFlightRecord
  split
  · exact ⟨rfl, rfl⟩
  · exact ⟨rfl, rfl⟩

/-- A flight that is read to its end took complete messages off the handshake
bytes, up to a Finished. -/
theorem accepts_of_loop {bound : Nat}
    (done : loop (flightTurn primitives config handshake) bound state = some (.ok (), state'))
    (stopped : readHsMessage state.pending = none) :
    ∃ messages, state.pending ++ dataFrom primitives config handshake bound state =
        messages.flatten ++ state'.pending ∧
      Flight.Accepts primitives config handshake state.flight messages state'.flight ∧
      readHsMessage state'.pending = none ∧ state'.flight.serverFinishedMsg.isSome = true := by
  induction bound generalizing state with
  | zero => cases done
  | succ bound ih =>
      rw [loop] at done
      rw [dataFrom, visits, List.flatMap_cons]
      by_cases settled : state.flight.serverFinishedMsg.isSome = true
      · have turn : flightTurn primitives config handshake state = .returns (.ok ()) state := by
          rw [flightTurn, if_pos settled]
        rw [turn] at done ⊢
        cases done
        refine ⟨[], ?_, rfl, stopped, settled⟩
        rw [handshakeData, if_pos settled]
        simp
      · have kept := @readFlightRecord_flight _ primitives state
        rw [handshakeData, if_neg settled]
        rcases read : readFlightRecord primitives state with ⟨result, next⟩
        rw [read] at kept
        dsimp only at kept
        cases result with
        | error error =>
            have turn : flightTurn primitives config handshake state =
                .returns (.error error) next := by
              rw [flightTurn, if_neg settled, read]
            rw [turn] at done
            cases done
        | ok data =>
            cases data with
            | none =>
                have turn : flightTurn primitives config handshake state = .again next := by
                  rw [flightTurn, if_neg settled, read]
                rw [turn] at done ⊢
                dsimp only at done ⊢
                rcases ih done (by rw [kept.2]; exact stopped) with ⟨messages, split, accepts, ends⟩
                rw [kept.1] at accepts
                rw [kept.2] at split
                exact ⟨messages, split, accepts, ends⟩
            | some plaintext =>
                rcases drained : state.flight.drain primitives config handshake
                    (state.pending ++ plaintext) with error | ⟨flight, pending⟩
                · have turn : flightTurn primitives config handshake state =
                      .returns (.error error) next := by
                    rw [flightTurn, if_neg settled, read]
                    dsimp only
                    rw [kept.1, kept.2, drained]
                  rw [turn] at done
                  cases done
                · have turn : flightTurn primitives config handshake state =
                      .again { next with flight := flight, pending := pending } := by
                    rw [flightTurn, if_neg settled, read]
                    dsimp only
                    rw [kept.1, kept.2, drained]
                  rw [turn] at done ⊢
                  dsimp only at done ⊢
                  rcases Flight.accepts_of_drainFrom drained (Nat.le_refl _) with
                    ⟨messages, split, accepts, nothing⟩
                  rcases ih done nothing with ⟨later, split', accepts', ends⟩
                  refine ⟨messages ++ later, ?_, accepts.append accepts', ends⟩
                  rw [List.flatten_append, List.append_assoc, ← split', ← List.append_assoc,
                    split, List.append_assoc]
                  rfl

end Run

/-- What a run heard: the hello that was sent, the payload of the ServerHello's
record, the keys of the handshake and the handshake bytes under them. -/
structure Exchange where
  hello : AssembledHello
  payload : List Byte
  handshake : Handshake
  received : List Byte

/-- What the run of a connection hears. -/
def exchange {ξ : Type} (primitives : Primitives ξ) (config : Tls13ClientConfig ξ)
    (tail : ClientHelloSpec → Except Tls13Error (List Byte)) (entropy : Entropy)
    (incoming : Incoming) : Option Exchange :=
  match assembleHello primitives tail config entropy, readHelloRecord incoming with
  | .ok hello, some (.ok payload, incoming) =>
      match serverHelloMessage payload with
      | .error _ => none
      | .ok message =>
          match greet primitives hello message with
          | .error _ => none
          | .ok handshake => some {
              hello := hello
              payload := payload
              handshake := handshake
              received := received primitives config handshake incoming }
  | _, _ => none

section Full

variable {ξ : Type} (primitives : Primitives ξ) (config : Tls13ClientConfig ξ)

/-- The authentication accepted the chain of a Certificate message. -/
def Authenticated (message der : List Byte) (leaf : ξ) : Prop :=
  ∃ chain, parseCertificateMessage (message.drop 4) = .ok chain ∧ chain.head? = some der ∧
    primitives.parseCertificate der = .ok leaf ∧ config.serverAuth primitives der leaf chain = .ok ()

/-- A CertificateVerify message signs a transcript, with a scheme that was offered. -/
def Signed (hash : SuiteHash) (leaf : ξ) (transcript message : List Byte) : Prop :=
  ∃ scheme signature, parseCertificateVerify (message.drop 4) = .ok (scheme, signature) ∧
    scheme ∈ config.offeredSchemes primitives ∧
    primitives.verifySignature leaf scheme
      (certVerifyContent (primitives.hash hash transcript) false) signature = true

/-- The messages of the server are exactly the five of a full flight, once each and
in order; the certificate was accepted, the signature covers the transcript
through it, the Finished the transcript through the CertificateVerify, and the
secrets of the application come from the transcript of all of them. -/
def FullFlight (exchange : Exchange) (stream : Tls13Stream) : Prop :=
  ∃ sh ee cert cv fin serverHello der leaf,
    exchange.payload = sh ∧ exchange.received = ee ++ cert ++ cv ++ fin ∧
    IsMessage HS_SERVER_HELLO sh ∧ parseServerHello (sh.drop 4) = .ok serverHello ∧
    IsMessage HS_ENCRYPTED_EXTENSIONS ee ∧ IsMessage HS_CERTIFICATE cert ∧
    IsMessage HS_CERTIFICATE_VERIFY cv ∧ IsMessage HS_FINISHED fin ∧
    Authenticated primitives config cert der leaf ∧ stream.peerCertificate = some der ∧
    let hash := SuiteHash.forSuite serverHello.suite
    let hellos := exchange.hello.clientHello ++ sh
    let secrets := HandshakeSecrets.new primitives serverHello.suite
      (primitives.x25519 exchange.hello.privateKey serverHello.keyShare)
      (primitives.hash hash hellos)
    let app := secrets.application primitives
      (primitives.hash hash (hellos ++ ee ++ cert ++ cv ++ fin))
    Signed primitives config hash leaf (hellos ++ ee ++ cert) cv ∧
    secrets.finished primitives secrets.serverHsTraffic (hellos ++ ee ++ cert ++ cv) =
      fin.drop 4 ∧
    stream.readSecret = app.serverAppTraffic ∧ stream.writeSecret = app.clientAppTraffic

/-- Handle a message; one that is refused changes nothing. -/
def handle (handshake : Handshake) (flight : Flight ξ) (message : List Byte) : Flight ξ :=
  match flight.onMessage primitives config handshake (message.headD 0) (message.drop 4) message with
  | .ok flight => flight
  | .error _ => flight

/-- A message is no ticket and comes before the Finished; a Certificate finds the
EncryptedExtensions before it and a Finished the CertificateVerify. -/
structure InOrder (flight : Flight ξ) (message : List Byte) : Prop where
  ticket : message.headD 0 ≠ HS_NEW_SESSION_TICKET
  certificate : message.headD 0 = HS_CERTIFICATE → flight.sawEe = true
  finished : message.headD 0 = HS_FINISHED → flight.sawCertVerify = true
  unfinished : flight.serverFinishedMsg = none

instance (flight : Flight ξ) (message : List Byte) : Decidable (InOrder flight message) :=
  decidable_of_iff
    (message.headD 0 ≠ HS_NEW_SESSION_TICKET ∧
      (message.headD 0 = HS_CERTIFICATE → flight.sawEe = true) ∧
      (message.headD 0 = HS_FINISHED → flight.sawCertVerify = true) ∧
      flight.serverFinishedMsg = none)
    ⟨fun all => ⟨all.1, all.2.1, all.2.2.1, all.2.2.2⟩,
      fun inOrder => ⟨inOrder.ticket, inOrder.certificate, inOrder.finished, inOrder.unfinished⟩⟩

/-- Nothing stands behind the ServerHello in its record, the messages behind it come
in order, and nothing is left behind them. -/
def Ordered (exchange : Exchange) : Prop :=
  let split := splitMessages exchange.received.length exchange.received
  serverHelloMessage exchange.payload = .ok exchange.payload ∧ split.2 = [] ∧
    RunMeets (handle primitives config exchange.handshake) InOrder
      { transcript := exchange.handshake.transcript } split.1

instance (exchange : Exchange) : Decidable (Ordered primitives config exchange) :=
  inferInstanceAs (Decidable (_ ∧ _ ∧ _))

end Full

section Stages

variable {ξ : Type} {primitives : Primitives ξ} {config : Tls13ClientConfig ξ}
  {handshake : Handshake} {flight flight' : Flight ξ} {message : List Byte} {msgType : Byte}
  {messages later : List (List Byte)}

/-- How far a flight has come that takes its messages in order, behind the transcript
of the two hellos. -/
inductive Stage (primitives : Primitives ξ) (config : Tls13ClientConfig ξ) (handshake : Handshake) :
    List (List Byte) → Flight ξ → Prop where
  | opened : Stage primitives config handshake [] { transcript := handshake.transcript }
  | extended {ee alpn} (isEe : IsMessage HS_ENCRYPTED_EXTENSIONS ee) :
      Stage primitives config handshake [ee] {
        transcript := handshake.transcript ++ ee, negotiatedAlpn := alpn, sawEe := true }
  | certified {ee cert der leaf alpn} (isEe : IsMessage HS_ENCRYPTED_EXTENSIONS ee)
      (isCert : IsMessage HS_CERTIFICATE cert)
      (checked : Flight.authenticated primitives config (cert.drop 4) = .ok (der, leaf)) :
      Stage primitives config handshake [ee, cert] {
        transcript := handshake.transcript ++ ee ++ cert, negotiatedAlpn := alpn, sawEe := true,
        leafDer := some der, leaf := some leaf }
  | verified {ee cert cv der leaf alpn} (isEe : IsMessage HS_ENCRYPTED_EXTENSIONS ee)
      (isCert : IsMessage HS_CERTIFICATE cert)
      (checked : Flight.authenticated primitives config (cert.drop 4) = .ok (der, leaf))
      (isVerify : IsMessage HS_CERTIFICATE_VERIFY cv)
      (signed : Flight.checkSignature primitives config handshake leaf
        (handshake.transcript ++ ee ++ cert) (cv.drop 4) = .ok ()) :
      Stage primitives config handshake [ee, cert, cv] {
        transcript := handshake.transcript ++ ee ++ cert ++ cv, negotiatedAlpn := alpn,
        sawEe := true, leafDer := some der, leaf := some leaf, sawCertVerify := true }
  | finished {ee cert cv fin der leaf alpn} (isEe : IsMessage HS_ENCRYPTED_EXTENSIONS ee)
      (isCert : IsMessage HS_CERTIFICATE cert)
      (checked : Flight.authenticated primitives config (cert.drop 4) = .ok (der, leaf))
      (isVerify : IsMessage HS_CERTIFICATE_VERIFY cv)
      (signed : Flight.checkSignature primitives config handshake leaf
        (handshake.transcript ++ ee ++ cert) (cv.drop 4) = .ok ())
      (isFin : IsMessage HS_FINISHED fin)
      (mac : handshake.secrets.finished primitives handshake.secrets.serverHsTraffic
        (handshake.transcript ++ ee ++ cert ++ cv) = fin.drop 4) :
      Stage primitives config handshake [ee, cert, cv, fin] {
        transcript := handshake.transcript ++ ee ++ cert ++ cv, negotiatedAlpn := alpn,
        sawEe := true, leafDer := some der, leaf := some leaf, sawCertVerify := true,
        serverFinishedMsg := some fin }

theorem Stage.accept (stage : Stage primitives config handshake messages flight)
    (inOrder : InOrder flight message) (is : IsMessage msgType message)
    (accepted : Flight.Accepted primitives config handshake flight (message.drop 4) message
      msgType flight') :
    Stage primitives config handshake (messages ++ [message]) flight' := by
  have head := is.head
  have unfinished := inOrder.unfinished
  cases accepted with
  | extensions first =>
      cases stage with
      | opened => exact .extended is
      | extended => cases first
      | certified => cases first
      | verified => cases first
      | finished => cases unfinished
  | certificate first checked =>
      have extended := inOrder.certificate head
      cases stage with
      | opened => cases extended
      | extended isEe => exact .certified isEe is checked
      | certified => cases first
      | verified => cases first
      | finished => cases unfinished
  | certificateVerify first known signed =>
      cases stage with
      | opened => cases known
      | extended => cases known
      | certified isEe isCert checked =>
          cases known
          exact .verified isEe isCert checked is signed
      | verified => cases first
      | finished => cases unfinished
  | finished mac =>
      have verified := inOrder.finished head
      cases stage with
      | opened => cases verified
      | extended => cases verified
      | certified => cases verified
      | verified isEe isCert checked isVerify signed =>
          exact .finished isEe isCert checked isVerify signed is mac
      | finished => cases unfinished
  | ticket => exact absurd head inOrder.ticket

theorem handle_of_onMessage (is : IsMessage msgType message)
    (handled : flight.onMessage primitives config handshake msgType (message.drop 4) message =
      .ok flight') :
    handle primitives config handshake flight message = flight' := by
  rw [handle, is.head, handled]

theorem Stage.run (stage : Stage primitives config handshake messages flight)
    (accepts : Flight.Accepts primitives config handshake flight later flight')
    (ordered : RunMeets (handle primitives config handshake) InOrder flight later) :
    Stage primitives config handshake (messages ++ later) flight' := by
  induction later generalizing messages flight with
  | nil =>
      cases accepts
      rw [List.append_nil]
      exact stage
  | cons message later ih =>
      rcases accepts with ⟨msgType, middle, is, handled, accepts⟩
      rcases ordered with ⟨inOrder, ordered⟩
      rw [handle_of_onMessage is handled] at ordered
      have next := stage.accept inOrder is (Flight.accepted_of_onMessage handled)
      have all := ih next accepts ordered
      rw [List.append_assoc] at all
      exact all

theorem ordered_of_accepts {ee cert cv fin : List Byte}
    (isEe : IsMessage HS_ENCRYPTED_EXTENSIONS ee) (isCert : IsMessage HS_CERTIFICATE cert)
    (isVerify : IsMessage HS_CERTIFICATE_VERIFY cv) (isFin : IsMessage HS_FINISHED fin)
    (accepts : Flight.Accepts primitives config handshake
      { transcript := handshake.transcript } [ee, cert, cv, fin] flight') :
    RunMeets (handle primitives config handshake) InOrder
      { transcript := handshake.transcript } [ee, cert, cv, fin] := by
  have same : ∀ {kind kind' : Byte} {message : List Byte}, IsMessage kind message →
      IsMessage kind' message → kind' = kind :=
    fun first second => second.head.symm.trans first.head
  rcases accepts with ⟨_, extended, found, handled, _, certified, found', handled', _, verified,
    found'', handled'', _⟩
  have accepted := Flight.accepted_of_onMessage handled
  have accepted' := Flight.accepted_of_onMessage handled'
  have accepted'' := Flight.accepted_of_onMessage handled''
  simp only [RunMeets, handle_of_onMessage found handled, handle_of_onMessage found' handled',
    handle_of_onMessage found'' handled'']
  rw [same isEe found] at accepted
  rw [same isCert found'] at accepted'
  rw [same isVerify found''] at accepted''
  have first := accepted.keeps.2 (by decide)
  have second := (accepted'.keeps.2 (by decide)).trans first
  have third := (accepted''.keeps.2 (by decide)).trans second
  refine ⟨⟨?_, ?_, ?_, rfl⟩, ⟨?_, ?_, ?_, first⟩, ⟨?_, ?_, ?_, second⟩, ⟨?_, ?_, ?_, third⟩,
    trivial⟩
  · rw [isEe.head]
    decide
  · rw [isEe.head]
    exact fun other => absurd other (by decide)
  · rw [isEe.head]
    exact fun other => absurd other (by decide)
  · rw [isCert.head]
    decide
  · exact fun _ => accepted.sees.1 rfl
  · rw [isCert.head]
    exact fun other => absurd other (by decide)
  · rw [isVerify.head]
    decide
  · rw [isVerify.head]
    exact fun other => absurd other (by decide)
  · rw [isVerify.head]
    exact fun other => absurd other (by decide)
  · rw [isFin.head]
    decide
  · rw [isFin.head]
    exact fun other => absurd other (by decide)
  · exact fun _ => accepted''.sees.2 rfl

end Stages

section Connections

variable {ξ : Type} {primitives : Primitives ξ} {config : Tls13ClientConfig ξ}
  {tail : ClientHelloSpec → Except Tls13Error (List Byte)} {entropy : Entropy}
  {incoming : Incoming} {outgoing : Outgoing} {handshake : Handshake} {stream : Tls13Stream}
  {state : FlightState ξ} {payload message : List Byte}

theorem authenticated_of_ok {body der : List Byte} {leaf : ξ}
    (checked : Flight.authenticated primitives config body = .ok (der, leaf)) :
    ∃ chain, parseCertificateMessage body = .ok chain ∧ chain.head? = some der ∧
      primitives.parseCertificate der = .ok leaf ∧
      config.serverAuth primitives der leaf chain = .ok () := by
  unfold Flight.authenticated at checked
  rcases bind_eq_ok_iff.mp checked with ⟨chain, parsed, checked⟩
  cases chain with
  | nil => cases checked
  | cons first others =>
      dsimp only at checked
      split at checked
      · cases checked
      case h_2 found known =>
        rcases bind_eq_ok_iff.mp checked with ⟨_, accepted, checked⟩
        cases pure_eq_ok_iff.mp checked
        exact ⟨_, parsed, rfl, known, accepted⟩

theorem signed_of_checkSignature {leaf : ξ} {transcript body : List Byte}
    (signed : Flight.checkSignature primitives config handshake leaf transcript body = .ok ()) :
    ∃ scheme signature, parseCertificateVerify body = .ok (scheme, signature) ∧
      scheme ∈ config.offeredSchemes primitives ∧
      primitives.verifySignature leaf scheme
        (certVerifyContent (primitives.hash handshake.hash transcript) false) signature = true := by
  unfold Flight.checkSignature at signed
  rcases bind_eq_ok_iff.mp signed with ⟨⟨scheme, signature⟩, parsed, signed⟩
  dsimp only at signed
  split at signed
  · cases signed
  case isFalse offered =>
    split at signed
    case isTrue verified => exact ⟨scheme, signature, parsed, not_not.mp offered, verified⟩
    case isFalse => cases signed

theorem serverHelloMessage_spec (found : serverHelloMessage payload = .ok message) :
    IsMessage HS_SERVER_HELLO message := by
  unfold serverHelloMessage at found
  split at found
  · cases found
  case h_2 msgType body used read =>
    split at found
    · cases found
    case isFalse kind =>
      cases found
      rw [not_not.mp kind] at read
      exact isMessage_take read

theorem serverHelloMessage_of_isMessage (is : IsMessage HS_SERVER_HELLO payload) :
    serverHelloMessage payload = .ok payload := by
  rw [IsMessage] at is
  rw [serverHelloMessage, is]
  dsimp only
  rw [if_neg (not_not.mpr rfl), List.take_length]

theorem finishHandshake_spec
    (finished : finishHandshake primitives config handshake state outgoing = .ok stream) :
    stream.peerCertificate = state.flight.leafDer ∧
      let app := handshake.secrets.application primitives (primitives.hash handshake.hash
        (state.flight.transcript ++ state.flight.serverFinishedMsg.getD []))
      stream.readSecret = app.serverAppTraffic ∧ stream.writeSecret = app.clientAppTraffic := by
  unfold finishHandshake at finished
  rcases bind_eq_ok_iff.mp finished with ⟨_, _, finished⟩
  rcases bind_eq_ok_iff.mp finished with ⟨_, _, finished⟩
  rcases bind_eq_ok_iff.mp finished with ⟨_, _, finished⟩
  rcases bind_eq_ok_iff.mp finished with ⟨_, _, finished⟩
  rcases bind_eq_ok_iff.mp finished with ⟨⟨_, _⟩, _, finished⟩
  rcases bind_eq_ok_iff.mp finished with ⟨⟨_, _⟩, _, finished⟩
  rw [← pure_eq_ok_iff.mp finished]
  exact ⟨rfl, rfl, rfl⟩

theorem connect_spec
    (connected : connect primitives config tail entropy incoming outgoing = some (.ok stream)) :
    ∃ hello payload incoming' message handshake state outgoing',
      assembleHello primitives tail config entropy = .ok hello ∧
      readHelloRecord incoming = some (.ok payload, incoming') ∧
      serverHelloMessage payload = .ok message ∧
      greet primitives hello message = .ok handshake ∧
      readFlight primitives config handshake incoming' = some (.ok (), state) ∧
      finishHandshake primitives config handshake state outgoing' = .ok stream := by
  unfold connect at connected
  split at connected
  · cases connected
  case h_2 hello assembled =>
  split at connected
  · cases connected
  case h_2 outgoing' sent =>
  split at connected
  · cases connected
  · cases connected
  case h_3 payload incoming' found =>
  split at connected
  · cases connected
  case h_2 message first =>
  split at connected
  · cases connected
  case h_2 handshake greeted =>
  unfold connectFlight at connected
  split at connected
  · cases connected
  · cases connected
  case h_3 state flown =>
    exact ⟨hello, payload, incoming', message, handshake, state, outgoing', assembled, found,
      first, greeted, flown, Option.some.inj connected⟩

/-- A connection that is established went through a full flight exactly when the
messages of the server came in order. -/
theorem fullFlight_iff {run : Exchange}
    (connected : connect primitives config tail entropy incoming outgoing = some (.ok stream))
    (heard : exchange primitives config tail entropy incoming = some run) :
    FullFlight primitives config run stream ↔ Ordered primitives config run := by
  rcases connect_spec connected with ⟨hello, payload, incoming', message, handshake, state,
    outgoing', assembled, found, first, greeted, flown, finished⟩
  have run_eq : exchange primitives config tail entropy incoming =
      some ⟨hello, payload, handshake, received primitives config handshake incoming'⟩ := by
    unfold exchange
    rw [assembled, found]
    dsimp only
    rw [first]
    dsimp only
    rw [greeted]
  rw [run_eq] at heard
  cases heard
  rcases accepts_of_loop flown rfl with ⟨messages, split, accepts, stopped, settled⟩
  rcases greet_spec greeted with ⟨serverHello, parsed, transcript, _, hash, secrets⟩
  rcases finishHandshake_spec finished with ⟨peer, readSecret, writeSecret⟩
  have split : received primitives config handshake incoming' =
      messages.flatten ++ state.pending := split
  have again : splitMessages (messages.flatten ++ state.pending).length
      (messages.flatten ++ state.pending) = (messages, state.pending) := by
    refine splitMessages_flatten accepts.all stopped ?_
    have fewer := length_le_flatten accepts.all
    rw [List.length_append]
    omega
  constructor
  · rintro ⟨sh, ee, cert, cv, fin, _, _, _, rfl, received_eq, isHello, _, isEe, isCert, isVerify,
      isFin, _⟩
    have received_eq : received primitives config handshake incoming' =
      ee ++ cert ++ cv ++ fin := received_eq
    have four : ∀ each ∈ [ee, cert, cv, fin], ∃ msgType, IsMessage msgType each := by
      simp only [List.forall_mem_cons]
      exact ⟨⟨_, isEe⟩, ⟨_, isCert⟩, ⟨_, isVerify⟩, ⟨_, isFin⟩, by simp⟩
    have flat : ee ++ cert ++ cv ++ fin = [ee, cert, cv, fin].flatten ++ [] := by
      simp
    -- The bytes fall into messages in one way.
    have fewer := length_le_flatten four
    have enough : [ee, cert, cv, fin].length ≤ (messages.flatten ++ state.pending).length := by
      rw [← split, received_eq, flat, List.append_nil]
      exact fewer
    have parts := splitMessages_flatten four (rfl : readHsMessage [] = none) enough
    rw [← flat, ← received_eq, split, again] at parts
    have messages_eq : messages = [ee, cert, cv, fin] := congrArg Prod.fst parts
    have pending_eq : state.pending = [] := congrArg Prod.snd parts
    rw [messages_eq] at accepts
    refine ⟨serverHelloMessage_of_isMessage isHello, ?_, ?_⟩
    · dsimp only
      rw [split, again]
      exact pending_eq
    · dsimp only
      rw [split, again, messages_eq]
      exact ordered_of_accepts isEe isCert isVerify isFin accepts
  · rintro ⟨alone, none_, ordered⟩
    dsimp only at none_ ordered
    rw [split, again] at none_ ordered
    have none_ : state.pending = [] := none_
    have whole : message = payload := by
      have both := first.symm.trans alone
      exact Except.ok.inj both
    subst whole
    have stage := Stage.opened.run accepts ordered
    rw [List.nil_append] at stage
    rw [none_, List.append_nil] at split
    generalize state.flight = flight at stage settled readSecret writeSecret peer
    cases stage with
    | opened => cases settled
    | extended => cases settled
    | certified => cases settled
    | verified => cases settled
    | @finished ee cert cv fin der leaf alpn isEe isCert checked isVerify signed isFin mac =>
        rw [hash] at secrets
        have kept : handshake.secrets.hash = SuiteHash.forSuite serverHello.suite := by
          rw [secrets]
          rfl
        have signed := signed_of_checkSignature signed
        rw [transcript] at secrets mac signed
        rw [hash] at signed
        dsimp only at readSecret writeSecret peer
        rw [Option.getD_some, transcript, hash, secrets] at readSecret writeSecret
        rw [secrets] at mac
        refine ⟨message, ee, cert, cv, fin, serverHello, der, leaf, rfl, ?_,
          serverHelloMessage_spec first, parsed, isEe, isCert, isVerify, isFin,
          authenticated_of_ok checked, peer, signed, mac, readSecret, writeSecret⟩
        dsimp only
        rw [split]
        simp

end Connections

namespace Plain

/-- A configuration. -/
def config : Tls13ClientConfig (List Byte) where
  serverName := "a"

/-- A ServerHello for a hello that no hook rewrote. -/
def serverHello : List Byte :=
  echoMessage (List.replicate 32 0)

/-- The keys of the handshake. -/
def handshake : Option Handshake := do
  let hello ← (assembleHello primitives tail config entropy).toOption
  (greet primitives hello serverHello).toOption

/-- Handshake bytes as one protected record. -/
def sealedRecord (protector : RecordProtector) (payload : List Byte) :
    List Byte × RecordProtector :=
  match protector.seal primitives CONTENT_HANDSHAKE payload with
  | (.ok record, protector) => (record, protector)
  | (.error _, protector) => ([], protector)

/-- What a server sends that puts `extensions` before its Certificate and `behind`
behind its Finished. -/
def serverWire (extensions behind : List Byte) : List Byte :=
  match handshake with
  | none => []
  | some keys =>
      let certificate := hsMessage HS_CERTIFICATE [0, 0, 0, 6, 0, 0, 1, 9, 0, 0]
      let through := keys.transcript ++ extensions ++ certificate
      let verify := hsMessage HS_CERTIFICATE_VERIFY
        [4, 3, 0, 1, checksum (certVerifyContent (primitives.hash keys.hash through) false)]
      let finished := hsMessage HS_FINISHED
        (keys.secrets.finished primitives keys.secrets.serverHsTraffic (through ++ verify))
      let (first, protector) := sealedRecord keys.read (extensions ++ certificate)
      plaintextRecord CONTENT_HANDSHAKE serverHello ++ first ++
        (sealedRecord protector (verify ++ finished ++ behind)).1

/-- EncryptedExtensions without any. -/
def encryptedExtensions : List Byte :=
  hsMessage HS_ENCRYPTED_EXTENSIONS [0, 0]

end Plain

/-- A flight in two records. -/
theorem fullFlight_plain :
    ∃ stream run,
      connect Plain.primitives Plain.config Plain.tail Plain.entropy
        ⟨Plain.serverWire Plain.encryptedExtensions [], []⟩ {} = some (.ok stream) ∧
      exchange Plain.primitives Plain.config Plain.tail Plain.entropy
        ⟨Plain.serverWire Plain.encryptedExtensions [], []⟩ = some run ∧
      FullFlight Plain.primitives Plain.config run stream := by
  have established : (connect Plain.primitives Plain.config Plain.tail Plain.entropy
      ⟨Plain.serverWire Plain.encryptedExtensions [], []⟩ {}).any Except.isOk = true := by
    decide +kernel
  have ordered : (exchange Plain.primitives Plain.config Plain.tail Plain.entropy
      ⟨Plain.serverWire Plain.encryptedExtensions [], []⟩).any
        (fun run => decide (Ordered Plain.primitives Plain.config run)) = true := by
    decide +kernel
  rcases (Option.any_eq_true _ _).mp established with ⟨result, connected, isOk⟩
  rcases (Option.any_eq_true _ _).mp ordered with ⟨run, heard, inOrder⟩
  cases result with
  | error error => cases isOk
  | ok stream =>
      exact ⟨stream, run, connected, heard,
        (fullFlight_iff connected heard).mpr (of_decide_eq_true inOrder)⟩

/-- A connection is established without EncryptedExtensions. -/
theorem connects_without_extensions :
    ∃ stream run,
      connect Plain.primitives Plain.config Plain.tail Plain.entropy
        ⟨Plain.serverWire [] [], []⟩ {} = some (.ok stream) ∧
      exchange Plain.primitives Plain.config Plain.tail Plain.entropy
        ⟨Plain.serverWire [] [], []⟩ = some run ∧
      ¬ FullFlight Plain.primitives Plain.config run stream := by
  have established : (connect Plain.primitives Plain.config Plain.tail Plain.entropy
      ⟨Plain.serverWire [] [], []⟩ {}).any Except.isOk = true := by
    decide +kernel
  have starts : (exchange Plain.primitives Plain.config Plain.tail Plain.entropy
      ⟨Plain.serverWire [] [], []⟩).any
        (fun run => run.received.headD 0 = HS_CERTIFICATE) = true := by
    decide +kernel
  rcases (Option.any_eq_true _ _).mp established with ⟨result, connected, isOk⟩
  rcases (Option.any_eq_true _ _).mp starts with ⟨run, heard, first⟩
  cases result with
  | error error => cases isOk
  | ok stream =>
      refine ⟨stream, run, connected, heard, ?_⟩
      rintro ⟨sh, ee, cert, cv, fin, _, _, _, _, received_eq, _, _, isEe, _⟩
      have head := isEe.head
      have first : run.received.headD 0 = HS_CERTIFICATE := of_decide_eq_true first
      cases ee with
      | nil => cases isEe
      | cons byte rest =>
          rw [received_eq] at first
          have both : HS_ENCRYPTED_EXTENSIONS = HS_CERTIFICATE := head.symm.trans first
          exact absurd both (by decide)

end Corduit.Protocol.Tls13
