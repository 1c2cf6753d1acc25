import Corduit.Protocol.Tls13.Hello

/-!
# TLS 1.3: the handshake of a client

Behind the ServerHello the server sends its flight in protected records, whose
handshake bytes are collected and taken as messages from their front.  The
Finished of the server ends the flight with the record that it came in; the
client answers with its own and both directions change to the keys of the
application.
-/

namespace Corduit.Protocol.Tls13

open Text Transport Word

/-- How far the flight has come. -/
structure Flight (ξ : Type) where
  transcript : List Byte
  negotiatedAlpn : Option (List Byte) := none
  sawEe : Bool := false
  leafDer : Option (List Byte) := none
  leaf : Option ξ := none
  sawCertVerify : Bool := false
  serverFinishedMsg : Option (List Byte) := none
  deriving DecidableEq

namespace Flight

variable {ξ : Type} (primitives : Primitives ξ) (config : Tls13ClientConfig ξ)
  (handshake : Handshake) (flight : Flight ξ)

/-- Hash a message. -/
def hashed (message : List Byte) : Flight ξ :=
  { flight with transcript := flight.transcript ++ message }

/-- The handler of EncryptedExtensions. -/
def onEncryptedExtensions (body message : List Byte) : Except Tls13Error (Flight ξ) :=
  if flight.sawEe then
    .error (.protocol "duplicate EncryptedExtensions")
  else do
    match ← parseAlpnExtension body with
    | none => return { flight.hashed message with sawEe := true, negotiatedAlpn := none }
    | some proto =>
        if proto ∈ config.offeredAlpn then
          return { flight.hashed message with sawEe := true, negotiatedAlpn := some proto }
        else
          .error (.protocol
            ("server selected ALPN '" ++ fromUtf8Lossy proto ++ "' which was not offered"))

/-- The chain of a Certificate message, its first certificate and what that parses
to, when the authentication accepts them. -/
def authenticated (body : List Byte) : Except Tls13Error (List Byte × ξ) := do
  let chain ← parseCertificateMessage body
  match chain with
  | [] => .error (.protocol "empty certificate chain")
  | der :: _ =>
      match primitives.parseCertificate der with
      | .error message => .error (.certificate message)
      | .ok parsed =>
          config.serverAuth primitives der parsed chain
          return (der, parsed)

/-- The handler of Certificate. -/
def onCertificate (body message : List Byte) : Except Tls13Error (Flight ξ) :=
  if flight.leaf.isSome then
    .error (.protocol "duplicate Certificate")
  else do
    let (der, parsed) ← authenticated primitives config body
    return { flight.hashed message with leafDer := some der, leaf := some parsed }

/-- The signature of a CertificateVerify message over a transcript. -/
def checkSignature (cert : ξ) (transcript body : List Byte) : Except Tls13Error Unit := do
  let (scheme, signature) ← parseCertificateVerify body
  if scheme ∉ config.offeredSchemes primitives then
    .error (.protocol
      ("server used signature scheme 0x" ++ hex4 scheme ++ " which was not offered"))
  else if primitives.verifySignature cert scheme
      (certVerifyContent (primitives.hash handshake.hash transcript) false) signature then
    return ()
  else
    .error (.certificate ("CertificateVerify signature verification failed (scheme 0x" ++
      hex4 scheme ++ ", suite 0x" ++ hex4 handshake.suite ++ ")"))

/-- The handler of CertificateVerify. -/
def onCertificateVerify (body message : List Byte) : Except Tls13Error (Flight ξ) :=
  if flight.sawCertVerify then
    .error (.protocol "duplicate CertificateVerify")
  else
    match flight.leaf with
    | none => .error (.protocol "CertificateVerify before Certificate")
    | some cert => do
        checkSignature primitives config handshake cert flight.transcript body
        return { flight.hashed message with sawCertVerify := true }

/-- The Finished of the server; the transcript takes it when the flight is over. -/
def onFinished (body message : List Byte) : Except Tls13Error (Flight ξ) :=
  if body.length ≠ handshake.hash.len then
    .error (.protocol "invalid Finished length")
  else if handshake.secrets.finished primitives handshake.secrets.serverHsTraffic
      flight.transcript ≠ body then
    .error (.protocol "server Finished verification failed")
  else
    .ok { flight with serverFinishedMsg := some message }

/-- Handle one message, whose bytes are `message`. -/
def onMessage (msgType : Byte) (body message : List Byte) : Except Tls13Error (Flight ξ) :=
  if msgType = HS_ENCRYPTED_EXTENSIONS then
    flight.onEncryptedExtensions config body message
  else if msgType = HS_CERTIFICATE then
    flight.onCertificate primitives config body message
  else if msgType = HS_CERTIFICATE_VERIFY then
    flight.onCertificateVerify primitives config handshake body message
  else if msgType = HS_FINISHED then
    flight.onFinished primitives handshake body message
  else if msgType = HS_NEW_SESSION_TICKET then
    -- A ticket is left out of the transcript.
    .ok flight
  else if msgType = HS_KEY_UPDATE then
    .error (.protocol "KeyUpdate before the handshake completed")
  else
    .error (.protocol
      ("unexpected handshake message type " ++ toString msgType.toNat ++ " during handshake"))

/-- Handle every complete message at the front of the pending bytes; each has at
least the four bytes of its header. -/
def drainFrom : (bound : Nat) → Flight ξ → (pending : List Byte) →
    Except Tls13Error (Flight ξ × List Byte)
  | 0, flight, pending => .ok (flight, pending)
  | bound + 1, flight, pending =>
      match readHsMessage pending with
      | none => .ok (flight, pending)
      | some (msgType, _, used) => do
          let message := pending.take used
          let flight ←
            flight.onMessage primitives config handshake msgType (message.drop 4) message
          drainFrom bound flight (pending.drop used)

/-- The loop over the messages that are pending. -/
def drain (pending : List Byte) : Except Tls13Error (Flight ξ × List Byte) :=
  drainFrom primitives config handshake pending.length flight pending

end Flight

/-- The transport, the protection of the reading direction, the flight, and the
handshake bytes that are not taken. -/
structure FlightState (ξ : Type) where
  incoming : Incoming
  read : RecordProtector
  flight : Flight ξ
  pending : List Byte := []

/-- The handshake bytes of a record; `none` for a compatibility record. -/
def flightPlaintext {ξ : Type} (primitives : Primitives ξ) (read : RecordProtector) (outer : Byte)
    (payload : List Byte) : Except Tls13Error (Option (List Byte)) × RecordProtector :=
  if outer = CONTENT_CHANGE_CIPHER_SPEC then
    (.ok none, read)
  else if outer = CONTENT_ALERT then
    (.error (alertError payload), read)
  else if outer = CONTENT_HANDSHAKE then
    (.error (.protocol "unprotected handshake record after ServerHello"), read)
  else if outer = CONTENT_APPLICATION_DATA then
    match read.open primitives payload with
    | (.error error, read) => (.error error, read)
    | (.ok (inner, data), read) =>
        if inner = CONTENT_HANDSHAKE then
          (.ok (some data), read)
        else if inner = CONTENT_ALERT then
          (.error (alertError data), read)
        else
          (.error (.protocol ("unexpected inner content type " ++ toString inner.toNat ++
            " during handshake")), read)
  else
    (.error (.protocol
      ("unexpected record type " ++ toString outer.toNat ++ " during handshake")), read)

/-- Read the next record of the flight. -/
def readFlightRecord {ξ : Type} (primitives : Primitives ξ) (state : FlightState ξ) :
    Except Tls13Error (Option (List Byte)) × FlightState ξ :=
  match readRecord state.incoming with
  | (.error error, incoming) => (.error error, { state with incoming := incoming })
  | (.ok (outer, payload), incoming) =>
      let (result, read) := flightPlaintext primitives state.read outer payload
      (result, { state with incoming := incoming, read := read })

section Connect

variable {ξ : Type} (primitives : Primitives ξ) (config : Tls13ClientConfig ξ)
  (handshake : Handshake)

/-- One turn of the loop over the records of the flight. -/
def flightTurn (state : FlightState ξ) : Turn (FlightState ξ) (Except Tls13Error Unit) :=
  if state.flight.serverFinishedMsg.isSome then
    .returns (.ok ()) state
  else
    match readFlightRecord primitives state with
    | (.error error, state) => .returns (.error error) state
    | (.ok none, state) => .again state
    | (.ok (some plaintext), state) =>
        match state.flight.drain primitives config handshake (state.pending ++ plaintext) with
        | .error error => .returns (.error error) state
        | .ok (flight, pending) => .again { state with flight := flight, pending := pending }

/-- The flight before its first record. -/
def startFlight (incoming : Incoming) : FlightState ξ where
  incoming := incoming
  read := handshake.read
  flight := { transcript := handshake.transcript }

/-- Read records up to the Finished of the server; every record takes bytes of
the transport. -/
def readFlight (incoming : Incoming) : Option (Except Tls13Error Unit × FlightState ξ) :=
  loop (flightTurn primitives config handshake) (incoming.wire.length + 1)
    (startFlight handshake incoming)

/-- A record stream over an established connection. -/
structure Tls13Stream where
  reader : Incoming
  writer : Outgoing
  read : RecordProtector
  write : RecordProtector
  readSecret : List Byte
  writeSecret : List Byte
  hash : SuiteHash
  suite : Nat
  serverName : String
  negotiatedAlpn : Option (List Byte)
  peerCertificate : Option (List Byte)
  plaintext : List Byte := []
  readBuf : List Byte := []
  closed : Bool := false
  peerClosed : Bool := false
  keyUpdateResponse : Bool := false

/-- Both messages must have come. -/
def requireCertificateVerify (hasCertificate hasCertificateVerify : Bool) :
    Except Tls13Error Unit :=
  if !hasCertificate then
    .error (.certificate "server did not send a Certificate message")
  else if !hasCertificateVerify then
    .error (.certificate "server sent a Certificate without CertificateVerify")
  else
    .ok ()

/-- `write_all` of the driver. -/
def writeAll (outgoing : Outgoing) (bytes : List Byte) : Except Tls13Error Outgoing :=
  match outgoing.writeAll bytes with
  | (.ok (), outgoing) => .ok outgoing
  | (.error error, _) => .error (.ofIoError error)

/-- Answer the Finished of the server and change to the keys of the application. -/
def finishHandshake (state : FlightState ξ) (outgoing : Outgoing) :
    Except Tls13Error Tls13Stream := do
  let flight := state.flight
  requireCertificateVerify flight.leaf.isSome flight.sawCertVerify
  let transcript := flight.transcript ++ flight.serverFinishedMsg.getD []
  let app := handshake.secrets.application primitives (primitives.hash handshake.hash transcript)
  let verifyData :=
    handshake.secrets.finished primitives handshake.secrets.clientHsTraffic transcript
  let clientFinished := hsMessage HS_FINISHED verifyData
  let record ← (handshake.write.seal primitives CONTENT_HANDSHAKE clientFinished).1
  let outgoing ← writeAll outgoing record
  -- A flush may fail as a write does.
  let outgoing ← writeAll outgoing []
  let (clientKey, clientIv) ←
    TrafficKey.derive primitives handshake.suite handshake.hash app.clientAppTraffic
  let (serverKey, serverIv) ←
    TrafficKey.derive primitives handshake.suite handshake.hash app.serverAppTraffic
  return {
    reader := state.incoming
    writer := outgoing
    read := state.read.rekey serverKey serverIv
    write := handshake.write.rekey clientKey clientIv
    readSecret := app.serverAppTraffic
    writeSecret := app.clientAppTraffic
    hash := handshake.hash
    suite := handshake.suite
    serverName := config.serverName
    negotiatedAlpn := flight.negotiatedAlpn
    peerCertificate := flight.leafDer }

/-- The flight and the answer to it. -/
def connectFlight (incoming : Incoming) (outgoing : Outgoing) :
    Option (Except Tls13Error Tls13Stream) :=
  match readFlight primitives config handshake incoming with
  | none => none
  | some (.error error, _) => some (.error error)
  | some (.ok (), state) =>
      some (finishHandshake primitives config handshake state outgoing)

/-- Perform a handshake over `incoming` and `outgoing`; `none` when the loops do
not return. -/
def connect (tail : ClientHelloSpec → Except Tls13Error (List Byte)) (entropy : Entropy)
    (incoming : Incoming) (outgoing : Outgoing) : Option (Except Tls13Error Tls13Stream) :=
  match assembleHello primitives tail config entropy with
  | .error error => some (.error error)
  | .ok hello =>
      match sendHello config hello outgoing with
      | (.error error, _) => some (.error error)
      | (.ok (), outgoing) =>
          match readHelloRecord incoming with
          | none => none
          | some (.error error, _) => some (.error error)
          | some (.ok payload, incoming) =>
              match serverHelloMessage payload with
              | .error error => some (.error error)
              | .ok message =>
                  match greet primitives hello message with
                  | .error error => some (.error error)
                  | .ok handshake =>
                      connectFlight primitives config handshake incoming outgoing

end Connect

end Corduit.Protocol.Tls13
