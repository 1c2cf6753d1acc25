import Corduit.Protocol.Quic.Tls.Codec
import Corduit.Word.Octets

/-!
# The TLS handshake of a client

The transport hands the bytes of the CRYPTO streams to the handshake, which
takes complete messages from their front.  The key schedule, certificates and
signatures belong to a cryptographic library.  The transcript stands for the
running hash, as the bytes that were hashed.
-/

namespace Corduit.Protocol.Quic

open Word

/-- `client_hello`. -/
def HS_CLIENT_HELLO : Byte := 1
/-- `server_hello`. -/
def HS_SERVER_HELLO : Byte := 2
/-- `encrypted_extensions`. -/
def HS_ENCRYPTED_EXTENSIONS : Byte := 8
/-- `certificate`. -/
def HS_CERTIFICATE : Byte := 11
/-- `certificate_verify`. -/
def HS_CERTIFICATE_VERIFY : Byte := 15
/-- `finished`. -/
def HS_FINISHED : Byte := 20

/-- The secrets that a ServerHello brings. -/
structure HandshakeSecrets where
  clientHs : List Byte
  serverHs : List Byte
  handshake : List Byte
  deriving DecidableEq, Repr

/-- The functions of the cryptographic library, with packet keys of the type
`κ` and parsed certificates of the type `ξ`. -/
structure TlsLibrary (κ ξ : Type) where
  handshakeSecrets : (suite : Nat) → (serverPub transcript : List Byte) → HandshakeSecrets
  applicationSecrets : (suite : Option Nat) → (handshake transcript : List Byte) →
    List Byte × List Byte
  packetKey : (suite : Nat) → (secret : List Byte) → Except QuicError κ
  finishedMac : (suite : Option Nat) → (secret transcript : List Byte) → List Byte
  parseCertificate : (der : List Byte) → Except String ξ
  validateChain : (chain : List (List Byte)) → Except String Unit
  hostnameMatches : (serverName : String) → ξ → Bool
  verifySignature : ξ → (scheme : Nat) → (transcript signature : List Byte) → Bool

/-- The client side of a handshake. -/
structure Tls13Client (κ ξ : Type) where
  serverName : String
  skipCertVerify : Bool
  transcript : List Byte
  clientHello : List Byte
  suite : Option Nat := none
  hsWrite : Option κ := none
  hsRead : Option κ := none
  appWrite : Option κ := none
  appRead : Option κ := none
  peerTp : Option TransportParameters := none
  negotiatedAlpn : Option (List Byte) := none
  serverFinished : Bool := false
  secrets : Option HandshakeSecrets := none
  leaf : Option ξ := none
  certVerifyDone : Bool := false
  cryptoPending : List Byte

/-- Pull one complete message from the front: its type, its body and the bytes
behind it. -/
def takeHsMessage : List Byte → Option (Byte × List Byte × List Byte)
  | kind :: high :: middle :: low :: rest =>
      let len := ofBeBytes [high, middle, low]
      if rest.length < len then none else some (kind, rest.take len, rest.drop len)
  | _ => none

/-- A message with its header. -/
def hsMessage (kind : Byte) (body : List Byte) : List Byte :=
  kind :: toBeBytes 3 (BitVec.ofNat 32 body.length) ++ body

namespace Tls13Client

variable {κ ξ : Type}

/-- A new handshake has its ClientHello queued. -/
def new (serverName : String) (skipCertVerify : Bool) (clientHello : List Byte) :
    Tls13Client κ ξ where
  serverName := serverName
  skipCertVerify := skipCertVerify
  transcript := clientHello
  clientHello := clientHello
  cryptoPending := clientHello

/-- Whether the handshake is complete. -/
def isComplete (tls : Tls13Client κ ξ) : Bool :=
  tls.serverFinished && tls.appWrite.isSome

/-- Reset after a Retry; the transcript restarts from the ClientHello. -/
def resetAfterRetry (tls : Tls13Client κ ξ) : Tls13Client κ ξ where
  serverName := tls.serverName
  skipCertVerify := tls.skipCertVerify
  transcript := tls.clientHello
  clientHello := tls.clientHello
  cryptoPending := []

/-- Hash the bytes of a message. -/
def updateTranscript (tls : Tls13Client κ ξ) (bytes : List Byte) : Tls13Client κ ξ :=
  { tls with transcript := tls.transcript ++ bytes }

/-- The handler of ServerHello. -/
def onServerHello (library : TlsLibrary κ ξ) (tls : Tls13Client κ ξ) (body : List Byte) :
    Except QuicError Unit × Tls13Client κ ξ :=
  if tls.suite.isSome then
    (.error (.protocol "duplicate ServerHello"), tls)
  else
    match parseServerHello body with
    | .error error => (.error error, tls)
    | .ok (suite, serverPub) =>
        let secrets := library.handshakeSecrets suite serverPub tls.transcript
        let tls := { tls with suite := some suite, secrets := some secrets }
        match library.packetKey suite secrets.clientHs with
        | .error error => (.error error, tls)
        | .ok hsWrite =>
            let tls := { tls with hsWrite := some hsWrite }
            match library.packetKey suite secrets.serverHs with
            | .error error => (.error error, tls)
            | .ok hsRead => (.ok (), { tls with hsRead := some hsRead })

/-- One extension of the EncryptedExtensions; others are ignored. -/
def onExtension (tls : Tls13Client κ ξ) (extType : Nat) (data : List Byte) :
    Except QuicError Unit × Tls13Client κ ξ :=
  if extType = EXT_ALPN then
    match parseAlpn data with
    | .error error => (.error error, tls)
    | .ok chosen => (.ok (), { tls with negotiatedAlpn := chosen })
  else if extType = EXT_QUIC_TP then
    match parseTp data with
    | .error error => (.error error, tls)
    | .ok tp => (.ok (), { tls with peerTp := some tp })
  else
    (.ok (), tls)

/-- The extensions, one by one. -/
def onExtensions (tls : Tls13Client κ ξ) : List (Nat × List Byte) →
    Except QuicError Unit × Tls13Client κ ξ
  | [] => (.ok (), tls)
  | (extType, data) :: others =>
      match tls.onExtension extType data with
      | (.error error, tls) => (.error error, tls)
      | (.ok (), tls) => tls.onExtensions others

/-- The handler of EncryptedExtensions. -/
def onEncryptedExtensions (tls : Tls13Client κ ξ) (body : List Byte) :
    Except QuicError Unit × Tls13Client κ ξ :=
  if tls.peerTp.isSome then
    (.error (.protocol "duplicate EncryptedExtensions"), tls)
  else
    match parseExtensions body with
    | .error error => (.error error, tls)
    | .ok extensions =>
        match tls.onExtensions extensions with
        | (.error error, tls) => (.error error, tls)
        | (.ok (), tls) =>
            if tls.peerTp.isNone then
              (.error (.protocol "EncryptedExtensions missing quic_transport_parameters"), tls)
            else
              (.ok (), tls)

/-- The checks of a certificate chain. -/
def checkCertificates (library : TlsLibrary κ ξ) (tls : Tls13Client κ ξ) (leaf : ξ)
    (chain : List (List Byte)) : Except QuicError Unit :=
  if tls.skipCertVerify then
    .ok ()
  else
    match library.validateChain chain with
    | .error message => .error (.certificate message)
    | .ok () =>
        if library.hostnameMatches tls.serverName leaf then
          .ok ()
        else
          .error (.certificate
            ("server name '" ++ tls.serverName ++ "' does not match the certificate"))

/-- The handler of Certificate. -/
def onCertificate (library : TlsLibrary κ ξ) (tls : Tls13Client κ ξ) (body : List Byte) :
    Except QuicError Unit × Tls13Client κ ξ :=
  if tls.leaf.isSome then
    (.error (.protocol "duplicate Certificate"), tls)
  else
    match parseCertificates body with
    | .error error => (.error error, tls)
    | .ok (der, chain) =>
        match library.parseCertificate der with
        | .error message => (.error (.certificate message), tls)
        | .ok leaf =>
            match tls.checkCertificates library leaf chain with
            | .error error => (.error error, tls)
            | .ok () => (.ok (), { tls with leaf := some leaf })

/-- The handler of CertificateVerify. -/
def onCertificateVerify (library : TlsLibrary κ ξ) (tls : Tls13Client κ ξ) (body : List Byte) :
    Except QuicError Unit × Tls13Client κ ξ :=
  if tls.certVerifyDone then
    (.error (.protocol "duplicate CertificateVerify"), tls)
  else
    match tls.leaf with
    | none => (.error (.protocol "CertificateVerify before Certificate"), tls)
    | some leaf =>
        match parseCertificateVerify body with
        | .error error => (.error error, tls)
        | .ok (scheme, signature) =>
            if library.verifySignature leaf scheme tls.transcript signature then
              (.ok (), { tls with certVerifyDone := true })
            else
              (.error (.certificate "CertificateVerify signature verification failed"), tls)

/-- The client side of the key schedule after the Finished of the server. -/
def finish (library : TlsLibrary κ ξ) (tls : Tls13Client κ ξ) (secrets : HandshakeSecrets) :
    Except QuicError Unit × Tls13Client κ ξ :=
  let (clientApp, serverApp) :=
    library.applicationSecrets tls.suite secrets.handshake tls.transcript
  let message := hsMessage HS_FINISHED (library.finishedMac tls.suite secrets.clientHs tls.transcript)
  match tls.suite with
  | none => (.ok (), { tls with cryptoPending := tls.cryptoPending ++ message })
  | some suite =>
      match library.packetKey suite clientApp with
      | .error error => (.error error, tls)
      | .ok appWrite =>
          let tls := { tls with appWrite := some appWrite }
          match library.packetKey suite serverApp with
          | .error error => (.error error, tls)
          | .ok appRead =>
              (.ok (), { tls with
                appRead := some appRead
                cryptoPending := tls.cryptoPending ++ message })

/-- The Finished of the server covers the transcript `before` it. -/
def onServerFinished (library : TlsLibrary κ ξ) (tls : Tls13Client κ ξ) (before body : List Byte) :
    Except QuicError Unit × Tls13Client κ ξ :=
  -- Without a ServerHello the secrets are empty.
  let secrets := tls.secrets.getD ⟨[], [], []⟩
  if tls.serverFinished then
    (.error (.protocol "duplicate Finished"), tls)
  else if tls.leaf.isNone then
    (.error (.certificate "server did not send a Certificate message"), tls)
  else if !tls.certVerifyDone then
    (.error (.certificate "server sent a Certificate without CertificateVerify"), tls)
  else if body.length ≠ (tls.suite.map suiteHashLen).getD 32 then
    (.error (.protocol "invalid Finished length"), tls)
  else if library.finishedMac tls.suite secrets.serverHs before ≠ body then
    (.error (.protocol "server Finished verification failed"), tls)
  else
    { tls with serverFinished := true }.finish library secrets

/-- Handle one complete message, whose bytes are `bytes`. -/
def onMessage (library : TlsLibrary κ ξ) (tls : Tls13Client κ ξ) (kind : Byte)
    (body bytes : List Byte) : Except QuicError Unit × Tls13Client κ ξ :=
  if kind = HS_FINISHED then
    (tls.updateTranscript bytes).onServerFinished library tls.transcript body
  else if kind = HS_CERTIFICATE_VERIFY then
    -- The signature covers the transcript without this message.
    match tls.onCertificateVerify library body with
    | (.error error, tls) => (.error error, tls)
    | (.ok (), tls) => (.ok (), tls.updateTranscript bytes)
  else
    let tls := tls.updateTranscript bytes
    if kind = HS_SERVER_HELLO then
      tls.onServerHello library body
    else if kind = HS_ENCRYPTED_EXTENSIONS then
      tls.onEncryptedExtensions body
    else if kind = HS_CERTIFICATE then
      tls.onCertificate library body
    else if kind = HS_CLIENT_HELLO then
      (.error (.protocol "unexpected ClientHello from server"), tls)
    else
      (.error (.protocol ("unexpected handshake message type " ++ toString kind.toNat)), tls)

/-- The loop of `consume_crypto` over the bytes that are left, after `pos` of
them; every message has at least its four bytes of header. -/
def consumeFrom (library : TlsLibrary κ ξ) : (bound : Nat) → (pos : Nat) → List Byte →
    Tls13Client κ ξ → Except QuicError Nat × Tls13Client κ ξ
  | 0, pos, _, tls => (.ok pos, tls)
  | bound + 1, pos, buf, tls =>
      match takeHsMessage buf with
      | none => (.ok pos, tls)
      | some (kind, body, rest) =>
          let size := buf.length - rest.length
          match tls.onMessage library kind body (buf.take size) with
          | (.error error, tls) => (.error error, tls)
          | (.ok (), tls) =>
              -- Nothing behind the Finished message is looked at.
              if kind = HS_FINISHED then
                (.ok (pos + size), tls)
              else
                consumeFrom library bound (pos + size) rest tls

/-- Handle every complete message at the front of the bytes; how many bytes they
are. -/
def consumeCrypto (library : TlsLibrary κ ξ) (tls : Tls13Client κ ξ) (buf : List Byte) :
    Except QuicError Nat × Tls13Client κ ξ :=
  consumeFrom library buf.length 0 buf tls

end Tls13Client

/-! ## A library without cryptography

One key for everything, certificates that are their bytes, and message
authentication codes of zeros. -/

namespace Plain

/-- A library without cryptography. -/
def tls : TlsLibrary Unit (List Byte) where
  handshakeSecrets := fun _ _ _ => ⟨[], [], []⟩
  applicationSecrets := fun _ _ _ => ([], [])
  packetKey := fun _ _ => .ok ()
  finishedMac := fun suite _ _ => List.replicate ((suite.map suiteHashLen).getD 32) 0
  parseCertificate := fun der => .ok der
  validateChain := fun _ => .ok ()
  hostnameMatches := fun _ _ => true
  verifySignature := fun _ _ _ signature => signature.isEmpty

/-- A ServerHello with the suite 0x1301 and some key share. -/
def serverHello : List Byte :=
  hsMessage HS_SERVER_HELLO ([3, 3] ++ List.replicate 32 7 ++ [0, 0x13, 0x01, 0, 0, 40, 0, 51, 0, 36,
    0, 0x1d, 0, 32] ++ List.replicate 32 5)

/-- The server grants 100 bytes for the connection, 50 for each stream that the
client opens, and 3 such streams. -/
def encryptedExtensions : List Byte :=
  hsMessage HS_ENCRYPTED_EXTENSIONS [0, 13, 0, 0x39, 0, 9, 0x04, 1, 100, 0x06, 1, 50, 0x08, 1, 3]

/-- A Certificate. -/
def certificate : List Byte :=
  hsMessage HS_CERTIFICATE [0, 0, 0, 6, 0, 0, 1, 9, 0, 0]

/-- A CertificateVerify. -/
def certificateVerify : List Byte :=
  hsMessage HS_CERTIFICATE_VERIFY [8, 4, 0, 0]

/-- A Finished. -/
def finished : List Byte :=
  hsMessage HS_FINISHED (List.replicate 32 0)

end Plain

/-!
# The key schedule

Secrets, message authentication codes and the content of signatures come from
the hash of the transcript.  Each cipher suite names a hash, and the key
schedule computes with it; the hash of the transcript itself is a parameter
here, because the program fixes it before a suite is negotiated.
-/

/-- The hash functions of the cipher suites. -/
inductive Digest where
  | sha256
  | sha384
  deriving DecidableEq, Repr

/-- The functions of the cryptographic library, for a client with some private
key. -/
structure TlsPrimitives (κ ξ : Type) where
  hash : Digest → List Byte → List Byte
  extract : Digest → (salt input : List Byte) → List Byte
  expandLabel : Digest → (secret label context : List Byte) → (length : Nat) → List Byte
  hmac : Digest → (key data : List Byte) → List Byte
  x25519 : (serverPub : List Byte) → List Byte
  packetKey : (suite : Nat) → (secret : List Byte) → Except QuicError κ
  parseCertificate : (der : List Byte) → Except String ξ
  validateChain : (chain : List (List Byte)) → Except String Unit
  hostnameMatches : (serverName : String) → ξ → Bool
  verifySignature : ξ → (scheme : Nat) → (content signature : List Byte) → Bool

/-- The hash of the negotiated suite. -/
def suiteDigest (suite : Option Nat) : Digest :=
  if suite = some SUITE_AES_256 then .sha384 else .sha256

/-- The content signed by the server: 64 spaces, the role and a zero byte, then
the hash of the transcript. -/
def certVerifyContent (transcriptHash : List Byte) : List Byte :=
  List.replicate 64 0x20 ++ ascii "TLS 1.3, server CertificateVerify" ++ [0] ++ transcriptHash

namespace TlsPrimitives

variable {κ ξ : Type} (primitives : TlsPrimitives κ ξ)

/-- `derive_secret` with the hash of the suite. -/
def deriveSecretFrom (suite : Option Nat) (secret : List Byte) (label : String)
    (messagesHash : List Byte) (hashLen : Nat) : List Byte :=
  primitives.expandLabel (suiteDigest suite) secret (ascii label) messagesHash hashLen

/-- The secrets that a ServerHello brings, when the transcript is hashed with
`digest`. -/
def handshakeSecrets (digest : Digest) (suite : Nat) (serverPub transcript : List Byte) :
    HandshakeSecrets :=
  let hashLen := suiteHashLen suite
  let zeros := List.replicate hashLen 0
  let early := primitives.extract (suiteDigest (some suite)) zeros zeros
  let emptyHash := primitives.hash (suiteDigest (some suite)) []
  let derived := primitives.deriveSecretFrom (some suite) early "derived" emptyHash hashLen
  let hsSecret := primitives.extract (suiteDigest (some suite)) derived
    (primitives.x25519 serverPub)
  let chShHash := primitives.hash digest transcript
  { clientHs := primitives.deriveSecretFrom (some suite) hsSecret "c hs traffic" chShHash hashLen
    serverHs := primitives.deriveSecretFrom (some suite) hsSecret "s hs traffic" chShHash hashLen
    handshake := hsSecret }

/-- The application secrets of the client and of the server. -/
def applicationSecrets (digest : Digest) (suite : Option Nat) (handshake transcript : List Byte) :
    List Byte × List Byte :=
  let hashLen := (suite.map suiteHashLen).getD 32
  let emptyHash := primitives.hash (suiteDigest suite) []
  let derived := primitives.deriveSecretFrom suite handshake "derived" emptyHash hashLen
  let master := primitives.extract (suiteDigest suite) derived (List.replicate hashLen 0)
  let upToFin := primitives.hash digest transcript
  (primitives.deriveSecretFrom suite master "c ap traffic" upToFin hashLen,
    primitives.deriveSecretFrom suite master "s ap traffic" upToFin hashLen)

/-- The verify data of a Finished message. -/
def finishedMac (digest : Digest) (suite : Option Nat) (secret transcript : List Byte) :
    List Byte :=
  let finishedKey := primitives.expandLabel (suiteDigest suite) secret (ascii "finished") []
    ((suite.map suiteHashLen).getD 32)
  primitives.hmac (suiteDigest suite) finishedKey (primitives.hash digest transcript)

/-- The key schedule over a transcript that is hashed with `digest`. -/
def library (digest : Digest) : TlsLibrary κ ξ where
  handshakeSecrets := primitives.handshakeSecrets digest
  applicationSecrets := primitives.applicationSecrets digest
  packetKey := primitives.packetKey
  finishedMac := primitives.finishedMac digest
  parseCertificate := primitives.parseCertificate
  validateChain := primitives.validateChain
  hostnameMatches := primitives.hostnameMatches
  verifySignature := fun leaf scheme transcript signature =>
    primitives.verifySignature leaf scheme
      (certVerifyContent (primitives.hash digest transcript)) signature

/-- The key schedule of the program, whose transcript is hashed with SHA-256. -/
def program : TlsLibrary κ ξ :=
  primitives.library .sha256

/-- The key schedule of a suite, whose hash is the hash of the transcript too. -/
def negotiated (suite : Nat) : TlsLibrary κ ξ :=
  primitives.library (suiteDigest (some suite))

theorem negotiated_eq_program {suite : Nat} (other : suite ≠ SUITE_AES_256) :
    primitives.negotiated suite = primitives.program := by
  have digest_eq : suiteDigest (some suite) = .sha256 :=
    if_neg fun same => other (Option.some.inj same)
  rw [negotiated, program, digest_eq]

end TlsPrimitives

end Corduit.Protocol.Quic
