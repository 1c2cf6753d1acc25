import Corduit.Protocol.Tls13.Record
import Corduit.Text.Utf8
import Corduit.Transport.Session

/-!
# TLS 1.3: the hellos

The client drafts a ClientHello, lets a hook rewrite it and sends it; the
transcript starts with what was sent.  The first record of the server, behind
compatibility records, holds the ServerHello, which echoes a session id and
brings the keys of the handshake.
-/

namespace Corduit.Protocol.Tls13

open Text Transition Transport Word

/-- Which client a ClientHello looks like. -/
inductive Fingerprint where
  | off
  | chrome
  | randomized
  | custom (profile : TlsProfile)
  deriving DecidableEq

namespace Fingerprint

variable {ξ : Type} (primitives : Primitives ξ)

/-- The profile of a fingerprint. -/
def baseProfile : Fingerprint → Option TlsProfile
  | off => none
  | chrome | randomized => some primitives.chromeTlsProfile
  | custom profile => some profile

/-- The schemes of a fingerprint. -/
def signatureAlgorithms (fingerprint : Fingerprint) : List Nat :=
  ((fingerprint.baseProfile primitives).map TlsProfile.signatureAlgorithms).getD []

end Fingerprint

/-- What goes into a hello. -/
structure ClientHelloSpec where
  serverName : String
  alpn : List String
  fingerprint : Fingerprint
  random : Octets 32
  sessionId : Octets 32
  keyShare : List Byte

/-- The ClientHello that a hook may rewrite. -/
structure ClientHelloDraft where
  raw : List Byte
  random : List Byte
  keySharePrivate : List Byte
  keySharePublic : List Byte
  sessionIdOffset : Nat

/-- `ClientHelloHook::on_client_hello`: the hello that is sent. -/
abbrev ClientHelloHook :=
  ClientHelloDraft → Except Tls13Error (List Byte)

/-- `ServerAuth::verify_certificate`. -/
abbrev ServerAuth (ξ : Type) :=
  (leafDer : List Byte) → (leaf : ξ) → (chain : List (List Byte)) → Except Tls13Error Unit

/-- The configuration of a client. -/
structure Tls13ClientConfig (ξ : Type) where
  serverName : String
  alpn : List String := []
  fingerprint : Fingerprint := .off
  now : Int := 0
  roots : Option (List ξ) := none
  verify : Bool := true
  auth : Option (ServerAuth ξ) := none
  helloHook : Option ClientHelloHook := none
  compatibilityCcs : Bool := true

/-- What the random source gives: the client random and a private key. -/
structure Entropy where
  random : Except String (Octets 32)
  privateKey : Except String (Octets 32)

/-- `X509ServerAuth`. -/
def x509ServerAuth {ξ : Type} (primitives : Primitives ξ) (config : Tls13ClientConfig ξ) :
    ServerAuth ξ :=
  fun _ leaf chain =>
    if !config.verify then
      .ok ()
    else
      match primitives.validateChain (config.roots.getD []) chain config.now with
      | .error message => .error (.certificate message)
      | .ok () =>
          if primitives.hostnameMatches config.serverName leaf then
            .ok ()
          else
            .error (.certificate
              ("server name '" ++ config.serverName ++ "' does not match the certificate"))

namespace Tls13ClientConfig

variable {ξ : Type} (primitives : Primitives ξ) (config : Tls13ClientConfig ξ)

/-- The authentication of the server. -/
def serverAuth : ServerAuth ξ :=
  config.auth.getD (x509ServerAuth primitives config)

/-- The protocols on offer. -/
def offeredAlpn : List (List Byte) :=
  if config.alpn.isEmpty then
    match config.fingerprint with
    | .off => []
    | _ => [ascii "h2", ascii "http/1.1"]
  else
    config.alpn.map asBytes

/-- The schemes on offer. -/
def offeredSchemes : List Nat :=
  let schemes := config.fingerprint.signatureAlgorithms primitives
  if schemes.isEmpty then
    [SIG_RSA_PSS_SHA256, SIG_ECDSA_SECP256R1_SHA256, SIG_ED25519]
  else
    schemes

end Tls13ClientConfig

/-- One character of the format `{:?}` of a text. -/
def debugCharacter (printable : Char → Bool) : Char → String
  | '"' => "\\\""
  | '\\' => "\\\\"
  | '\t' => "\\t"
  | '\r' => "\\r"
  | '\n' => "\\n"
  | '\x00' => "\\0"
  | character =>
      if printable character then
        character.toString
      else
        "\\u\x7b" ++ String.ofList (Nat.toDigits 16 character.toNat) ++ "\x7d"

/-- The format `{:?}` of a text. -/
def debugText (printable : Char → Bool) (text : String) : String :=
  "\"" ++ String.join (text.toList.map (debugCharacter printable)) ++ "\""

/-- The offset of the session id: a handshake header, the version, the random and
a length. -/
def SESSION_ID_OFFSET : Nat := 39

/-- `build_client_hello`; what stands behind the session id, which the shape of
the fingerprint decides, is `tail`. -/
def buildClientHello (tail : ClientHelloSpec → Except Tls13Error (List Byte))
    (spec : ClientHelloSpec) : Except Tls13Error (List Byte) := do
  let behind ← tail spec
  return hsMessage HS_CLIENT_HELLO ([3, 3] ++ spec.random.bytes ++
    [BitVec.ofNat 8 spec.sessionId.bytes.length] ++ spec.sessionId.bytes ++ behind)

/-- A ClientHello as it is sent, the session id that was drafted for it, and the
private key behind its key share. -/
structure AssembledHello where
  clientHello : List Byte
  sentSessionId : List Byte
  privateKey : List Byte
  deriving DecidableEq

section Hello

variable {ξ : Type} (primitives : Primitives ξ)
  (tail : ClientHelloSpec → Except Tls13Error (List Byte)) (config : Tls13ClientConfig ξ)

/-- The server name must fit. -/
def checkServerName : Except Tls13Error Unit :=
  let name := asBytes config.serverName
  if name.isEmpty then
    .error (.invalidConfig "server_name is empty")
  else if 255 < name.length ∨ name.any (fun byte => byte.toNat ≤ 0x20 || byte = 0x7f) then
    .error (.invalidConfig
      ("server_name is not a hostname: " ++ debugText primitives.printable config.serverName))
  else
    .ok ()

/-- The bytes of the random source. -/
def entropyOf (drawn : Except String (Octets 32)) : Except Tls13Error (Octets 32) :=
  match drawn with
  | .ok bytes => .ok bytes
  | .error message => .error (.io ("entropy failure: " ++ message))

/-- The hello as it is drafted, with a session id of zeros. -/
def draftHello (entropy : Entropy) : Except Tls13Error ClientHelloDraft := do
  checkServerName primitives config
  let random ← entropyOf entropy.random
  let privateKey ← entropyOf entropy.privateKey
  let publicKey := primitives.x25519PublicKey privateKey.bytes
  let drafted ← buildClientHello tail
    { serverName := config.serverName
      alpn := config.alpn
      fingerprint := config.fingerprint
      random := random
      sessionId := .filled 32 0
      keyShare := publicKey }
  return ⟨drafted, random.bytes, privateKey.bytes, publicKey, SESSION_ID_OFFSET⟩

/-- Draft the hello, then let the hook rewrite it; the session id is copied before
the hook runs. -/
def assembleHello (entropy : Entropy) : Except Tls13Error AssembledHello := do
  let draft ← draftHello primitives tail config entropy
  let sentSessionId := slice draft.raw draft.sessionIdOffset 32
  match config.helloHook with
  | none => return ⟨draft.raw, sentSessionId, draft.keySharePrivate⟩
  | some hook => return ⟨← hook draft, sentSessionId, draft.keySharePrivate⟩

/-- Write the hello, and behind it the compatibility record. -/
def sendHello (hello : AssembledHello) (outgoing : Outgoing) :
    Except Tls13Error Unit × Outgoing :=
  match outgoing.writeAll (plaintextRecord CONTENT_HANDSHAKE hello.clientHello) with
  | (.error error, outgoing) => (.error (.ofIoError error), outgoing)
  | (.ok (), outgoing) =>
      if config.compatibilityCcs && config.fingerprint ≠ .off then
        match outgoing.writeAll (plaintextRecord CONTENT_CHANGE_CIPHER_SPEC [1]) with
        | (.error error, outgoing) => (.error (.ofIoError error), outgoing)
        | (.ok (), outgoing) => (.ok (), outgoing)
      else
        (.ok (), outgoing)

end Hello

/-- `read_exact` of the driver: an interrupted read is retried. -/
def readExact (incoming : Incoming) (want : Nat) : Except Tls13Error (List Byte) × Incoming :=
  let fill := incoming.fill (· = .interrupted) want want
  match fill.ending with
  | .filled => (.ok fill.bytes, fill.incoming)
  | .eof => (.error (.io "connection closed during a record read"), fill.incoming)
  | .failed error => (.error (.ofIoError error), fill.incoming)

/-- One complete record: its content type and its body. -/
def readRecord (incoming : Incoming) : Except Tls13Error (Byte × List Byte) × Incoming :=
  match readExact incoming 5 with
  | (.error error, incoming) => (.error error, incoming)
  | (.ok header, incoming) =>
      match parseRecordHeader header with
      | .error error => (.error error, incoming)
      | .ok (contentType, len) =>
          match readExact incoming len with
          | (.error error, incoming) => (.error error, incoming)
          | (.ok body, incoming) => (.ok (contentType, body), incoming)

section Runs

variable {ξ : Type} (primitives : Primitives ξ)

/-- Seal records one after the other. -/
def sealRecords (protector : RecordProtector) : List (Byte × List Byte) →
    Except Tls13Error (List Byte × RecordProtector)
  | [] => .ok ([], protector)
  | (contentType, payload) :: later =>
      match protector.seal primitives contentType payload with
      | (.error error, _) => .error error
      | (.ok record, protector) => do
          let (wire, protector) ← sealRecords protector later
          return (record ++ wire, protector)

/-- Read and open so many records. -/
def openRecords (protector : RecordProtector) (incoming : Incoming) : Nat →
    Except Tls13Error (List (Byte × List Byte) × RecordProtector × Incoming)
  | 0 => .ok ([], protector, incoming)
  | count + 1 =>
      match readRecord incoming with
      | (.error error, _) => .error error
      | (.ok (_, body), incoming) =>
          match protector.open primitives body with
          | (.error error, _) => .error error
          | (.ok record, protector) => do
              let (records, ends) ← openRecords protector incoming count
              return (record :: records, ends)

variable {primitives} {polls : List Poll}

theorem readExact_front (raises : Raises polls (·.kind = .interrupted)) {block : List Byte}
    (some : 0 < block.length) (rest : List Byte) :
    ∃ polls', readExact ⟨block ++ rest, polls⟩ block.length = (.ok block, ⟨rest, polls'⟩) ∧
      polls' <:+ polls := by
  rw [readExact]
  rcases Incoming.fill_cases some ⟨block ++ rest, polls⟩ block.length with
    ⟨polls', filled, _, later⟩ | ⟨_, _, less, _⟩ | ⟨_, error, _, _, _, _, raised, later⟩
  · rw [filled]
    refine ⟨polls', ?_, later⟩
    dsimp only
    rw [List.take_left, List.drop_left]
  · exact absurd less (by simp)
  · exact absurd (raises error (later.subset List.mem_cons_self)) (of_decide_eq_false raised)

/-- Records that one end sealed are read and opened by the other, wherever the transport is
interrupted, and both ends go on from the same number. -/
theorem openRecords_sealRecords (opens : primitives.Opens) {protector ends : RecordProtector}
    {records : List (Byte × List Byte)} {wire : List Byte}
    (contents : ∀ record ∈ records, IsContent record.1)
    (sealed : sealRecords primitives protector records = .ok (wire, ends))
    (raises : Raises polls (·.kind = .interrupted)) (rest : List Byte) :
    ∃ polls', openRecords primitives protector ⟨wire ++ rest, polls⟩ records.length =
      .ok (records, ends, ⟨rest, polls'⟩) := by
  induction records generalizing protector wire polls with
  | nil =>
      cases sealed
      exact ⟨polls, rfl⟩
  | cons record records ih =>
      rcases record with ⟨contentType, payload⟩
      rw [List.forall_mem_cons] at contents
      rw [sealRecords] at sealed
      by_cases short : payload.length ≤ MAX_PLAINTEXT
      · rcases protector.open_seal opens contents.1 short with ⟨body, first, length_eq, opened⟩
        rw [first] at sealed
        rcases bind_eq_ok_iff.mp sealed with ⟨⟨later, last⟩, others, same⟩
        cases same
        have most : MAX_PLAINTEXT + 17 ≤ MAX_CIPHERTEXT := by decide
        have fits : body.length ≤ MAX_CIPHERTEXT := by omega
        rcases @readExact_front _ raises (recordHeader body.length) (Nat.succ_pos 4)
          (body ++ (later ++ rest)) with ⟨polls', header, less⟩
        rcases @readExact_front _ (raises.suffix less) body (by omega) (later ++ rest) with
          ⟨polls'', read, less'⟩
        rcases ih contents.2 others (raises.suffix (less'.trans less)) with ⟨left, done⟩
        refine ⟨left, ?_⟩
        have parsed := parseRecordHeader_recordHeader fits []
        rw [List.append_nil] at parsed
        change readExact _ 5 = _ at header
        rw [List.length_cons, openRecords, readRecord, List.append_assoc, List.append_assoc, header]
        dsimp only
        rw [parsed]
        dsimp only
        rw [read]
        dsimp only
        rw [opened]
        dsimp only
        rw [done]
        rfl
      · rw [RecordProtector.seal, if_pos (Nat.lt_of_not_le short)] at sealed
        cases sealed

end Runs

/-- One turn of the loop before the ServerHello. -/
def helloTurn (incoming : Incoming) : Turn Incoming (Except Tls13Error (List Byte)) :=
  match readRecord incoming with
  | (.error error, incoming) => .returns (.error error) incoming
  | (.ok (outer, payload), incoming) =>
      if outer = CONTENT_CHANGE_CIPHER_SPEC then
        .again incoming
      else if outer = CONTENT_ALERT then
        .returns (.error (alertError payload)) incoming
      else if outer = CONTENT_HANDSHAKE then
        .returns (.ok payload) incoming
      else
        .returns (.error (.protocol
          ("unexpected record type " ++ toString outer.toNat ++ " before ServerHello"))) incoming

/-- The payload of the record of the ServerHello; every record takes bytes of the
transport. -/
def readHelloRecord (incoming : Incoming) : Option (Except Tls13Error (List Byte) × Incoming) :=
  loop helloTurn (incoming.wire.length + 1) incoming

/-- The ServerHello at the front of its record; what stands behind it is left. -/
def serverHelloMessage (payload : List Byte) : Except Tls13Error (List Byte) :=
  match readHsMessage payload with
  | none => .error (.protocol "ServerHello record does not hold a complete handshake message")
  | some (msgType, _, used) =>
      if msgType ≠ HS_SERVER_HELLO then
        .error (.protocol
          ("expected ServerHello (2), got handshake type " ++ toString msgType.toNat))
      else
        .ok (payload.take used)

/-- The error of a ServerHello that echoes another session id. -/
def echoMismatch : Tls13Error :=
  .protocol "ServerHello legacy_session_id_echo does not match the ClientHello"

/-- What the two hellos agree on. -/
structure Handshake where
  transcript : List Byte
  suite : Nat
  hash : SuiteHash
  secrets : HandshakeSecrets
  read : RecordProtector
  write : RecordProtector
  deriving DecidableEq

/-- Take a ServerHello: check what it echoes and derive the keys. -/
def greet {ξ : Type} (primitives : Primitives ξ) (hello : AssembledHello) (message : List Byte) :
    Except Tls13Error Handshake := do
  let serverHello ← parseServerHello (message.drop 4)
  if serverHello.legacySessionIdEcho ≠ hello.sentSessionId then
    .error echoMismatch
  else
    let transcript := hello.clientHello ++ message
    let ecdhe := primitives.x25519 hello.privateKey serverHello.keyShare
    let hash := SuiteHash.forSuite serverHello.suite
    let secrets := HandshakeSecrets.new primitives serverHello.suite ecdhe
      (primitives.hash hash transcript)
    let (clientKey, clientIv) ←
      TrafficKey.derive primitives serverHello.suite hash secrets.clientHsTraffic
    let (serverKey, serverIv) ←
      TrafficKey.derive primitives serverHello.suite hash secrets.serverHsTraffic
    return {
      transcript := transcript
      suite := serverHello.suite
      hash := hash
      secrets := secrets
      read := { key := serverKey, iv := serverIv }
      write := { key := clientKey, iv := clientIv } }

theorem greet_spec {ξ : Type} {primitives : Primitives ξ} {hello : AssembledHello}
    {message : List Byte} {handshake : Handshake}
    (greeted : greet primitives hello message = .ok handshake) :
    ∃ serverHello, parseServerHello (message.drop 4) = .ok serverHello ∧
      handshake.transcript = hello.clientHello ++ message ∧
      handshake.suite = serverHello.suite ∧
      handshake.hash = SuiteHash.forSuite serverHello.suite ∧
      handshake.secrets = HandshakeSecrets.new primitives serverHello.suite
        (primitives.x25519 hello.privateKey serverHello.keyShare)
        (primitives.hash handshake.hash handshake.transcript) := by
  unfold greet at greeted
  rcases bind_eq_ok_iff.mp greeted with ⟨serverHello, parsed, greeted⟩
  split at greeted
  · cases greeted
  · rcases bind_eq_ok_iff.mp greeted with ⟨⟨clientKey, clientIv⟩, _, greeted⟩
    rcases bind_eq_ok_iff.mp greeted with ⟨⟨serverKey, serverIv⟩, _, greeted⟩
    rw [← pure_eq_ok_iff.mp greeted]
    exact ⟨serverHello, parsed, rfl, rfl, rfl, rfl⟩

end Corduit.Protocol.Tls13

/-!
# TLS 1.3: primitives for examples

Hashes are checksums, a sealed record carries the nonce and the key in its tag,
and a certificate is its bytes.
-/

namespace Corduit.Protocol.Tls13.Plain

open Crypto Word

/-- A sum of bytes. -/
def checksum (bytes : List Byte) : Byte :=
  bytes.foldl (· + ·) 1

/-- Functions that hash by summing up. -/
def primitives : Primitives (List Byte) where
  hash := fun hash data => List.replicate hash.len (checksum data)
  hmac := fun hash key data => List.replicate hash.len (checksum key * 3 + checksum data)
  x25519 := fun privateKey publicKey => List.zipWith (· + ·) privateKey publicKey
  x25519PublicKey := id
  encrypt := fun _ key nonce plaintext _ => .ok (Aead.tagging.encrypt key nonce plaintext)
  decrypt := fun _ key nonce ciphertext _ => Aead.tagging.decrypt key nonce ciphertext
  parseCertificate := .ok
  validateChain := fun _ _ _ => .ok ()
  hostnameMatches := fun _ _ => true
  verifySignature := fun _ _ content signature => signature = [checksum content]
  chromeTlsProfile := ⟨[]⟩
  printable := fun _ => true

theorem opens : primitives.Opens where
  opens _ key nonce plaintext _ _ := ⟨_, rfl, Aead.opens_tagging.length_encrypt key nonce plaintext,
    Aead.opens_tagging.decrypt_encrypt key nonce plaintext⟩

/-- Records of three types. -/
def records : List (Byte × List Byte) :=
  [(CONTENT_HANDSHAKE, [8, 0, 0, 0]), (CONTENT_ALERT, [1, 0]),
    (CONTENT_APPLICATION_DATA, List.replicate 30 7)]

/-- A transport that gives the bytes in pieces and is interrupted in the first header,
before the last byte of the first body and in the last record. -/
def interruptedPolls : List Transport.Poll :=
  let interrupted : Transport.Poll := .fails ⟨.interrupted, "interrupted"⟩
  [.gives 1, interrupted, .gives 0, .gives 7, .gives 19, interrupted, interrupted, .gives 4,
    .gives 9, .gives 30, .gives 4, .gives 20, interrupted, .gives 250]

theorem openRecords_plain :
    ∃ wire ends polls, sealRecords primitives ⟨⟨1, [2]⟩, .filled 12 3, 4⟩ records =
        .ok (wire, ends) ∧
      openRecords primitives ⟨⟨1, [2]⟩, .filled 12 3, 4⟩ ⟨wire ++ [5, 6], interruptedPolls⟩ 3 =
        .ok (records, ends, ⟨[5, 6], polls⟩) := by
  have sealed : ∃ outcome, sealRecords primitives ⟨⟨1, [2]⟩, .filled 12 3, 4⟩ records =
      .ok outcome := ⟨_, rfl⟩
  rcases sealed with ⟨⟨wire, ends⟩, sealed⟩
  have raises : Transport.Raises interruptedPolls (·.kind = .interrupted) := by
    intro error listed
    have same : error = ⟨.interrupted, "interrupted"⟩ := by
      simpa [interruptedPolls] using listed
    rw [same]
  rcases openRecords_sealRecords opens (by decide) sealed raises [5, 6] with ⟨polls, done⟩
  exact ⟨wire, ends, polls, sealed, done⟩

/-- Suites and extensions that are left out. -/
def tail : ClientHelloSpec → Except Tls13Error (List Byte) :=
  fun _ => .ok []

/-- What is drawn for a hello. -/
def entropy : Entropy where
  random := .ok (.filled 32 7)
  privateKey := .ok (.filled 32 9)

end Corduit.Protocol.Tls13.Plain
