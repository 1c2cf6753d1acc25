import Corduit.Transport.Poll
import Corduit.Word.Octets

/-!
# TLS 1.3: errors, records and handshake messages

The errors of the client, the header of a record and the framing of handshake
messages, which come one after the other with a type and a length of three
bytes each.
-/

namespace Corduit.Protocol.Tls13

open Transport Word

/-- What can go wrong. -/
inductive Tls13Error where
  | io (message : String)
  | protocol (message : String)
  | certificate (message : String)
  | alert (level description : Byte)
  | unsupported (message : String)
  | invalidConfig (message : String)
  | closed
  deriving DecidableEq

namespace Tls13Error

/-- The message of an error. -/
def display : Tls13Error → String
  | io message => "TLS I/O error: " ++ message
  | protocol message => "TLS protocol error: " ++ message
  | certificate message => "TLS certificate error: " ++ message
  | alert level description =>
      "TLS alert (level " ++ toString level.toNat ++ ", description " ++
        toString description.toNat ++ ")"
  | unsupported message => "TLS unsupported: " ++ message
  | invalidConfig message => "TLS invalid config: " ++ message
  | closed => "TLS connection closed"

/-- An error of the transport keeps its text. -/
def ofIoError (error : IoError) : Tls13Error :=
  .io error.text

end Tls13Error

/-- `client_hello`. -/
def HS_CLIENT_HELLO : Byte := 1
/-- `server_hello`. -/
def HS_SERVER_HELLO : Byte := 2
/-- `new_session_ticket`. -/
def HS_NEW_SESSION_TICKET : Byte := 4
/-- `encrypted_extensions`. -/
def HS_ENCRYPTED_EXTENSIONS : Byte := 8
/-- `certificate`. -/
def HS_CERTIFICATE : Byte := 11
/-- `certificate_verify`. -/
def HS_CERTIFICATE_VERIFY : Byte := 15
/-- `finished`. -/
def HS_FINISHED : Byte := 20
/-- `key_update`. -/
def HS_KEY_UPDATE : Byte := 24

/-- `change_cipher_spec`. -/
def CONTENT_CHANGE_CIPHER_SPEC : Byte := 20
/-- `alert`. -/
def CONTENT_ALERT : Byte := 21
/-- `handshake`. -/
def CONTENT_HANDSHAKE : Byte := 22
/-- `application_data`. -/
def CONTENT_APPLICATION_DATA : Byte := 23

/-- A fatal alert. -/
def ALERT_FATAL : Byte := 2

/-- The length of a tag. -/
def TAG_LEN : Nat := 16
/-- The longest plaintext. -/
def MAX_PLAINTEXT : Nat := 2 ^ 14
/-- The longest ciphertext. -/
def MAX_CIPHERTEXT : Nat := MAX_PLAINTEXT + 256

/-- The format `{:02x}`. -/
def hex2 (byte : Byte) : String :=
  String.ofList (List.leftpad 2 '0' (Nat.toDigits 16 byte.toNat))

/-- The format `{:04x}`. -/
def hex4 (value : Nat) : String :=
  String.ofList (List.leftpad 4 '0' (Nat.toDigits 16 value))

/-- An unprotected record. -/
def plaintextRecord (contentType : Byte) (payload : List Byte) : List Byte :=
  [contentType, 3, 3] ++ toBeBytes 2 (BitVec.ofNat 16 payload.length) ++ payload

/-- The content type and the length of a record. -/
def parseRecordHeader : List Byte → Except Tls13Error (Byte × Nat)
  | contentType :: major :: minor :: high :: low :: _ =>
      if major ≠ 3 ∨ 4 < minor.toNat then
        .error (.protocol ("unsupported record version 0x" ++ hex2 major ++ hex2 minor))
      else if MAX_CIPHERTEXT < ofBeBytes [high, low] then
        .error (.protocol ("record length " ++ toString (ofBeBytes [high, low]) ++
          " exceeds the maximum"))
      else
        .ok (contentType, ofBeBytes [high, low])
  | _ => .error (.protocol "truncated record header")

/-- The level and the description of an alert. -/
def alertParts : List Byte → Byte × Byte
  | level :: description :: _ => (level, description)
  | _ => (ALERT_FATAL, 80)

/-- The error of an alert. -/
def alertError (payload : List Byte) : Tls13Error :=
  .alert (alertParts payload).1 (alertParts payload).2

/-- A handshake message with its header. -/
def hsMessage (msgType : Byte) (body : List Byte) : List Byte :=
  msgType :: toBeBytes 3 (BitVec.ofNat 32 body.length) ++ body

/-- The type and the body of the message at the front, and how many bytes it
takes up; `none` when it is not complete. -/
def readHsMessage : List Byte → Option (Byte × List Byte × Nat)
  | msgType :: high :: middle :: low :: rest =>
      let len := ofBeBytes [high, middle, low]
      if rest.length < len then none else some (msgType, rest.take len, 4 + len)
  | _ => none

theorem readHsMessage_split {buf body : List Byte} {msgType : Byte} {used : Nat}
    (found : readHsMessage buf = some (msgType, body, used)) :
    used ≤ buf.length ∧ 4 ≤ used ∧ (buf.take used).drop 4 = body ∧
      readHsMessage (buf.take used) = some (msgType, body, used) := by
  unfold readHsMessage at found
  split at found
  case h_1 first high middle low rest =>
    dsimp only at found
    by_cases short : rest.length < ofBeBytes [high, middle, low]
    · rw [if_pos short] at found
      cases found
    · rw [if_neg short] at found
      cases found
      have long : (rest.take (ofBeBytes [high, middle, low])).length =
          ofBeBytes [high, middle, low] := List.length_take_of_le (Nat.le_of_not_lt short)
      have front : (msgType :: high :: middle :: low :: rest).take
          (4 + ofBeBytes [high, middle, low]) =
          msgType :: high :: middle :: low :: rest.take (ofBeBytes [high, middle, low]) := by
        rw [Nat.add_comm]
        rfl
      refine ⟨?_, Nat.le_add_right _ _, ?_, ?_⟩
      · simp only [List.length_cons]
        omega
      · rw [front]
        rfl
      · rw [front]
        unfold readHsMessage
        dsimp only
        rw [long, if_neg (Nat.lt_irrefl _), List.take_take, Nat.min_self]
  case h_2 => cases found

/-- A message at the front is read, whatever stands behind it. -/
theorem readHsMessage_append {message body : List Byte} {msgType : Byte} {used : Nat}
    (found : readHsMessage message = some (msgType, body, used)) (rest : List Byte) :
    readHsMessage (message ++ rest) = some (msgType, body, used) := by
  unfold readHsMessage at found
  split at found
  case h_1 first high middle low behind =>
    dsimp only at found
    by_cases short : behind.length < ofBeBytes [high, middle, low]
    · rw [if_pos short] at found
      cases found
    · rw [if_neg short] at found
      cases found
      have enough := Nat.le_of_not_lt short
      have long : ¬ (behind ++ rest).length < ofBeBytes [high, middle, low] := by
        rw [List.length_append]
        omega
      simp only [List.cons_append, readHsMessage]
      rw [if_neg long, List.take_append_of_le_length enough]
  case h_2 => cases found

theorem readHsMessage_hsMessage (msgType : Byte) {body : List Byte}
    (short : body.length < 2 ^ 24) (rest : List Byte) :
    readHsMessage (hsMessage msgType body ++ rest) = some (msgType, body, 4 + body.length) := by
  have spelt : ∃ high middle low, toBeBytes 3 (BitVec.ofNat 32 body.length) = [high, middle, low] ∧
      ofBeBytes [high, middle, low] = body.length := by
    refine ⟨_, _, _, rfl, ?_⟩
    have back := ofBeBytes_toBeBytes 3 (BitVec.ofNat 32 body.length)
    rw [BitVec.toNat_ofNat, Nat.mod_eq_of_lt (by omega : body.length < 2 ^ 32),
      Nat.mod_eq_of_lt (by omega)] at back
    exact back
  rcases spelt with ⟨high, middle, low, bytes_eq, len_eq⟩
  rw [hsMessage, bytes_eq]
  simp only [List.cons_append, List.nil_append, readHsMessage]
  rw [len_eq, if_neg (by simp), List.take_left]

/-!
# TLS 1.3: runs of handshake messages

Handshake bytes fall into complete messages and a rest in one way.
-/

/-- The bytes are one complete message. -/
def IsMessage (msgType : Byte) (message : List Byte) : Prop :=
  readHsMessage message = some (msgType, message.drop 4, message.length)

instance (msgType : Byte) (message : List Byte) : Decidable (IsMessage msgType message) :=
  inferInstanceAs (Decidable (_ = _))

/-- The complete messages at the front of some bytes and what is left. -/
def splitMessages : (bound : Nat) → List Byte → List (List Byte) × List Byte
  | 0, bytes => ([], bytes)
  | bound + 1, bytes =>
      match readHsMessage bytes with
      | none => ([], bytes)
      | some (_, _, used) =>
          let later := splitMessages bound (bytes.drop used)
          (bytes.take used :: later.1, later.2)

theorem isMessage_take {bytes body : List Byte} {msgType : Byte} {used : Nat}
    (found : readHsMessage bytes = some (msgType, body, used)) :
    IsMessage msgType (bytes.take used) := by
  rcases readHsMessage_split found with ⟨within, _, body_eq, again⟩
  rw [IsMessage, again, body_eq, List.length_take_of_le within]

theorem IsMessage.head {msgType : Byte} {message : List Byte} (is : IsMessage msgType message) :
    message.headD 0 = msgType := by
  unfold IsMessage readHsMessage at is
  split at is
  · dsimp only at is
    split at is
    · cases is
    · exact congrArg Prod.fst (Option.some.inj is)
  · cases is

theorem splitMessages_flatten {bound : Nat} {messages : List (List Byte)} {rest : List Byte}
    (all : ∀ message ∈ messages, ∃ msgType, IsMessage msgType message)
    (stopped : readHsMessage rest = none) (enough : messages.length ≤ bound) :
    splitMessages bound (messages.flatten ++ rest) = (messages, rest) := by
  induction messages generalizing bound with
  | nil =>
      cases bound with
      | zero => rfl
      | succ bound =>
          rw [List.flatten_nil, List.nil_append, splitMessages, stopped]
  | cons message messages ih =>
      rw [List.forall_mem_cons] at all
      rcases all with ⟨⟨msgType, is⟩, all⟩
      cases bound with
      | zero => exact absurd enough (Nat.not_succ_le_zero _)
      | succ bound =>
          have found := readHsMessage_append is (messages.flatten ++ rest)
          rw [List.flatten_cons, List.append_assoc, splitMessages, found]
          dsimp only
          rw [List.take_left, List.drop_left, ih all (Nat.le_of_succ_le_succ enough)]

theorem length_le_flatten {messages : List (List Byte)}
    (all : ∀ message ∈ messages, ∃ msgType, IsMessage msgType message) :
    messages.length ≤ messages.flatten.length := by
  induction messages with
  | nil => exact Nat.le_refl _
  | cons message messages ih =>
      rw [List.forall_mem_cons] at all
      rcases all with ⟨⟨msgType, is⟩, all⟩
      have header := (readHsMessage_split is).2.1
      have rest := ih all
      rw [List.flatten_cons, List.length_append, List.length_cons]
      omega

/-!
# TLS 1.3: the bodies of handshake messages

Extensions and certificates are lists of entries with a length each.  The
parsers take one entry after the other from the front of the bytes; the bound
of a loop is the number of bytes, and every entry has at least one.
-/

/-- `application_layer_protocol_negotiation`. -/
def EXT_ALPN : Nat := 0x0010
/-- `key_share`. -/
def EXT_KEY_SHARE : Nat := 0x0033
/-- `compress_certificate`. -/
def CERT_EXT_COMPRESSED_CERTIFICATE : Nat := 0x001b

/-- `x25519`. -/
def GROUP_X25519 : List Byte := [0x00, 0x1d]

/-- `rsa_pss_rsae_sha256`. -/
def SIG_RSA_PSS_SHA256 : Nat := 0x0804
/-- `ecdsa_secp256r1_sha256`. -/
def SIG_ECDSA_SECP256R1_SHA256 : Nat := 0x0403
/-- `ed25519`. -/
def SIG_ED25519 : Nat := 0x0807

/-- The random of a HelloRetryRequest. -/
def HRR_RANDOM : List Byte :=
  [0xcf, 0x21, 0xad, 0x74, 0xe5, 0x9a, 0x61, 0x11, 0xbe, 0x1d, 0x8c, 0x02, 0x1e, 0x65, 0xb8, 0x91,
    0xc2, 0xa2, 0x11, 0x16, 0x7a, 0xbb, 0x8c, 0x5e, 0x07, 0x9e, 0x09, 0xe2, 0xc8, 0xa8, 0x33, 0x9c]

/-- The sentinel of a server that falls back to TLS 1.2. -/
def DOWNGRADE_TLS12 : List Byte :=
  [0x44, 0x4f, 0x57, 0x4e, 0x47, 0x52, 0x44, 0x00]

/-- `TLS_AES_128_GCM_SHA256`. -/
def SUITE_AES_128 : Nat := 0x1301
/-- `TLS_AES_256_GCM_SHA384`. -/
def SUITE_AES_256 : Nat := 0x1302
/-- `TLS_CHACHA20_POLY1305_SHA256`. -/
def SUITE_CHACHA : Nat := 0x1303

/-- The suites that the client takes. -/
def isSupportedSuite (suite : Nat) : Bool :=
  suite = SUITE_AES_128 || suite = SUITE_AES_256 || suite = SUITE_CHACHA

/-- Types and data, until nothing is left. -/
def parseExtensionsFrom : (bound : Nat) → List Byte →
    Except Tls13Error (List (Nat × List Byte))
  | 0, _ => .ok []
  | bound + 1, data =>
      if data.isEmpty then
        .ok []
      else if data.length < 4 then
        .error (.protocol "truncated extension")
      else
        let extLen := ofBeBytes (slice data 2 2)
        if data.length - 4 < extLen then
          .error (.protocol "truncated extension body")
        else do
          let later ← parseExtensionsFrom bound (data.drop (4 + extLen))
          return (ofBeBytes (slice data 0 2), slice data 4 extLen) :: later

/-- The extension block at the front of the bytes. -/
def parseExtensions (buf : List Byte) : Except Tls13Error (List (Nat × List Byte)) :=
  if buf.length < 2 then
    .error (.protocol "truncated extension block")
  else
    let total := ofBeBytes (slice buf 0 2)
    if buf.length - 2 < total then
      .error (.protocol "truncated extension block")
    else
      parseExtensionsFrom total (slice buf 2 total)

/-- The protocol name that `EncryptedExtensions` select. -/
def parseAlpnExtension (body : List Byte) : Except Tls13Error (Option (List Byte)) := do
  let extensions ← parseExtensions body
  match extensions.find? (fun entry => entry.1 = EXT_ALPN) with
  | none => return none
  | some (_, data) =>
      let listLen := ofBeBytes (slice data 0 2)
      let nameLen := (data.getD 2 0).toNat
      if data.length < 3 then
        .error (.protocol "truncated ALPN extension")
      else if listLen = 0 ∨ data.length < 2 + listLen then
        .error (.protocol "truncated ALPN extension")
      else if data.length < 3 + nameLen then
        .error (.protocol "truncated ALPN protocol")
      else
        return some (slice data 3 nameLen)

/-- What the client uses of a ServerHello. -/
structure ServerHello where
  legacySessionIdEcho : List Byte
  suite : Nat
  keyShare : List Byte
  deriving DecidableEq

/-- The X25519 key share among the extensions of a ServerHello. -/
def parseKeyShare (extensions : List (Nat × List Byte)) : Except Tls13Error (List Byte) :=
  match extensions.find? (fun entry => entry.1 = EXT_KEY_SHARE) with
  | none => .error (.protocol "ServerHello missing key_share")
  | some (_, share) =>
      let keyLen := ofBeBytes (slice share 2 2)
      if share.length < 4 ∨ slice share 0 2 ≠ GROUP_X25519 then
        .error (.unsupported "ServerHello key_share is not X25519")
      else if share.length < 4 + keyLen ∨ keyLen ≠ 32 then
        .error (.protocol "invalid ServerHello key_share")
      else
        .ok (slice share 4 32)

/-- The fields of a ServerHello. -/
def parseServerHello (body : List Byte) : Except Tls13Error ServerHello :=
  let random := slice body 2 32
  let sidLen := (body.getD 34 0).toNat
  let suite := ofBeBytes (slice body (35 + sidLen) 2)
  if body.length < 35 then
    .error (.protocol "truncated ServerHello")
  else if random = HRR_RANDOM then
    .error (.unsupported
      "server sent HelloRetryRequest (this client offers a single X25519 key share)")
  else if random.drop 24 = DOWNGRADE_TLS12 then
    .error (.unsupported "server signals a TLS 1.2 downgrade; refusing TLS 1.2")
  else if body.length < 35 + sidLen + 3 then
    .error (.protocol "truncated ServerHello")
  else if !isSupportedSuite suite then
    .error (.unsupported ("server selected unsupported cipher suite 0x" ++ hex4 suite))
  else if body.getD (37 + sidLen) 0 ≠ 0 then
    .error (.protocol "server selected a compression method")
  else do
    let keyShare ← parseKeyShare (← parseExtensions (body.drop (38 + sidLen)))
    return ⟨slice body 35 sidLen, suite, keyShare⟩

/-- The extensions of a certificate entry; a few bytes at the end may be left. -/
def checkEntryExtensions : (bound : Nat) → List Byte → Except Tls13Error Unit
  | 0, _ => .ok ()
  | bound + 1, extensions =>
      let length := ofBeBytes (slice extensions 2 2)
      if extensions.length < 4 then
        .ok ()
      else if extensions.length < 4 + length then
        .error (.protocol "truncated certificate entry extension")
      else if ofBeBytes (slice extensions 0 2) = CERT_EXT_COMPRESSED_CERTIFICATE then
        .error (.protocol
          "server compressed a certificate although compress_certificate was not offered")
      else
        checkEntryExtensions bound (extensions.drop (4 + length))

/-- The entries, one by one. -/
def parseCertificateEntries : (bound : Nat) → List Byte →
    Except Tls13Error (List (List Byte))
  | 0, _ => .ok []
  | bound + 1, data =>
      if data.isEmpty then
        .ok []
      else if data.length < 3 then
        .error (.protocol "truncated certificate entry")
      else
        let certLen := ofBeBytes (slice data 0 3)
        let rest := data.drop 3
        if rest.length < certLen then
          .error (.protocol "truncated certificate data")
        else
          let behind := rest.drop certLen
          let extLen := ofBeBytes (slice behind 0 2)
          if behind.length < 2 then
            .error (.protocol "truncated certificate extensions")
          else if behind.length - 2 < extLen then
            .error (.protocol "truncated certificate extensions")
          else do
            checkEntryExtensions extLen (slice behind 2 extLen)
            let later ← parseCertificateEntries bound (behind.drop (2 + extLen))
            return rest.take certLen :: later

/-- The chain of a Certificate message, the leaf first. -/
def parseCertificateMessage : List Byte → Except Tls13Error (List (List Byte))
  | [] => .error (.protocol "truncated Certificate")
  | contextLen :: rest =>
      let listLen := ofBeBytes (slice rest 0 3)
      if rest.length < contextLen.toNat then
        .error (.protocol "truncated Certificate")
      else if contextLen ≠ 0 then
        .error (.protocol "server CertificateRequest context must be empty")
      else if rest.length < 3 then
        .error (.protocol "truncated Certificate")
      else if rest.length - 3 < listLen then
        .error (.protocol "truncated Certificate")
      else do
        match ← parseCertificateEntries listLen (slice rest 3 listLen) with
        | [] => .error (.protocol "empty certificate chain")
        | leaf :: others => return leaf :: others

/-- The scheme and the signature of a CertificateVerify message. -/
def parseCertificateVerify (body : List Byte) : Except Tls13Error (Nat × List Byte) :=
  let sigLen := ofBeBytes (slice body 2 2)
  if body.length < 4 then
    .error (.protocol "truncated CertificateVerify")
  else if body.length < 4 + sigLen then
    .error (.protocol "truncated CertificateVerify signature")
  else
    .ok (ofBeBytes (slice body 0 2), slice body 4 sigLen)

/-- What a CertificateVerify signs: 64 spaces, the role and a zero byte, then the
hash of the transcript. -/
def certVerifyContent (transcriptHash : List Byte) (client : Bool) : List Byte :=
  List.replicate 64 0x20 ++
    ascii (if client then "TLS 1.3, client CertificateVerify"
      else "TLS 1.3, server CertificateVerify") ++
    [0] ++ transcriptHash

end Corduit.Protocol.Tls13
