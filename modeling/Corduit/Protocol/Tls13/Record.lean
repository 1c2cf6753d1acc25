import Corduit.Crypto.Aead
import Corduit.Protocol.Tls13.Core

/-!
# TLS 1.3: the key schedule

Secrets and message authentication codes come from the hash of the cipher
suite.  What the primitives compute is left open; the labels, the lengths and
what is hashed are the program's.
-/

namespace Corduit.Protocol.Tls13

open Crypto Word

/-- The hash of a cipher suite. -/
inductive SuiteHash where
  | sha256
  | sha384
  deriving DecidableEq, Repr

namespace SuiteHash

/-- The hash of a suite. -/
def forSuite (suite : Nat) : SuiteHash :=
  if suite = SUITE_AES_256 then .sha384 else .sha256

/-- The length of a digest. -/
def len : SuiteHash → Nat
  | sha256 => 32
  | sha384 => 48

end SuiteHash

/-- The key length of a suite. -/
def suiteKeyLen (suite : Nat) : Nat :=
  if suite = SUITE_AES_128 then 16 else 32

/-- The parts of a browser's parameters that the driver reads. -/
structure TlsProfile where
  signatureAlgorithms : List Nat
  deriving DecidableEq

/-- The primitives, the checks of certificates, whose parsed form has the type
`ξ`, and the standard library's table of printable characters. -/
structure Primitives (ξ : Type) where
  hash : SuiteHash → List Byte → List Byte
  hmac : SuiteHash → (key data : List Byte) → List Byte
  x25519 : (privateKey publicKey : List Byte) → List Byte
  x25519PublicKey : (privateKey : List Byte) → List Byte
  encrypt : (suite : Nat) → (key nonce plaintext aad : List Byte) →
    Except AeadError (List Byte)
  decrypt : (suite : Nat) → (key nonce ciphertext aad : List Byte) →
    Except AeadError (List Byte)
  parseCertificate : (der : List Byte) → Except String ξ
  validateChain : (roots : List ξ) → (chain : List (List Byte)) → (now : Int) →
    Except String Unit
  hostnameMatches : (serverName : String) → ξ → Bool
  verifySignature : ξ → (scheme : Nat) → (content signature : List Byte) → Bool
  chromeTlsProfile : TlsProfile
  printable : Char → Bool

namespace Primitives

variable {ξ : Type} (primitives : Primitives ξ)

/-- The blocks of HKDF-Expand from `counter` on. -/
def hkdfBlocks (hash : SuiteHash) (prk info : List Byte) : (blocks : Nat) → (counter : Nat) →
    (previous : List Byte) → List Byte
  | 0, _, _ => []
  | blocks + 1, counter, previous =>
      let block := primitives.hmac hash prk (previous ++ info ++ [BitVec.ofNat 8 counter])
      block ++ hkdfBlocks hash prk info blocks (counter + 1) block

/-- HKDF-Expand. -/
def hkdfExpand (hash : SuiteHash) (prk info : List Byte) (length : Nat) : List Byte :=
  (primitives.hkdfBlocks hash prk info ((length + hash.len - 1) / hash.len) 1 []).take length

/-- HKDF-Expand-Label. -/
def expandLabel (hash : SuiteHash) (secret label context : List Byte) (length : Nat) : List Byte :=
  let info := toBeBytes 2 (BitVec.ofNat 16 length) ++ [BitVec.ofNat 8 (6 + label.length)] ++
    ascii "tls13 " ++ label ++ [BitVec.ofNat 8 context.length] ++ context
  primitives.hkdfExpand hash secret info length

/-- Derive-Secret. -/
def deriveSecret (hash : SuiteHash) (secret label messagesHash : List Byte) : List Byte :=
  primitives.expandLabel hash secret label messagesHash hash.len

/-- The key of a Finished. -/
def finishedKey (hash : SuiteHash) (baseSecret : List Byte) : List Byte :=
  primitives.expandLabel hash baseSecret (ascii "finished") [] hash.len

end Primitives

/-- The key of one direction for one of the suites. -/
structure TrafficKey where
  suite : Nat
  key : List Byte
  deriving DecidableEq

/-- The key and the IV of a secret. -/
def TrafficKey.derive {ξ : Type} (primitives : Primitives ξ) (suite : Nat) (hash : SuiteHash)
    (secret : List Byte) : Except Tls13Error (TrafficKey × Octets 12) :=
  if isSupportedSuite suite then
    .ok (⟨suite, primitives.expandLabel hash secret (ascii "key") [] (suiteKeyLen suite)⟩,
      .written 12 (primitives.expandLabel hash secret (ascii "iv") [] 12))
  else
    .error (.unsupported ("no traffic keys for cipher suite 0x" ++ hex4 suite))

namespace TrafficKey

variable {ξ : Type} (primitives : Primitives ξ)

/-- Seal with the key. -/
def «seal» (key : TrafficKey) (nonce aad plaintext : List Byte) : Except Tls13Error (List Byte) :=
  match primitives.encrypt key.suite key.key nonce plaintext aad with
  | .ok out => .ok out
  | .error error => .error (.protocol ("record encryption failed: " ++ error.display))

/-- Open with the key. -/
def «open» (key : TrafficKey) (nonce aad ct : List Byte) : Except Tls13Error (List Byte) :=
  match primitives.decrypt key.suite key.key nonce ct aad with
  | .ok out => .ok out
  | .error _ =>
      .error (.protocol "record decryption failed (bad tag or truncated record)")

end TrafficKey

/-- The secrets of the handshake. -/
structure HandshakeSecrets where
  hash : SuiteHash
  clientHsTraffic : List Byte
  serverHsTraffic : List Byte
  handshakeSecret : List Byte
  deriving DecidableEq

/-- The secrets of the application. -/
structure AppSecrets where
  clientAppTraffic : List Byte
  serverAppTraffic : List Byte
  deriving DecidableEq

namespace HandshakeSecrets

variable {ξ : Type} (primitives : Primitives ξ)

/-- The schedule up to the handshake traffic secrets. -/
def new (suite : Nat) (ecdhe transcriptHash : List Byte) : HandshakeSecrets :=
  let hash := SuiteHash.forSuite suite
  let zeros := List.replicate hash.len 0
  let earlySecret := primitives.hmac hash zeros zeros
  let derived := primitives.deriveSecret hash earlySecret (ascii "derived")
    (primitives.hash hash [])
  let handshakeSecret := primitives.hmac hash derived ecdhe
  { hash := hash
    clientHsTraffic :=
      primitives.deriveSecret hash handshakeSecret (ascii "c hs traffic") transcriptHash
    serverHsTraffic :=
      primitives.deriveSecret hash handshakeSecret (ascii "s hs traffic") transcriptHash
    handshakeSecret := handshakeSecret }

/-- The rest of the schedule, behind the Finished of the server. -/
def application (secrets : HandshakeSecrets) (transcriptHash : List Byte) : AppSecrets :=
  let hash := secrets.hash
  let derived := primitives.deriveSecret hash secrets.handshakeSecret (ascii "derived")
    (primitives.hash hash [])
  let masterSecret := primitives.hmac hash derived (List.replicate hash.len 0)
  { clientAppTraffic :=
      primitives.deriveSecret hash masterSecret (ascii "c ap traffic") transcriptHash
    serverAppTraffic :=
      primitives.deriveSecret hash masterSecret (ascii "s ap traffic") transcriptHash }

/-- The code of a Finished message under a traffic secret. -/
def finished (secrets : HandshakeSecrets) (traffic transcript : List Byte) : List Byte :=
  primitives.hmac secrets.hash (primitives.finishedKey secrets.hash traffic)
    (primitives.hash secrets.hash transcript)

end HandshakeSecrets

/-!
# TLS 1.3: record protection

Each direction numbers its records; the number and the IV make the nonce, and
the header of the record is the associated data.  A new key starts again at
zero.
-/

/-- One direction's record protection state. -/
structure RecordProtector where
  key : TrafficKey
  iv : Octets 12
  seq : BitVec 64 := 0
  deriving DecidableEq

/-- The header of a protected record. -/
def recordHeader (length : Nat) : List Byte :=
  [CONTENT_APPLICATION_DATA, 3, 3] ++ toBeBytes 2 (BitVec.ofNat 16 length)

/-- The content types that a record may carry. -/
def IsContent (contentType : Byte) : Prop :=
  contentType = CONTENT_CHANGE_CIPHER_SPEC ∨ contentType = CONTENT_ALERT ∨
    contentType = CONTENT_HANDSHAKE ∨ contentType = CONTENT_APPLICATION_DATA

instance (contentType : Byte) : Decidable (IsContent contentType) :=
  inferInstanceAs (Decidable (_ ∨ _))

namespace RecordProtector

variable {ξ : Type} (primitives : Primitives ξ)

/-- Replace the key material; the sequence starts again. -/
def rekey (_ : RecordProtector) (key : TrafficKey) (iv : Octets 12) : RecordProtector :=
  { key := key, iv := iv, seq := 0 }

/-- The IV and the number of the record in its last eight bytes. -/
def nonce (protector : RecordProtector) : List Byte :=
  protector.iv.bytes.zipWith (· ^^^ ·) ([0, 0, 0, 0] ++ toBeBytes 8 protector.seq)

theorem length_nonce (protector : RecordProtector) : protector.nonce.length = 12 := by
  simp [nonce]

/-- The next record has the next number. -/
def advance (protector : RecordProtector) : RecordProtector :=
  { protector with seq := protector.seq + 1 }

/-- Protect `payload` as a record of some content type. -/
def «seal» (protector : RecordProtector) (contentType : Byte) (payload : List Byte) :
    Except Tls13Error (List Byte) × RecordProtector :=
  if MAX_PLAINTEXT < payload.length then
    (.error (.protocol "plaintext exceeds the record limit"), protector)
  else
    let inner := payload ++ [contentType]
    let aad := recordHeader (inner.length + TAG_LEN)
    if 2 ^ 16 ≤ inner.length + TAG_LEN then
      (.error (.protocol "record too large to encode"), protector)
    else
      match protector.key.seal primitives protector.nonce aad inner with
      | .error error => (.error error, protector)
      | .ok ciphertext => (.ok (aad ++ ciphertext), protector.advance)

/-- The content type and the payload of an inner plaintext: the padding is
zeros, and the last byte before it is the type. -/
def unpad (inner : List Byte) : Except Tls13Error (Byte × List Byte) :=
  match (inner.reverse.dropWhile (· = 0)) with
  | [] => .error (.protocol "record with only zero padding")
  | contentType :: payload =>
      if IsContent contentType then
        .ok (contentType, payload.reverse)
      else
        .error (.protocol ("invalid inner content type " ++ toString contentType.toNat))

/-- Unprotect the body of a record. -/
def «open» (protector : RecordProtector) (ciphertext : List Byte) :
    Except Tls13Error (Byte × List Byte) × RecordProtector :=
  if MAX_CIPHERTEXT < ciphertext.length ∨ ciphertext.length < TAG_LEN + 1 then
    (.error (.protocol "ciphertext length out of range"), protector)
  else
    match protector.key.open primitives protector.nonce (recordHeader ciphertext.length)
        ciphertext with
    | .error error =>
        (.error (.protocol ("record authentication failed: " ++ error.display)), protector)
    | .ok inner => (unpad inner, protector.advance)

end RecordProtector

/-- What the ends of a connection rely on: a cipher opens what it sealed, and its tag
has 16 bytes. -/
structure Primitives.Opens {ξ : Type} (primitives : Primitives ξ) : Prop where
  opens : ∀ suite key nonce plaintext aad, nonce.length = 12 →
    ∃ ciphertext, primitives.encrypt suite key nonce plaintext aad = .ok ciphertext ∧
      ciphertext.length = plaintext.length + TAG_LEN ∧
      primitives.decrypt suite key nonce ciphertext aad = .ok plaintext

theorem IsContent.ne_zero {contentType : Byte} (content : IsContent contentType) :
    contentType ≠ 0 := by
  rcases content with rfl | rfl | rfl | rfl <;> decide

theorem parseRecordHeader_recordHeader {length : Nat} (short : length ≤ MAX_CIPHERTEXT)
    (rest : List Byte) :
    parseRecordHeader (recordHeader length ++ rest) = .ok (CONTENT_APPLICATION_DATA, length) := by
  have spelt : ∃ high low, toBeBytes 2 (BitVec.ofNat 16 length) = [high, low] ∧
      ofBeBytes [high, low] = length := by
    refine ⟨_, _, rfl, ?_⟩
    have small : length < 2 ^ 16 := Nat.lt_of_le_of_lt short (by decide)
    have back := ofBeBytes_toBeBytes 2 (BitVec.ofNat 16 length)
    rw [BitVec.toNat_ofNat, Nat.mod_eq_of_lt small] at back
    exact back.trans (Nat.mod_eq_of_lt small)
  rcases spelt with ⟨high, low, bytes_eq, length_eq⟩
  rw [recordHeader, bytes_eq]
  simp only [List.cons_append, List.nil_append, parseRecordHeader]
  rw [length_eq, if_neg (by decide), if_neg (Nat.not_lt.mpr short)]

namespace RecordProtector

variable {ξ : Type} {primitives : Primitives ξ}

theorem unpad_append {contentType : Byte} (content : IsContent contentType)
    (payload : List Byte) : unpad (payload ++ [contentType]) = .ok (contentType, payload) := by
  unfold unpad
  rw [List.reverse_append, List.reverse_singleton, List.singleton_append, List.dropWhile_cons,
    if_neg (by simpa using content.ne_zero)]
  dsimp only
  rw [if_pos content, List.reverse_reverse]

/-- A record that is sealed is opened by the other end, and both ends go on to the
next number. -/
theorem open_seal (opens : primitives.Opens) (protector : RecordProtector) {contentType : Byte}
    (content : IsContent contentType) {payload : List Byte}
    (short : payload.length ≤ MAX_PLAINTEXT) :
    ∃ ciphertext,
      protector.seal primitives contentType payload =
        (.ok (recordHeader ciphertext.length ++ ciphertext), protector.advance) ∧
      ciphertext.length = payload.length + 17 ∧
      protector.open primitives ciphertext = (.ok (contentType, payload), protector.advance) := by
  have most : MAX_PLAINTEXT = 16384 ∧ MAX_CIPHERTEXT = 16640 ∧ TAG_LEN = 16 := by decide
  have size : (payload ++ [contentType]).length = payload.length + 1 := by
    rw [List.length_append, List.length_singleton]
  rcases opens.opens protector.key.suite protector.key.key protector.nonce
    (payload ++ [contentType]) (recordHeader (payload.length + 17)) protector.length_nonce with
    ⟨ciphertext, encrypted, length_eq, decrypted⟩
  rw [size] at length_eq
  have length_eq : ciphertext.length = payload.length + 17 := by omega
  refine ⟨ciphertext, ?_, length_eq, ?_⟩
  · have sealed : protector.key.seal primitives protector.nonce
        (recordHeader (payload.length + 17)) (payload ++ [contentType]) = .ok ciphertext := by
      rw [TrafficKey.seal, encrypted]
    have total : (payload ++ [contentType]).length + TAG_LEN = payload.length + 17 := by omega
    unfold RecordProtector.seal
    rw [if_neg (Nat.not_lt.mpr short)]
    dsimp only
    rw [total, if_neg (by omega), sealed, length_eq]
  · have opened : protector.key.open primitives protector.nonce
        (recordHeader (payload.length + 17)) ciphertext = .ok (payload ++ [contentType]) := by
      rw [TrafficKey.open, decrypted]
    unfold RecordProtector.open
    rw [length_eq, if_neg (by omega), opened]
    dsimp only
    rw [unpad_append content]

end RecordProtector

end Corduit.Protocol.Tls13
