import Corduit.Word.Octets

/-!
# The functions under the handshake

The hash, the key derivation, the key exchange and the authenticated cipher
are a record of functions, so that a result about the handshake holds whatever
they compute.  The key derivation of the program is built from one keyed hash.
-/

namespace Corduit.Protocol.WireGuard

open Word

/-- `REJECT_AFTER_MESSAGES`. -/
def rejectAfterMessages : Nat :=
  2 ^ 64 - 1 - 2 ^ 13

/-- `CONSTRUCTION`. -/
def construction : List Byte :=
  ascii "Noise_IKpsk2_25519_ChaChaPoly_BLAKE2s"

/-- `IDENTIFIER`. -/
def identifier : List Byte :=
  ascii "WireGuard v1 zx2c4 Jason@zx2c4.com"

/-- `LABEL_MAC1`. -/
def labelMac1 : List Byte :=
  ascii "mac1----"

/-- A key, a public key, a hash or a chaining key. -/
abbrev Key :=
  Octets 32

/-- The cryptographic functions. -/
structure Primitives where
  hash : List Byte → Key
  mac : List Byte → List Byte → Octets 16
  kdf1 : Key → List Byte → Key
  kdf2 : Key → List Byte → Key × Key
  kdf3 : Key → List Byte → Key × Key × Key
  dh : Key → Key → Key
  publicKey : Key → Key
  aeadEncrypt : Key → Nat → List Byte → List Byte → List Byte
  aeadDecrypt : Key → Nat → List Byte → List Byte → Option (List Byte)

namespace Primitives

/-- Deciphering gives back what was enciphered, and the cipher adds a tag of 16
bytes. -/
structure Opens (primitives : Primitives) : Prop where
  decrypt_encrypt : ∀ key counter plaintext aad,
    primitives.aeadDecrypt key counter (primitives.aeadEncrypt key counter plaintext aad) aad =
      some plaintext
  length_encrypt : ∀ key counter plaintext aad,
    (primitives.aeadEncrypt key counter plaintext aad).length = plaintext.length + 16

/-- The two ends of a key exchange compute the same secret. -/
def DhCommutes (primitives : Primitives) : Prop :=
  ∀ first second, primitives.dh first (primitives.publicKey second) =
    primitives.dh second (primitives.publicKey first)

end Primitives

section Kdf

variable (hmac : List Byte → List Byte → Key)

/-- `kdf1`. -/
def hmacKdf1 (key : Key) (input : List Byte) : Key :=
  let prk := hmac key.bytes input
  hmac prk.bytes [1]

/-- `kdf2`. -/
def hmacKdf2 (key : Key) (input : List Byte) : Key × Key :=
  let prk := hmac key.bytes input
  let t0 := hmac prk.bytes [1]
  let t1 := hmac prk.bytes (t0.bytes ++ [2])
  (t0, t1)

/-- `kdf3`. -/
def hmacKdf3 (key : Key) (input : List Byte) : Key × Key × Key :=
  let prk := hmac key.bytes input
  let t0 := hmac prk.bytes [1]
  let t1 := hmac prk.bytes (t0.bytes ++ [2])
  let t2 := hmac prk.bytes (t1.bytes ++ [3])
  (t0, t1, t2)

/-- The key derivation of the program. -/
def Primitives.withHmac (primitives : Primitives) : Primitives :=
  { primitives with kdf1 := hmacKdf1 hmac, kdf2 := hmacKdf2 hmac, kdf3 := hmacKdf3 hmac }

end Kdf

/-- A private key with its public key. -/
structure KeyPair (primitives : Primitives) where
  privateKey : Key
  publicKey : Key
  agree : publicKey = primitives.publicKey privateKey

/-- `generate_keypair` around the secret that it draws. -/
def generateKeypair (primitives : Primitives) (secret : Key) : KeyPair primitives :=
  ⟨secret, primitives.publicKey secret, rfl⟩

/-- `WireGuardError`, the cases that are raised here. -/
inductive WireGuardError where
  | crypto (message : String)
  | handshake (message : String)
  | decryptionFailed
  | invalidPacket
  | replayDetected
deriving DecidableEq, Repr

/-!
# The handshake

The two messages with their byte layouts, and the four functions that make and
read them.  A panic (an array that does not fit what is copied into it) is
`none`; an error leaves the state as far as it was changed when it was raised.
The ephemeral key, the local index and the time are drawn outside.
-/

/-- `MSG_TYPE_HANDSHAKE_INIT`. -/
def msgTypeHandshakeInit : Byte := 1

/-- `MSG_TYPE_HANDSHAKE_RESP`. -/
def msgTypeHandshakeResp : Byte := 2

/-- `MSG_TYPE_TRANSPORT`. -/
def msgTypeTransport : Byte := 4

/-- The first message. -/
structure HandshakeInitiation where
  senderIndex : BitVec 32
  ephemeralPublic : Key
  encryptedStatic : Octets 48
  encryptedTimestamp : Octets 28
  mac1 : Octets 16
  mac2 : Octets 16
deriving DecidableEq

/-- The second message. -/
structure HandshakeResponse where
  senderIndex : BitVec 32
  receiverIndex : BitVec 32
  ephemeralPublic : Key
  encryptedNothing : Octets 16
  mac1 : Octets 16
  mac2 : Octets 16
deriving DecidableEq

/-- What a completed handshake hands over. -/
structure TransportKeys where
  sendKey : Key
  recvKey : Key
  sendIndex : BitVec 32
  recvIndex : BitVec 32
deriving DecidableEq

/-- One side of a handshake. -/
structure HandshakeState where
  hash : Key
  chainingKey : Key
  ephemeralPrivate : Key
  ephemeralPublic : Key
  staticPrivate : Key
  staticPublic : Key
  remoteStatic : Key
  remoteEphemeral : Option Key
  presharedKey : Option Key
  localIndex : BitVec 32
  remoteIndex : Option (BitVec 32)
deriving DecidableEq

namespace HandshakeInitiation

/-- What the first message authenticates with its MAC. -/
def msgForMac (senderIndex : BitVec 32) (ephemeralPublic : Key)
    (encryptedStatic encryptedTimestamp : List Byte) : List Byte :=
  [msgTypeHandshakeInit] ++ List.replicate 3 0 ++ toLeBytes 4 senderIndex ++
    ephemeralPublic.bytes ++ encryptedStatic ++ encryptedTimestamp

/-- The message as it is written. -/
def toBytes (message : HandshakeInitiation) : List Byte :=
  [msgTypeHandshakeInit] ++ List.replicate 3 0 ++ toLeBytes 4 message.senderIndex ++
    message.ephemeralPublic.bytes ++ message.encryptedStatic.bytes ++
    message.encryptedTimestamp.bytes ++ message.mac1.bytes ++ message.mac2.bytes

/-- The message in some bytes. -/
def fromBytes (data : List Byte) : Except WireGuardError HandshakeInitiation :=
  if long : 148 ≤ data.length then
    if data[0]? != some msgTypeHandshakeInit then
      .error (.handshake "Invalid message type")
    else
      .ok {
        senderIndex := BitVec.ofNat 32 (ofLeBytes (slice data 4 4))
        ephemeralPublic := .field data 8 32 (by omega)
        encryptedStatic := .field data 40 48 (by omega)
        encryptedTimestamp := .field data 88 28 (by omega)
        mac1 := .field data 116 16 (by omega)
        mac2 := .field data 132 16 (by omega) }
  else
    .error (.handshake "Initiation message too short")

/-- What is written is read back. -/
theorem fromBytes_toBytes (message : HandshakeInitiation) :
    fromBytes message.toBytes = .ok message := by
  have long : 148 ≤ message.toBytes.length := by simp [toBytes]
  have first : message.toBytes[0]? = some msgTypeHandshakeInit := by simp [toBytes]
  rw [fromBytes, dif_pos long, if_neg (by simp [first])]
  cases message with
  | mk senderIndex ephemeralPublic encryptedStatic encryptedTimestamp mac1 mac2 =>
      simp only [Except.ok.injEq, HandshakeInitiation.mk.injEq, Octets.field_eq_iff, toBytes,
        List.append_assoc]
      simp (disch := simp) only [slice_skip, slice_here, Octets.slice_bytes, Octets.length_bytes,
        length_toLeBytes, List.length_cons, List.length_nil, List.length_replicate,
        Nat.reduceSub, Nat.reduceAdd, Nat.sub_self, and_true]
      exact ofNat_ofLeBytes senderIndex (by decide)

end HandshakeInitiation

namespace HandshakeResponse

/-- What the second message authenticates with its MAC. -/
def msgForMac (senderIndex receiverIndex : BitVec 32) (ephemeralPublic : Key)
    (encryptedNothing : List Byte) : List Byte :=
  [msgTypeHandshakeResp] ++ List.replicate 3 0 ++ toLeBytes 4 senderIndex ++
    toLeBytes 4 receiverIndex ++ ephemeralPublic.bytes ++ encryptedNothing

/-- The message as it is written. -/
def toBytes (message : HandshakeResponse) : List Byte :=
  [msgTypeHandshakeResp] ++ List.replicate 3 0 ++ toLeBytes 4 message.senderIndex ++
    toLeBytes 4 message.receiverIndex ++ message.ephemeralPublic.bytes ++
    message.encryptedNothing.bytes ++ message.mac1.bytes ++ message.mac2.bytes

/-- The message in some bytes. -/
def fromBytes (data : List Byte) : Except WireGuardError HandshakeResponse :=
  if long : 92 ≤ data.length then
    if data[0]? != some msgTypeHandshakeResp then
      .error (.handshake "Invalid message type")
    else
      .ok {
        senderIndex := BitVec.ofNat 32 (ofLeBytes (slice data 4 4))
        receiverIndex := BitVec.ofNat 32 (ofLeBytes (slice data 8 4))
        ephemeralPublic := .field data 12 32 (by omega)
        encryptedNothing := .field data 44 16 (by omega)
        mac1 := .field data 60 16 (by omega)
        mac2 := .field data 76 16 (by omega) }
  else
    .error (.handshake "Response message too short")

/-- What is written is read back. -/
theorem fromBytes_toBytes (message : HandshakeResponse) :
    fromBytes message.toBytes = .ok message := by
  have long : 92 ≤ message.toBytes.length := by simp [toBytes]
  have first : message.toBytes[0]? = some msgTypeHandshakeResp := by simp [toBytes]
  rw [fromBytes, dif_pos long, if_neg (by simp [first])]
  cases message with
  | mk senderIndex receiverIndex ephemeralPublic encryptedNothing mac1 mac2 =>
      simp only [Except.ok.injEq, HandshakeResponse.mk.injEq, Octets.field_eq_iff, toBytes,
        List.append_assoc]
      simp (disch := simp) only [slice_skip, slice_here, Octets.slice_bytes, Octets.length_bytes,
        length_toLeBytes, List.length_cons, List.length_nil, List.length_replicate,
        Nat.reduceSub, Nat.reduceAdd, Nat.sub_self, and_true]
      exact ⟨ofNat_ofLeBytes senderIndex (by decide), ofNat_ofLeBytes receiverIndex (by decide)⟩

end HandshakeResponse

namespace HandshakeState

section Steps

variable (primitives : Primitives)

/-- `HandshakeState::new_initiator`, with the ephemeral key pair and the index
that it draws. -/
def newInitiator (staticPrivate staticPublic remoteStatic : Key) (presharedKey : Option Key)
    (ephemeral : KeyPair primitives) (localIndex : BitVec 32) : HandshakeState :=
  let initialHash := primitives.hash construction
  let hashVal := primitives.hash (initialHash.bytes ++ identifier)
  let hashVal := primitives.hash (hashVal.bytes ++ remoteStatic.bytes)
  { hash := hashVal
    chainingKey := initialHash
    ephemeralPrivate := ephemeral.privateKey
    ephemeralPublic := ephemeral.publicKey
    staticPrivate
    staticPublic
    remoteStatic
    remoteEphemeral := none
    presharedKey
    localIndex
    remoteIndex := none }

/-- The responder's state. -/
def newResponder (staticPrivate staticPublic : Key) (presharedKey : Option Key)
    (ephemeral : KeyPair primitives) (localIndex : BitVec 32) : HandshakeState :=
  let initialHash := primitives.hash construction
  let hashVal := primitives.hash (initialHash.bytes ++ identifier)
  let hashVal := primitives.hash (hashVal.bytes ++ staticPublic.bytes)
  { hash := hashVal
    chainingKey := initialHash
    ephemeralPrivate := ephemeral.privateKey
    ephemeralPublic := ephemeral.publicKey
    staticPrivate
    staticPublic
    remoteStatic := .filled 32 0
    remoteEphemeral := none
    presharedKey
    localIndex
    remoteIndex := none }

/-- Mix into the hash. -/
def mixHash (state : HandshakeState) (data : List Byte) : HandshakeState :=
  { state with hash := primitives.hash (state.hash.bytes ++ data) }

/-- Mix into the chaining key. -/
def mixKey (state : HandshakeState) (input : Key) : HandshakeState :=
  { state with chainingKey := primitives.kdf1 state.chainingKey input.bytes }

/-- Mix into both, with a key. -/
def mixKeyAndHash (state : HandshakeState) (input : Key) : HandshakeState × Key :=
  let (ck, tempH, key) := primitives.kdf3 state.chainingKey input.bytes
  let state := { state with chainingKey := ck }
  (state.mixHash primitives tempH.bytes, key)

/-- `kdf2` over the chaining key, which becomes its first output. -/
def mixKeyForCipher (state : HandshakeState) (input : Key) : HandshakeState × Key :=
  let (ck, key) := primitives.kdf2 state.chainingKey input.bytes
  ({ state with chainingKey := ck }, key)

/-- What `create_initiation` mixes and enciphers: the state it ends in, the two
ciphertexts and their keys. -/
structure InitiationTrace where
  key : Key
  encryptedStatic : List Byte
  key2 : Key
  encryptedTimestamp : List Byte
  state : HandshakeState

/-- The mixing of `create_initiation`. -/
def mixInitiation (state : HandshakeState) (timestamp : Octets 12) : InitiationTrace :=
  let state := state.mixHash primitives state.ephemeralPublic.bytes
  let dhResult := primitives.dh state.ephemeralPrivate state.remoteStatic
  let state := state.mixKey primitives dhResult
  let (state, key) := state.mixKeyForCipher primitives dhResult
  let encryptedStatic := primitives.aeadEncrypt key 0 state.staticPublic.bytes state.hash.bytes
  let state := state.mixHash primitives encryptedStatic
  let dhResult2 := primitives.dh state.staticPrivate state.remoteStatic
  let (state, key2) := state.mixKeyForCipher primitives dhResult2
  let encryptedTimestamp := primitives.aeadEncrypt key2 0 timestamp.bytes state.hash.bytes
  let state := state.mixHash primitives encryptedTimestamp
  { key, encryptedStatic, key2, encryptedTimestamp, state }

/-- `HandshakeState::create_initiation` at the time `timestamp`. -/
def createInitiation (state : HandshakeState) (timestamp : Octets 12) :
    Option (HandshakeInitiation × HandshakeState) := do
  let trace := state.mixInitiation primitives timestamp
  let state := trace.state
  let mac1Key := primitives.hash (labelMac1 ++ state.remoteStatic.bytes)
  let mac1 := primitives.mac mac1Key.bytes (HandshakeInitiation.msgForMac state.localIndex
    state.ephemeralPublic trace.encryptedStatic trace.encryptedTimestamp)
  let encryptedStaticArr ← Octets.copyFrom 48 trace.encryptedStatic
  let encryptedTimestampArr ← Octets.copyFrom 28 trace.encryptedTimestamp
  return ({
    senderIndex := state.localIndex
    ephemeralPublic := state.ephemeralPublic
    encryptedStatic := encryptedStaticArr
    encryptedTimestamp := encryptedTimestampArr
    mac1
    mac2 := .filled 16 0 }, state)

/-- The key that stands for the preshared key when there is none. -/
def psk (state : HandshakeState) : Key :=
  state.presharedKey.getD (.filled 32 0)

/-- The mixing of `consume_response` up to the key of its ciphertext. -/
def mixResponse (state : HandshakeState) (response : HandshakeResponse) : HandshakeState × Key :=
  let state := { state with
    remoteIndex := some response.senderIndex
    remoteEphemeral := some response.ephemeralPublic }
  let state := state.mixHash primitives response.ephemeralPublic.bytes
  let dh1 := primitives.dh state.ephemeralPrivate response.ephemeralPublic
  let state := state.mixKey primitives dh1
  let dh2 := primitives.dh state.staticPrivate response.ephemeralPublic
  let state := state.mixKey primitives dh2
  state.mixKeyAndHash primitives state.psk

/-- What the initiator does with a response. -/
def consumeResponse (state : HandshakeState) (response : HandshakeResponse) :
    Except WireGuardError TransportKeys × HandshakeState :=
  if response.receiverIndex ≠ state.localIndex then
    (.error (.handshake "Invalid receiver index"), state)
  else
    let (state, key) := state.mixResponse primitives response
    match primitives.aeadDecrypt key 0 response.encryptedNothing.bytes state.hash.bytes with
    | none => (.error (.handshake "Failed to decrypt response"), state)
    | some decrypted =>
        if !decrypted.isEmpty then
          (.error (.handshake "Invalid response payload"), state)
        else
          let state := state.mixHash primitives response.encryptedNothing.bytes
          let (sendKey, recvKey) := primitives.kdf2 state.chainingKey []
          (.ok {
            sendKey
            recvKey
            sendIndex := state.localIndex
            recvIndex := response.senderIndex }, state)

/-- What the responder does with an initiation. -/
def processInitiation (state : HandshakeState) (init : HandshakeInitiation) :
    Except WireGuardError Key × HandshakeState :=
  let mac1Key := primitives.hash (labelMac1 ++ state.staticPublic.bytes)
  let expectedMac1 := primitives.mac mac1Key.bytes (HandshakeInitiation.msgForMac
    init.senderIndex init.ephemeralPublic init.encryptedStatic.bytes init.encryptedTimestamp.bytes)
  if expectedMac1 ≠ init.mac1 then
    (.error (.handshake "Invalid MAC1"), state)
  else
    let state := { state with
      remoteIndex := some init.senderIndex
      remoteEphemeral := some init.ephemeralPublic }
    let state := state.mixHash primitives init.ephemeralPublic.bytes
    let dhResult := primitives.dh state.staticPrivate init.ephemeralPublic
    let state := state.mixKey primitives dhResult
    let (state, key) := state.mixKeyForCipher primitives dhResult
    match primitives.aeadDecrypt key 0 init.encryptedStatic.bytes state.hash.bytes with
    | none => (.error (.handshake "Failed to decrypt static key"), state)
    | some decryptedStatic =>
        match Octets.copyFrom 32 decryptedStatic with
        | none => (.error (.handshake "Invalid static key length"), state)
        | some remoteStatic =>
            let state := { state with remoteStatic }
            let state := state.mixHash primitives init.encryptedStatic.bytes
            let dhResult2 := primitives.dh state.staticPrivate remoteStatic
            let (state, key2) := state.mixKeyForCipher primitives dhResult2
            match primitives.aeadDecrypt key2 0 init.encryptedTimestamp.bytes
                state.hash.bytes with
            | none => (.error (.handshake "Failed to decrypt timestamp"), state)
            | some _ => (.ok remoteStatic,
                state.mixHash primitives init.encryptedTimestamp.bytes)

/-- The response and the responder's keys. -/
def createResponse (state : HandshakeState) :
    Option (Except WireGuardError (HandshakeResponse × TransportKeys) × HandshakeState) :=
  match state.remoteEphemeral with
  | none => some (.error (.handshake "No remote ephemeral key"), state)
  | some remoteEphemeral =>
      match state.remoteIndex with
      | none => some (.error (.handshake "No remote index"), state)
      | some remoteIndex => do
          let state := state.mixHash primitives state.ephemeralPublic.bytes
          let dh1 := primitives.dh state.ephemeralPrivate remoteEphemeral
          let state := state.mixKey primitives dh1
          let dh2 := primitives.dh state.ephemeralPrivate state.remoteStatic
          let state := state.mixKey primitives dh2
          let (state, key) := state.mixKeyAndHash primitives state.psk
          let encryptedNothing := primitives.aeadEncrypt key 0 [] state.hash.bytes
          let state := state.mixHash primitives encryptedNothing
          let mac1Key := primitives.hash (labelMac1 ++ state.remoteStatic.bytes)
          let mac1 := primitives.mac mac1Key.bytes (HandshakeResponse.msgForMac state.localIndex
            remoteIndex state.ephemeralPublic encryptedNothing)
          let encryptedNothingArr ← Octets.copyFrom 16 encryptedNothing
          let (recvKey, sendKey) := primitives.kdf2 state.chainingKey []
          return (.ok ({
              senderIndex := state.localIndex
              receiverIndex := remoteIndex
              ephemeralPublic := state.ephemeralPublic
              encryptedNothing := encryptedNothingArr
              mac1
              mac2 := .filled 16 0 },
            { sendKey, recvKey, sendIndex := state.localIndex, recvIndex := remoteIndex }), state)

end Steps

end HandshakeState

end Corduit.Protocol.WireGuard
