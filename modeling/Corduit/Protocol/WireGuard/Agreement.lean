import Corduit.Protocol.WireGuard.Session

/-!
# Key agreement

After the initiation both sides hold the same hash and chaining key, and after
the response they still do; so the keys they split off mirror each other, and
what one session enciphers the other opens.
-/

namespace Corduit.Protocol.WireGuard

open Collection Word

variable {primitives : Primitives}

namespace HandshakeState

/-- Both sides have mixed the same data in. -/
structure InStep (initiator responder : HandshakeState) : Prop where
  hash : initiator.hash = responder.hash
  chainingKey : initiator.chainingKey = responder.chainingKey

variable (opens : primitives.Opens) (initiator responder : HandshakeState)
  (inStep : InStep initiator responder)

include opens inStep

/-- The responder reads the initiation, learns the initiator's static key, and
the sides are in step again. -/
theorem processInitiation_createInitiation (known : initiator.remoteStatic = responder.staticPublic)
    (ephemeralStatic : primitives.dh responder.staticPrivate initiator.ephemeralPublic =
      primitives.dh initiator.ephemeralPrivate initiator.remoteStatic)
    (staticStatic : primitives.dh responder.staticPrivate initiator.staticPublic =
      primitives.dh initiator.staticPrivate initiator.remoteStatic)
    (timestamp : Octets 12) :
    ∃ init hash chainingKey,
      initiator.createInitiation primitives timestamp =
          some (init, { initiator with hash, chainingKey }) ∧
        responder.processInitiation primitives init =
          (.ok initiator.staticPublic, { responder with
            hash, chainingKey
            remoteStatic := initiator.staticPublic
            remoteEphemeral := some initiator.ephemeralPublic
            remoteIndex := some initiator.localIndex }) := by
  have staticFits : ∀ key counter aad,
      (primitives.aeadEncrypt key counter initiator.staticPublic.bytes aad).length = 48 := by
    simp [opens.length_encrypt]
  have timestampFits : ∀ key counter aad,
      (primitives.aeadEncrypt key counter timestamp.bytes aad).length = 28 := by
    simp [opens.length_encrypt]
  simp only [createInitiation, mixInitiation, mixHash, mixKey, mixKeyForCipher,
    Octets.copyFrom_of_length (staticFits _ _ _), Octets.copyFrom_of_length (timestampFits _ _ _),
    Option.bind_eq_bind, Option.bind_some]
  refine ⟨_, _, _, rfl, ?_⟩
  simp [processInitiation, mixHash, mixKey, mixKeyForCipher, known, ephemeralStatic,
    staticStatic, ← inStep.hash, ← inStep.chainingKey, opens.decrypt_encrypt]

/-- The initiator reads the response, the keys of the two sides mirror each
other, and their indices are crossed. -/
theorem consumeResponse_createResponse (shared : initiator.presharedKey = responder.presharedKey)
    (initiation : responder.remoteEphemeral = some initiator.ephemeralPublic)
    (index : responder.remoteIndex = some initiator.localIndex)
    (ephemeralEphemeral : primitives.dh responder.ephemeralPrivate initiator.ephemeralPublic =
      primitives.dh initiator.ephemeralPrivate responder.ephemeralPublic)
    (staticEphemeral : primitives.dh responder.ephemeralPrivate responder.remoteStatic =
      primitives.dh initiator.staticPrivate responder.ephemeralPublic) :
    ∃ response sendKey recvKey responder',
      responder.createResponse primitives = some (.ok (response, {
          sendKey := recvKey
          recvKey := sendKey
          sendIndex := responder.localIndex
          recvIndex := initiator.localIndex }), responder') ∧
        (initiator.consumeResponse primitives response).1 = .ok {
          sendKey, recvKey
          sendIndex := initiator.localIndex
          recvIndex := responder.localIndex } := by
  have nothingFits : ∀ key counter aad,
      (primitives.aeadEncrypt key counter [] aad).length = 16 := by
    simp [opens.length_encrypt]
  simp only [createResponse, initiation, index, mixHash, mixKey, mixKeyAndHash,
    Octets.copyFrom_of_length (nothingFits _ _ _), Option.bind_eq_bind, Option.bind_some]
  refine ⟨_, _, _, _, rfl, ?_⟩
  simp [consumeResponse, mixResponse, mixHash, mixKey, mixKeyAndHash, psk, shared, ephemeralEphemeral,
    staticEphemeral, inStep.hash, inStep.chainingKey, opens.decrypt_encrypt]

end HandshakeState

namespace WireguardSession

/-- The keys under which `receiving` opens what `sending` enciphers. -/
structure Mirrors (receiving sending : TransportKeys) : Prop where
  key : receiving.recvKey = sending.sendKey
  index : receiving.sendIndex = sending.recvIndex

variable {sender receiver : WireguardSession} {accepted : Finset Nat}

theorem decryptPacket_encryptPacket (opens : primitives.Opens)
    (mirrors : Mirrors receiver.transportKeys sender.transportKeys)
    (holds : Represents receiver.recvFilter accepted)
    (accepts : Accepts accepted sender.sendNonce.toNat) (plaintext : List Byte) :
    ∃ packet recvFilter,
      sender.encryptPacket primitives plaintext =
          (.ok packet, { sender with sendNonce := sender.sendNonce + 1 }) ∧
        receiver.decryptPacket primitives packet =
          some (.ok plaintext, { receiver with recvFilter }) ∧
        Represents recvFilter (insert sender.sendNonce.toNat accepted) := by
  rcases checkAndRecord_spec holds sender.sendNonce.toNat with ⟨recvFilter, answer, holds⟩
  rw [accept, if_pos accepts] at holds
  refine ⟨transportPacket primitives sender.transportKeys sender.sendNonce plaintext,
    recvFilter, ?_, ?_, holds⟩
  · rw [encryptPacket, if_neg (by have := accepts.1; omega)]
  · have long : ¬(transportPacket primitives sender.transportKeys sender.sendNonce
        plaintext).length < 32 := by
      simp [transportPacket, opens.length_encrypt]
      omega
    have typed : (transportPacket primitives sender.transportKeys sender.sendNonce
        plaintext)[0]? = some msgTypeTransport := by
      simp [transportPacket]
    rw [decryptPacket, if_neg long, if_neg (by simp [typed]),
      if_neg (by rw [receiverIndex_transportPacket, mirrors.index]; simp),
      packetNonce_transportPacket, drop_transportPacket, mirrors.key, opens.decrypt_encrypt]
    simp [answer, accepts]

theorem accepts_range {next : Nat} (small : next < rejectAfterMessages) :
    Accepts (Finset.range next) next := by
  have bound : ReplayWindow.highest (Finset.range next) ≤ next :=
    Finset.sup_le fun nonce member => (Finset.mem_range.mp member).le
  refine ⟨small, Finset.notMem_range_self, Or.inr ?_⟩
  unfold replayWindowSize
  omega

theorem decryptAll_encryptAll (opens : primitives.Opens) (sender receiver : WireguardSession)
    (mirrors : Mirrors receiver.transportKeys sender.transportKeys)
    (holds : Represents receiver.recvFilter (Finset.range sender.sendNonce.toNat))
    {plaintexts : List (List Byte)}
    (room : sender.sendNonce.toNat + plaintexts.length ≤ rejectAfterMessages) :
    ∃ packets receiver',
      (sender.encryptAll primitives plaintexts).1 = packets.map Except.ok ∧
        receiver.decryptAll primitives packets = some (plaintexts.map Except.ok, receiver') := by
  induction plaintexts generalizing sender receiver with
  | nil => exact ⟨[], receiver, rfl, rfl⟩
  | cons plaintext plaintexts ih =>
      rw [List.length_cons] at room
      rcases decryptPacket_encryptPacket opens mirrors holds (accepts_range (by omega))
        plaintext with ⟨packet, recvFilter, sent, received, holds⟩
      have next_eq : (sender.sendNonce + 1).toNat = sender.sendNonce.toNat + 1 := by
        unfold rejectAfterMessages at room
        rw [BitVec.toNat_add]
        exact Nat.mod_eq_of_lt (by change _ + 1 < _; omega)
      rw [← Finset.range_add_one, ← next_eq] at holds
      rcases ih { sender with sendNonce := sender.sendNonce + 1 }
        { receiver with recvFilter } mirrors holds (by
          change (sender.sendNonce + 1).toNat + plaintexts.length ≤ _
          omega) with ⟨packets, receiver', sentRest, receivedRest⟩
      refine ⟨packet :: packets, receiver', ?_, ?_⟩
      · simp only [encryptAll, sent, sentRest, List.map_cons]
      · simp [decryptAll, received, receivedRest]

/-- One side opens every packet of the other whose nonce its window accepts, and
new sessions open all that is sent in order. -/
def Carries (primitives : Primitives) (sending receiving : TransportKeys) : Prop :=
  (∀ (sender receiver : WireguardSession) (accepted : Finset Nat) (plaintext : List Byte),
    sender.transportKeys = sending → receiver.transportKeys = receiving →
    Represents receiver.recvFilter accepted → Accepts accepted sender.sendNonce.toNat →
    ∃ packet sender' receiver', sender.encryptPacket primitives plaintext = (.ok packet, sender') ∧
      receiver.decryptPacket primitives packet = some (.ok plaintext, receiver')) ∧
    ∀ plaintexts : List (List Byte), plaintexts.length ≤ rejectAfterMessages →
      ∃ packets receiver',
        ((new sending).encryptAll primitives plaintexts).1 = packets.map Except.ok ∧
          (new receiving).decryptAll primitives packets =
            some (plaintexts.map Except.ok, receiver')

theorem carries_of_mirrors (opens : primitives.Opens) {sending receiving : TransportKeys}
    (mirrors : Mirrors receiving sending) : Carries primitives sending receiving := by
  constructor
  · rintro sender receiver accepted plaintext rfl rfl holds accepts
    rcases decryptPacket_encryptPacket opens mirrors holds accepts plaintext with
      ⟨packet, recvFilter, sent, received, _⟩
    exact ⟨packet, _, _, sent, received⟩
  · intro plaintexts room
    exact decryptAll_encryptAll opens (new sending) (new receiving) mirrors
      represents_new (by simpa [new] using room)

end WireguardSession

section Agreement

open HandshakeState WireguardSession

/-- The handshake of two sides succeeds over the wire, the responder learns who
the initiator is, the keys mirror each other and the indices are crossed, and
each side opens what the other sends. -/
def HandshakeAgrees (primitives : Primitives)
    (initiatorStatic responderStatic initiatorEphemeral responderEphemeral : KeyPair primitives)
    (presharedKey : Option Key) (initiatorIndex responderIndex : BitVec 32)
    (timestamp : Octets 12) : Prop :=
  ∃ init initiator received responder response receivedResponse keys responderKeys responder',
    (newInitiator primitives initiatorStatic.privateKey initiatorStatic.publicKey
        responderStatic.publicKey presharedKey initiatorEphemeral
        initiatorIndex).createInitiation primitives timestamp = some (init, initiator) ∧
      HandshakeInitiation.fromBytes init.toBytes = .ok received ∧
      (newResponder primitives responderStatic.privateKey responderStatic.publicKey presharedKey
        responderEphemeral responderIndex).processInitiation primitives received =
          (.ok initiatorStatic.publicKey, responder) ∧
      responder.remoteStatic = initiatorStatic.publicKey ∧
      responder.createResponse primitives =
        some (.ok (response, responderKeys), responder') ∧
      HandshakeResponse.fromBytes response.toBytes = .ok receivedResponse ∧
      (initiator.consumeResponse primitives receivedResponse).1 = .ok keys ∧
      keys.sendKey = responderKeys.recvKey ∧ keys.recvKey = responderKeys.sendKey ∧
      keys.sendIndex = responderKeys.recvIndex ∧ keys.recvIndex = responderKeys.sendIndex ∧
      Carries primitives keys responderKeys ∧ Carries primitives responderKeys keys

/-- The two messages of a handshake: the initiation, the state in which the initiator awaits
the response, and the response with the keys of the responder. -/
structure Exchanges (primitives : Primitives)
    (initiatorStatic responderStatic initiatorEphemeral responderEphemeral : KeyPair primitives)
    (presharedKey : Option Key) (initiatorIndex responderIndex : BitVec 32)
    (timestamp : Octets 12) (init : HandshakeInitiation) (initiator responder : HandshakeState)
    (response : HandshakeResponse) (responderKeys : TransportKeys) : Prop where
  created : (newInitiator primitives initiatorStatic.privateKey initiatorStatic.publicKey
    responderStatic.publicKey presharedKey initiatorEphemeral
      initiatorIndex).createInitiation primitives timestamp = some (init, initiator)
  processed : (newResponder primitives responderStatic.privateKey responderStatic.publicKey
    presharedKey responderEphemeral responderIndex).processInitiation primitives init =
      (.ok initiatorStatic.publicKey, responder)
  responded : ∃ responder',
    responder.createResponse primitives = some (.ok (response, responderKeys), responder')

/-- The messages can be made, and the initiator accepts the response with keys that mirror
those of the responder. -/
theorem exists_exchanges (opens : primitives.Opens) (commutes : primitives.DhCommutes)
    (initiatorStatic responderStatic initiatorEphemeral responderEphemeral : KeyPair primitives)
    (presharedKey : Option Key) (initiatorIndex responderIndex : BitVec 32)
    (timestamp : Octets 12) :
    ∃ init initiator responder response responderKeys keys,
      Exchanges primitives initiatorStatic responderStatic initiatorEphemeral responderEphemeral
          presharedKey initiatorIndex responderIndex timestamp init initiator responder response
          responderKeys ∧
        responder.remoteStatic = initiatorStatic.publicKey ∧
        (initiator.consumeResponse primitives response).1 = .ok keys ∧
        keys.sendKey = responderKeys.recvKey ∧ keys.recvKey = responderKeys.sendKey ∧
        keys.sendIndex = responderKeys.recvIndex ∧ keys.recvIndex = responderKeys.sendIndex := by
  have exchange : ∀ first second : KeyPair primitives,
      primitives.dh first.privateKey second.publicKey =
        primitives.dh second.privateKey first.publicKey := fun first second => by
    rw [first.agree, second.agree, commutes]
  rcases processInitiation_createInitiation opens
    (newInitiator primitives initiatorStatic.privateKey initiatorStatic.publicKey
      responderStatic.publicKey presharedKey initiatorEphemeral initiatorIndex)
    (newResponder primitives responderStatic.privateKey responderStatic.publicKey
      presharedKey responderEphemeral responderIndex)
    ⟨rfl, rfl⟩ rfl (exchange responderStatic initiatorEphemeral)
    (exchange responderStatic initiatorStatic) timestamp with
    ⟨init, hash, chainingKey, created, processed⟩
  rcases consumeResponse_createResponse opens
    { newInitiator primitives initiatorStatic.privateKey initiatorStatic.publicKey
      responderStatic.publicKey presharedKey initiatorEphemeral initiatorIndex with
      hash, chainingKey }
    { newResponder primitives responderStatic.privateKey responderStatic.publicKey
      presharedKey responderEphemeral responderIndex with
      hash, chainingKey
      remoteStatic := initiatorStatic.publicKey
      remoteEphemeral := some initiatorEphemeral.publicKey
      remoteIndex := some initiatorIndex }
    ⟨rfl, rfl⟩ rfl rfl rfl (exchange responderEphemeral initiatorEphemeral)
    (exchange responderEphemeral initiatorStatic) with
    ⟨response, sendKey, recvKey, responder', responded, consumed⟩
  exact ⟨init, _, _, response, _, _, ⟨created, processed, responder', responded⟩, rfl, consumed,
    rfl, rfl, rfl, rfl⟩

/-- Whatever keys, indices and preshared key the two sides hold, their handshake
agrees. -/
theorem handshake_agreement (opens : primitives.Opens) (commutes : primitives.DhCommutes)
    (initiatorStatic responderStatic initiatorEphemeral responderEphemeral : KeyPair primitives)
    (presharedKey : Option Key) (initiatorIndex responderIndex : BitVec 32)
    (timestamp : Octets 12) :
    HandshakeAgrees primitives initiatorStatic responderStatic initiatorEphemeral
      responderEphemeral presharedKey initiatorIndex responderIndex timestamp := by
  rcases exists_exchanges opens commutes initiatorStatic responderStatic initiatorEphemeral
    responderEphemeral presharedKey initiatorIndex responderIndex timestamp with
    ⟨init, initiator, responder, response, responderKeys, keys, exchanges, learned, consumed,
      sendKey, recvKey, sendIndex, recvIndex⟩
  rcases exchanges.responded with ⟨responder', responded⟩
  exact ⟨init, initiator, init, responder, response, response, keys, responderKeys, responder',
    exchanges.created, HandshakeInitiation.fromBytes_toBytes init, exchanges.processed, learned,
    responded, HandshakeResponse.fromBytes_toBytes response, consumed, sendKey, recvKey, sendIndex,
    recvIndex, carries_of_mirrors opens ⟨sendKey.symm, recvIndex.symm⟩,
    carries_of_mirrors opens ⟨recvKey, sendIndex⟩⟩

/-- The first bytes of a string, padded with zeros. -/
def truncated (count : Nat) (data : List Byte) : Octets count :=
  Octets.written count data

/-- Functions without strength, with the laws of the real ones: a public key is
its private key, a shared secret the sum of two keys, and the key of a cipher
is also its tag. -/
def plainPrimitives : Primitives where
  hash data := truncated 32 data.reverse
  mac key data := truncated 16 (key ++ data)
  kdf1 key input := truncated 32 (input ++ key.bytes)
  kdf2 key input := (truncated 32 (input ++ key.bytes), truncated 32 (1 :: input ++ key.bytes))
  kdf3 key input := (truncated 32 (input ++ key.bytes), truncated 32 (1 :: input ++ key.bytes),
    truncated 32 (2 :: input ++ key.bytes))
  dh first second := ⟨List.zipWith (· ^^^ ·) first.bytes second.bytes, by simp⟩
  publicKey privateKey := privateKey
  aeadEncrypt key _ plaintext _ := plaintext ++ key.bytes.take 16
  aeadDecrypt key _ ciphertext _ :=
    if ciphertext.drop (ciphertext.length - 16) = key.bytes.take 16 then
      some (ciphertext.take (ciphertext.length - 16))
    else
      none

theorem plainPrimitives_opens : plainPrimitives.Opens where
  decrypt_encrypt key counter plaintext aad := by
    simp [plainPrimitives]
  length_encrypt key counter plaintext aad := by
    simp [plainPrimitives]

theorem plainPrimitives_dhCommutes : plainPrimitives.DhCommutes := fun _ _ =>
  Octets.ext (List.zipWith_comm_of_comm BitVec.xor_comm)

/-- A key pair of the plain functions. -/
def plainPair (byte : Byte) : KeyPair plainPrimitives :=
  ⟨.filled 32 byte, .filled 32 byte, rfl⟩

theorem handshake_agreement_plain :
    HandshakeAgrees plainPrimitives (plainPair 1) (plainPair 2) (plainPair 3) (plainPair 4)
      (some (.filled 32 5)) 6 7 (.filled 12 8) :=
  handshake_agreement plainPrimitives_opens plainPrimitives_dhCommutes (plainPair 1)
    (plainPair 2) (plainPair 3) (plainPair 4) (some (.filled 32 5)) 6 7 (.filled 12 8)

end Agreement

end Corduit.Protocol.WireGuard
