import Corduit.Protocol.WireGuard.Agreement

/-!
# The key schedule of the protocol

The chaining key, hash and cipher keys that the protocol prescribes for an
initiator, beside those that the program computes.  The protocol mixes the two
ephemeral public keys into the chaining key; the program mixes the first
exchanged secret in twice instead of the initiator's, and nothing for the
responder's.
-/

namespace Corduit.Protocol.WireGuard

open Word

/-- The values an initiator holds once it made its message. -/
structure InitiationSchedule where
  chainingKey : Key
  hash : Key
  staticKey : Key
  timestampKey : Key
deriving DecidableEq

/-- The values an initiator holds when it opens the response. -/
structure ResponseSchedule where
  chainingKey : Key
  hash : Key
  nothingKey : Key
deriving DecidableEq

namespace Specification

variable (primitives : Primitives)

/-- The initiator's schedule: `C := KDF1(C, E_i)`, `(C, k) := KDF2(C, DH(e_i, S_r))`,
`(C, k) := KDF2(C, DH(s_i, S_r))`. -/
def initiation (initiatorStatic initiatorEphemeral : KeyPair primitives) (responderStatic : Key)
    (timestamp : Octets 12) : InitiationSchedule :=
  let chainingKey := primitives.hash construction
  let hash := primitives.hash (chainingKey.bytes ++ identifier)
  let hash := primitives.hash (hash.bytes ++ responderStatic.bytes)
  let chainingKey := primitives.kdf1 chainingKey initiatorEphemeral.publicKey.bytes
  let hash := primitives.hash (hash.bytes ++ initiatorEphemeral.publicKey.bytes)
  let (chainingKey, staticKey) := primitives.kdf2 chainingKey
    (primitives.dh initiatorEphemeral.privateKey responderStatic).bytes
  let hash := primitives.hash (hash.bytes ++
    primitives.aeadEncrypt staticKey 0 initiatorStatic.publicKey.bytes hash.bytes)
  let (chainingKey, timestampKey) := primitives.kdf2 chainingKey
    (primitives.dh initiatorStatic.privateKey responderStatic).bytes
  let hash := primitives.hash (hash.bytes ++
    primitives.aeadEncrypt timestampKey 0 timestamp.bytes hash.bytes)
  { chainingKey, hash, staticKey, timestampKey }

/-- The response's schedule from the chaining key and hash of the initiation:
`C := KDF1(C, E_r)`, `C := KDF1(C, DH(e_i, E_r))`, `C := KDF1(C, DH(s_i, E_r))`,
`(C, t, k) := KDF3(C, psk)`. -/
def response (chainingKey hash staticPrivate ephemeralPrivate responderEphemeral psk : Key) :
    ResponseSchedule :=
  let chainingKey := primitives.kdf1 chainingKey responderEphemeral.bytes
  let hash := primitives.hash (hash.bytes ++ responderEphemeral.bytes)
  let chainingKey := primitives.kdf1 chainingKey
    (primitives.dh ephemeralPrivate responderEphemeral).bytes
  let chainingKey := primitives.kdf1 chainingKey
    (primitives.dh staticPrivate responderEphemeral).bytes
  let (chainingKey, tau, nothingKey) := primitives.kdf3 chainingKey psk.bytes
  let hash := primitives.hash (hash.bytes ++ tau.bytes)
  { chainingKey, hash, nothingKey }

end Specification

namespace HandshakeState

variable (primitives : Primitives)

/-- The schedule of `create_initiation`. -/
def initiationSchedule (state : HandshakeState) (timestamp : Octets 12) : InitiationSchedule :=
  let trace := state.mixInitiation primitives timestamp
  { chainingKey := trace.state.chainingKey
    hash := trace.state.hash
    staticKey := trace.key
    timestampKey := trace.key2 }

/-- The schedule of `consume_response`. -/
def responseSchedule (state : HandshakeState) (response : HandshakeResponse) : ResponseSchedule :=
  let (state, key) := state.mixResponse primitives response
  { chainingKey := state.chainingKey, hash := state.hash, nothingKey := key }

/-- The schedule that the protocol prescribes for the response in a state. -/
def prescribedResponse (state : HandshakeState) (response : HandshakeResponse) :
    ResponseSchedule :=
  Specification.response primitives state.chainingKey state.hash state.staticPrivate
    state.ephemeralPrivate response.ephemeralPublic state.psk

/-- The program's schedule for its initiation is the protocol's. -/
def InitiationConforms (initiatorStatic initiatorEphemeral responderStatic : Key)
    (presharedKey : Option Key) (localIndex : BitVec 32) (timestamp : Octets 12) : Prop :=
  (newInitiator primitives initiatorStatic (primitives.publicKey initiatorStatic) responderStatic
      presharedKey (generateKeypair primitives initiatorEphemeral)
      localIndex).initiationSchedule primitives timestamp =
    Specification.initiation primitives (generateKeypair primitives initiatorStatic)
      (generateKeypair primitives initiatorEphemeral) responderStatic timestamp

/-- The program's schedule for the response is the protocol's, from the state
that its initiation leaves. -/
def ResponseConforms (initiatorStatic initiatorEphemeral responderStatic : Key)
    (presharedKey : Option Key) (localIndex : BitVec 32) (timestamp : Octets 12)
    (response : HandshakeResponse) : Prop :=
  let initiator := newInitiator primitives initiatorStatic (primitives.publicKey initiatorStatic)
    responderStatic presharedKey (generateKeypair primitives initiatorEphemeral) localIndex
  let state := (initiator.mixInitiation primitives timestamp).state
  state.responseSchedule primitives response = state.prescribedResponse primitives response

instance (initiatorStatic initiatorEphemeral responderStatic : Key) (presharedKey : Option Key)
    (localIndex : BitVec 32) (timestamp : Octets 12) :
    Decidable (InitiationConforms primitives initiatorStatic initiatorEphemeral responderStatic
      presharedKey localIndex timestamp) :=
  inferInstanceAs (Decidable (_ = _))

instance (initiatorStatic initiatorEphemeral responderStatic : Key) (presharedKey : Option Key)
    (localIndex : BitVec 32) (timestamp : Octets 12) (response : HandshakeResponse) :
    Decidable (ResponseConforms primitives initiatorStatic initiatorEphemeral responderStatic
      presharedKey localIndex timestamp response) :=
  inferInstanceAs (Decidable (_ = _))

end HandshakeState

section Deviation

open HandshakeState

variable (primitives : Primitives)

/-- A key apart from another. -/
def otherKey (key : Key) : Key :=
  if key = .filled 32 0 then .filled 32 1 else .filled 32 0

theorem otherKey_ne (key : Key) : otherKey key ≠ key := by
  unfold otherKey
  split <;> rename_i zero
  · rw [zero]
    decide
  · exact fun same => zero same.symm

/-- A keyed hash that sees only whether it is asked about `marked`. -/
def markingHmac (marked answer : Key) (key data : List Byte) : Key :=
  if data = marked.bytes then answer else truncated 32 key

theorem truncated_bytes (key : Key) : truncated 32 key.bytes = key :=
  Octets.ext (by simp [truncated, Octets.written])

/-- A keyed hash that counts, by twos, the keys it is asked about. -/
def alternatingHmac (key data : List Byte) : Key :=
  if data.length = 32 then otherKey (truncated 32 key) else truncated 32 key

theorem kdf1_alternating (key input : Key) :
    hmacKdf1 alternatingHmac key input.bytes = otherKey key := by
  simp [hmacKdf1, alternatingHmac, truncated_bytes]

theorem kdf3_alternating (key input : Key) :
    hmacKdf3 alternatingHmac key input.bytes = (otherKey key, otherKey key, otherKey key) := by
  simp [hmacKdf3, alternatingHmac, truncated_bytes]

/-- Whatever the other functions are and whatever is received, under a keyed
hash that counts its keys the program's chaining key after the response is not
the protocol's: it mixes one key too few. -/
theorem responseSchedule_ne (state : HandshakeState) (response : HandshakeResponse) :
    state.responseSchedule (primitives.withHmac alternatingHmac) response ≠
      state.prescribedResponse (primitives.withHmac alternatingHmac) response := by
  intro same
  have chaining := congrArg ResponseSchedule.chainingKey same
  simp only [responseSchedule, prescribedResponse, mixResponse, HandshakeState.mixHash, mixKey,
    mixKeyAndHash,
    Specification.response, Primitives.withHmac, kdf1_alternating, kdf3_alternating] at chaining
  exact otherKey_ne _ chaining.symm

section Marking

variable {marked answer key : Key}

theorem markingHmac_of_ne {data : List Byte} (other : data ≠ marked.bytes) :
    markingHmac marked answer key.bytes data = key := by
  rw [markingHmac, if_neg other, truncated_bytes]

theorem ne_bytes_of_length {data : List Byte} (differs : data.length ≠ 32) (key : Key) :
    data ≠ key.bytes := fun same => differs (by rw [same, key.length_bytes])

theorem kdf1_marking (input : Key) : hmacKdf1 (markingHmac marked answer) key input.bytes =
    markingHmac marked answer key.bytes input.bytes := by
  simp only [hmacKdf1]
  exact markingHmac_of_ne (ne_bytes_of_length (by decide) marked)

theorem kdf2_marking {input : Key} (other : input.bytes ≠ marked.bytes) :
    hmacKdf2 (markingHmac marked answer) key input.bytes = (key, key) := by
  have first : markingHmac marked answer key.bytes [1] = key :=
    markingHmac_of_ne (ne_bytes_of_length (by decide) marked)
  have second : markingHmac marked answer key.bytes (key.bytes ++ [2]) = key :=
    markingHmac_of_ne (ne_bytes_of_length (by simp) marked)
  simp only [hmacKdf2, markingHmac_of_ne other, first, second]

end Marking

/-- Whatever the other functions are and whatever the keys, under a key exchange
whose secret is not the initiator's ephemeral public key and a keyed hash that
marks that key, the program's first cipher key is not the protocol's. -/
theorem not_initiationConforms (initiatorStatic initiatorEphemeral responderStatic : Key)
    (presharedKey : Option Key) (localIndex : BitVec 32) (timestamp : Octets 12) :
    ∃ dh hmac, ¬InitiationConforms ({ primitives with dh }.withHmac hmac) initiatorStatic
      initiatorEphemeral responderStatic presharedKey localIndex timestamp := by
  let marked := primitives.publicKey initiatorEphemeral
  let answer := otherKey (primitives.hash construction)
  refine ⟨fun _ _ => otherKey marked, markingHmac marked answer, fun same => ?_⟩
  have other : (otherKey marked).bytes ≠ marked.bytes := fun bytes_eq =>
    otherKey_ne marked (Octets.ext bytes_eq)
  have keys := congrArg InitiationSchedule.staticKey same
  simp only [initiationSchedule, mixInitiation, HandshakeState.mixHash, mixKey, mixKeyForCipher,
    newInitiator, Specification.initiation, Primitives.withHmac, generateKeypair, kdf1_marking,
    kdf2_marking other, markingHmac_of_ne other] at keys
  rw [markingHmac, if_pos rfl] at keys
  exact otherKey_ne _ keys.symm

/-- For no input is the program's key schedule the protocol's for all functions
that may stand under it: neither the initiation's nor, from where the
initiation leaves it, the response's. -/
theorem schedule_never_conforms (initiatorStatic initiatorEphemeral responderStatic : Key)
    (presharedKey : Option Key) (localIndex : BitVec 32) (timestamp : Octets 12)
    (response : HandshakeResponse) :
    (∃ dh hmac, ¬InitiationConforms ({ primitives with dh }.withHmac hmac) initiatorStatic
        initiatorEphemeral responderStatic presharedKey localIndex timestamp) ∧
      ∃ hmac, ¬ResponseConforms (primitives.withHmac hmac) initiatorStatic initiatorEphemeral
        responderStatic presharedKey localIndex timestamp response :=
  ⟨not_initiationConforms primitives initiatorStatic initiatorEphemeral responderStatic
      presharedKey localIndex timestamp,
    alternatingHmac, responseSchedule_ne primitives _ response⟩

/-- Two sides with plain functions: both parts of the schedule deviate. -/
theorem schedule_deviates_plain :
    ¬InitiationConforms (plainPrimitives.withHmac fun key data => truncated 32 (data.take 4 ++ key))
        (.filled 32 1) (.filled 32 3) (.filled 32 2) none 6 (.filled 12 8) ∧
      ¬ResponseConforms (plainPrimitives.withHmac fun key data => truncated 32 (data.take 4 ++ key))
        (.filled 32 1) (.filled 32 3) (.filled 32 2) none 6 (.filled 12 8)
        ⟨7, 6, .filled 32 4, .filled 16 0, .filled 16 0, .filled 16 0⟩ := by
  decide +kernel

end Deviation

end Corduit.Protocol.WireGuard
