import Corduit.Protocol.WireGuard.Agreement

/-!
# Rejected responses

A response for another index leaves the initiator as it was.  One for its own
index is mixed into the hash and the chaining key before its tag is checked, and
the initiator keeps what was mixed in when the tag is wrong.
-/

namespace Corduit.Protocol.WireGuard

open Word HandshakeState

/-- `WireGuardTunnel`, as far as the handshake goes. -/
structure WireGuardTunnel where
  session : Option WireguardSession
  handshakeState : Option HandshakeState

namespace WireGuardTunnel

/-- A response ends the handshake, or is refused. -/
def processHandshakeResponse (primitives : Primitives) (tunnel : WireGuardTunnel)
    (data : List Byte) : Except WireGuardError Unit × WireGuardTunnel :=
  match HandshakeResponse.fromBytes data with
  | .error error => (.error error, tunnel)
  | .ok response =>
      match tunnel.handshakeState with
      | none => (.error (.handshake "No handshake in progress"), tunnel)
      | some state =>
          match state.consumeResponse primitives response with
          | (.error error, state) => (.error error, { tunnel with handshakeState := some state })
          | (.ok keys, _) => (.ok (), { session := some (.new keys), handshakeState := none })

/-- Packets one after the other. -/
def processAll (primitives : Primitives) (tunnel : WireGuardTunnel) :
    List (List Byte) → WireGuardTunnel
  | [] => tunnel
  | data :: others => processAll primitives (tunnel.processHandshakeResponse primitives data).2 others

end WireGuardTunnel

theorem WireGuardTunnel.processHandshakeResponse_toBytes (primitives : Primitives)
    (session : Option WireguardSession) (state : HandshakeState) (response : HandshakeResponse) :
    processHandshakeResponse primitives ⟨session, some state⟩ response.toBytes =
      match state.consumeResponse primitives response with
      | (.error error, after) => (.error error, ⟨session, some after⟩)
      | (.ok keys, _) => (.ok (), ⟨some (.new keys), none⟩) := by
  simp only [processHandshakeResponse, HandshakeResponse.fromBytes_toBytes]

section Foreign

variable {primitives : Primitives} {state : HandshakeState} {response : HandshakeResponse}

theorem consumeResponse_of_index_ne (foreign : response.receiverIndex ≠ state.localIndex) :
    state.consumeResponse primitives response =
      (.error (.handshake "Invalid receiver index"), state) :=
  if_pos foreign

/-- A packet that is no response, or a response for another index. -/
def Foreign (localIndex : BitVec 32) (data : List Byte) : Prop :=
  ∀ response, HandshakeResponse.fromBytes data = .ok response → response.receiverIndex ≠ localIndex

theorem processHandshakeResponse_of_foreign {session : Option WireguardSession} {data : List Byte}
    (foreign : Foreign state.localIndex data) :
    (WireGuardTunnel.processHandshakeResponse primitives ⟨session, some state⟩ data).2 =
      ⟨session, some state⟩ := by
  unfold WireGuardTunnel.processHandshakeResponse
  split
  · rfl
  · rename_i read
    simp [consumeResponse_of_index_ne (foreign _ read)]

end Foreign

/-- A keyed hash that counts in the first byte of its key, except when it is asked
about `[1]`. -/
def countingHmac (key data : List Byte) : Key :=
  .filled 32 (key.headD 0 + if data = [1] then 0 else 1)

/-- The tag of a key: its first byte, and a mark. -/
def markedTag (mark : Byte) (key : Key) : List Byte :=
  key.bytes.headD 0 :: List.replicate 15 mark

/-- The plain functions with marked tags. -/
def markedPrimitives (mark : Byte) : Primitives :=
  { plainPrimitives with
    aeadEncrypt := fun key _ plaintext _ => plaintext ++ markedTag mark key
    aeadDecrypt := fun key _ ciphertext _ =>
      if ciphertext.drop (ciphertext.length - 16) = markedTag mark key then
        some (ciphertext.take (ciphertext.length - 16))
      else
        none }

theorem markedPrimitives_opens (mark : Byte) : (markedPrimitives mark).Opens where
  decrypt_encrypt key counter plaintext aad := by
    simp [markedPrimitives, markedTag]
  length_encrypt key counter plaintext aad := by
    simp [markedPrimitives, markedTag]

theorem Primitives.Opens.withHmac {primitives : Primitives} (opens : primitives.Opens)
    (hmac : List Byte → List Byte → Key) : (primitives.withHmac hmac).Opens :=
  ⟨opens.decrypt_encrypt, opens.length_encrypt⟩

theorem Primitives.DhCommutes.withHmac {primitives : Primitives} (commutes : primitives.DhCommutes)
    (hmac : List Byte → List Byte → Key) : (primitives.withHmac hmac).DhCommutes :=
  commutes

theorem markedPrimitives_dhCommutes (mark : Byte) : (markedPrimitives mark).DhCommutes :=
  plainPrimitives_dhCommutes

/-- The program's key derivation over the functions that count. -/
def counting (mark : Byte) : Primitives :=
  (markedPrimitives mark).withHmac countingHmac

/-- The count of a key. -/
def Key.count (key : Key) : Byte :=
  key.bytes.headD 0

section Counting

variable {mark : Byte} {state : HandshakeState} {response : HandshakeResponse}

@[simp]
theorem count_filled (byte : Byte) : Key.count (.filled 32 byte) = byte :=
  rfl

theorem key_bytes_ne (key : Key) : key.bytes ≠ [1#8] := by
  intro same
  have length_eq := key.length_bytes
  rw [same] at length_eq
  cases length_eq

theorem count_kdf1 (key input : Key) :
    Key.count ((counting mark).kdf1 key input.bytes) = key.count + 1 := by
  simp [counting, Primitives.withHmac, hmacKdf1, countingHmac, key_bytes_ne, Key.count]

theorem count_kdf3 (key input : Key) :
    Key.count ((counting mark).kdf3 key input.bytes).1 = key.count + 1 ∧
      Key.count ((counting mark).kdf3 key input.bytes).2.2 = key.count + 2 := by
  have prk : countingHmac key.bytes input.bytes = .filled 32 (key.count + 1) := by
    simp [countingHmac, key_bytes_ne, Key.count]
  have two : key.count + 1#8 + 1#8 = key.count + 2#8 := BitVec.add_assoc _ _ _
  simp only [counting, Primitives.withHmac, hmacKdf3, prk]
  constructor
  · simp [countingHmac, Key.count]
  · simpa [countingHmac, Key.count] using two

@[simp]
theorem chainingKey_mixHash (primitives : Primitives) (state : HandshakeState) (data : List Byte) :
    (state.mixHash primitives data).chainingKey = state.chainingKey :=
  rfl

theorem count_mixKey (state : HandshakeState) (input : Key) :
    (state.mixKey (counting mark) input).chainingKey.count = state.chainingKey.count + 1 :=
  @count_kdf1 mark state.chainingKey input

theorem count_mixKeyAndHash (state : HandshakeState) (input : Key) :
    (state.mixKeyAndHash (counting mark) input).1.chainingKey.count =
        state.chainingKey.count + 1 ∧
      (state.mixKeyAndHash (counting mark) input).2.count = state.chainingKey.count + 2 :=
  @count_kdf3 mark state.chainingKey input

theorem count_mixResponse (state : HandshakeState) (response : HandshakeResponse) :
    (state.mixResponse (counting mark) response).1.chainingKey.count =
        state.chainingKey.count + 3 ∧
      (state.mixResponse (counting mark) response).2.count = state.chainingKey.count + 4 := by
  have three : state.chainingKey.count + 1 + 1 + 1 = state.chainingKey.count + 3 := by
    rw [BitVec.add_assoc, BitVec.add_assoc]
    rfl
  have four : state.chainingKey.count + 1 + 1 + 2 = state.chainingKey.count + 4 := by
    rw [BitVec.add_assoc, BitVec.add_assoc]
    rfl
  unfold mixResponse
  simp only [count_mixKeyAndHash, count_mixKey, chainingKey_mixHash]
  exact ⟨three, four⟩

theorem decrypt_counting (key : Key) (counter : Nat) (ciphertext : Octets 16) (aad : List Byte) :
    (counting mark).aeadDecrypt key counter ciphertext.bytes aad =
      if ciphertext.bytes = markedTag mark key then some [] else none := by
  have whole : ciphertext.bytes.length - 16 = 0 := by simp
  simp only [counting, Primitives.withHmac, markedPrimitives, whole]
  rfl

theorem consumeResponse_of_tag_ne (own : response.receiverIndex = state.localIndex)
    (wrong : response.encryptedNothing.bytes ≠
      (state.chainingKey.count + 4) :: List.replicate 15 mark) :
    ∃ error after, state.consumeResponse (counting mark) response = (.error error, after) ∧
      after.chainingKey.count = state.chainingKey.count + 3 := by
  rcases @count_mixResponse mark state response with ⟨chaining, cipher⟩
  have tag : markedTag mark (state.mixResponse (counting mark) response).2 =
      (state.chainingKey.count + 4) :: List.replicate 15 mark := by
    rw [← cipher]
    rfl
  refine ⟨.handshake "Failed to decrypt response", _, ?_, chaining⟩
  rw [consumeResponse, if_neg (not_not.mpr own)]
  simp only [decrypt_counting, tag, if_neg wrong]

theorem tag_of_consumeResponse {keys : TransportKeys}
    (accepted : (state.consumeResponse (counting mark) response).1 = .ok keys) :
    response.encryptedNothing.bytes =
      (state.chainingKey.count + 4) :: List.replicate 15 mark := by
  by_contra wrong
  by_cases own : response.receiverIndex = state.localIndex
  · rcases consumeResponse_of_tag_ne own wrong with ⟨error, after, rejected, _⟩
    rw [rejected] at accepted
    cases accepted
  · rw [consumeResponse_of_index_ne own] at accepted
    cases accepted

end Counting

section Genuine

variable (primitives : Primitives)
  (initiatorStatic responderStatic initiatorEphemeral responderEphemeral : Key)
  (presharedKey : Option Key) (initiatorIndex responderIndex : BitVec 32) (timestamp : Octets 12)

/-- When the initiator rejects the forged response, it still accepts the genuine one, with the
keys it would have had. -/
def Unharmed (forged : HandshakeResponse) : Prop :=
  ∀ init initiator responder response responderKeys,
    Exchanges primitives (generateKeypair primitives initiatorStatic)
      (generateKeypair primitives responderStatic) (generateKeypair primitives initiatorEphemeral)
      (generateKeypair primitives responderEphemeral) presharedKey initiatorIndex responderIndex
      timestamp init initiator responder response responderKeys →
    ∀ error, (initiator.consumeResponse primitives forged).1 = .error error →
      ∃ keys, (initiator.consumeResponse primitives response).1 = .ok keys ∧
        ((initiator.consumeResponse primitives forged).2.consumeResponse primitives response).1 =
          .ok keys

variable {primitives initiatorStatic responderStatic initiatorEphemeral responderEphemeral
  presharedKey initiatorIndex responderIndex timestamp}

theorem localIndex_of_createInitiation {initiator after : HandshakeState} {init : HandshakeInitiation}
    (created : initiator.createInitiation primitives timestamp = some (init, after)) :
    after.localIndex = initiator.localIndex := by
  simp only [createInitiation, Option.bind_eq_bind, Option.bind_eq_some_iff] at created
  rcases created with ⟨encryptedStatic, _, encryptedTimestamp, _, same⟩
  cases same
  rfl

theorem Exchanges.accepted {primitives : Primitives}
    {initiatorStatic responderStatic initiatorEphemeral responderEphemeral : KeyPair primitives}
    {init : HandshakeInitiation} {initiator responder : HandshakeState}
    {response : HandshakeResponse} {responderKeys : TransportKeys} (opens : primitives.Opens)
    (commutes : primitives.DhCommutes)
    (exchanges : Exchanges primitives initiatorStatic responderStatic initiatorEphemeral
      responderEphemeral presharedKey initiatorIndex responderIndex timestamp init initiator responder
      response responderKeys) :
    ∃ keys, (initiator.consumeResponse primitives response).1 = .ok keys ∧
      keys.sendKey = responderKeys.recvKey ∧ keys.recvKey = responderKeys.sendKey := by
  rcases exists_exchanges opens commutes initiatorStatic responderStatic initiatorEphemeral
    responderEphemeral presharedKey initiatorIndex responderIndex timestamp with
    ⟨_, _, _, _, _, keys, others, _, accepted, sends, receives, _⟩
  rcases exchanges.responded with ⟨_, responded⟩
  rcases others.responded with ⟨_, respondedToo⟩
  have created := exchanges.created
  have processed := exchanges.processed
  rw [others.created] at created
  cases created
  rw [others.processed] at processed
  cases processed
  rw [respondedToo] at responded
  cases responded
  exact ⟨keys, accepted, sends, receives⟩

/-- Foreign packets do not keep the tunnel from its session: the genuine response starts it with
the responder's keys, and nothing behind it is taken for a response. -/
theorem processAll_genuine {primitives : Primitives}
    {initiatorStatic responderStatic initiatorEphemeral responderEphemeral : KeyPair primitives}
    {init : HandshakeInitiation} {initiator responder : HandshakeState}
    {response : HandshakeResponse} {responderKeys : TransportKeys} (opens : primitives.Opens)
    (commutes : primitives.DhCommutes)
    (exchanges : Exchanges primitives initiatorStatic responderStatic initiatorEphemeral
      responderEphemeral presharedKey initiatorIndex responderIndex timestamp init initiator responder
      response responderKeys) (session : Option WireguardSession) (before behind : List (List Byte))
    (foreign : ∀ data ∈ before, Foreign initiatorIndex data) :
    ∃ keys, keys.sendKey = responderKeys.recvKey ∧ keys.recvKey = responderKeys.sendKey ∧
      WireGuardTunnel.processAll primitives ⟨session, some initiator⟩
        (before ++ response.toBytes :: behind) = ⟨some (.new keys), none⟩ := by
  rcases exchanges.accepted opens commutes with ⟨keys, accepted, sends, receives⟩
  refine ⟨keys, sends, receives, ?_⟩
  induction before with
  | nil =>
      rw [List.nil_append, WireGuardTunnel.processAll,
        WireGuardTunnel.processHandshakeResponse_toBytes]
      generalize initiator.consumeResponse primitives response = outcome at accepted
      rcases outcome with ⟨result, after⟩
      cases accepted
      dsimp only
      induction behind with
      | nil => rfl
      | cons data behind ih =>
          rw [WireGuardTunnel.processAll, WireGuardTunnel.processHandshakeResponse]
          split <;> exact ih
  | cons data before ih =>
      rw [List.forall_mem_cons] at foreign
      have index : Foreign initiator.localIndex data := by
        rw [localIndex_of_createInitiation exchanges.created]
        exact foreign.1
      rw [List.cons_append, WireGuardTunnel.processAll, processHandshakeResponse_of_foreign index]
      exact ih foreign.2

theorem processAll_genuine_plain :
    ∃ (initiator : HandshakeState) (response : HandshakeResponse) (keys : TransportKeys),
      WireGuardTunnel.processAll (markedPrimitives 0) ⟨none, some initiator⟩
        ([[2, 0]] ++ response.toBytes :: [[1]]) = ⟨some (.new keys), none⟩ := by
  have opens := markedPrimitives_opens 0
  have commutes := markedPrimitives_dhCommutes 0
  rcases exists_exchanges opens commutes (generateKeypair _ (.filled 32 1))
    (generateKeypair _ (.filled 32 2)) (generateKeypair _ (.filled 32 3))
    (generateKeypair _ (.filled 32 4)) none 6 7 (.filled 12 8) with
    ⟨_, initiator, _, response, _, _, exchanges, _⟩
  rcases processAll_genuine opens commutes exchanges none [[2, 0]] [[1]]
    (by simp [Foreign, HandshakeResponse.fromBytes]) with ⟨keys, _, _, settled⟩
  exact ⟨initiator, response, keys, settled⟩

theorem unharmed_of_index_ne (opens : primitives.Opens) (commutes : primitives.DhCommutes)
    {forged : HandshakeResponse} (foreign : forged.receiverIndex ≠ initiatorIndex) :
    Unharmed primitives initiatorStatic responderStatic initiatorEphemeral responderEphemeral
      presharedKey initiatorIndex responderIndex timestamp forged := by
  intro init initiator responder response responderKeys exchanges error rejected
  have index : forged.receiverIndex ≠ initiator.localIndex := by
    rw [localIndex_of_createInitiation exchanges.created]
    exact foreign
  rw [consumeResponse_of_index_ne index]
  rcases exchanges.accepted opens commutes with ⟨keys, accepted, _⟩
  exact ⟨keys, accepted, accepted⟩

/-- A mark that a response does not bear. -/
def otherMark (forged : HandshakeResponse) : Byte :=
  forged.encryptedNothing.bytes.getD 1 0 + 1

theorem encryptedNothing_ne (forged : HandshakeResponse) (byte : Byte) :
    forged.encryptedNothing.bytes ≠ byte :: List.replicate 15 (otherMark forged) := by
  intro same
  have second := congrArg (fun bytes => bytes.getD 1 0) same
  have marked : (byte :: List.replicate 15 (otherMark forged)).getD 1 0 = otherMark forged := rfl
  rw [marked, otherMark] at second
  have wrapped := congrArg BitVec.toNat second
  rw [BitVec.toNat_add] at wrapped
  have small := (forged.encryptedNothing.bytes.getD 1 0).isLt
  change _ = (_ + 1) % 256 at wrapped
  omega

/-- Under the functions that count, a forged response for the initiator's own index makes the
genuine one fail, whatever else it says. -/
theorem not_unharmed_counting {forged : HandshakeResponse}
    (own : forged.receiverIndex = initiatorIndex) :
    ¬ Unharmed (counting (otherMark forged)) initiatorStatic responderStatic initiatorEphemeral
      responderEphemeral presharedKey initiatorIndex responderIndex timestamp forged := by
  intro unharmed
  have opens : (counting (otherMark forged)).Opens := (markedPrimitives_opens _).withHmac _
  have commutes : (counting (otherMark forged)).DhCommutes :=
    (markedPrimitives_dhCommutes _).withHmac _
  rcases exists_exchanges opens commutes (generateKeypair _ initiatorStatic)
    (generateKeypair _ responderStatic) (generateKeypair _ initiatorEphemeral)
    (generateKeypair _ responderEphemeral) presharedKey initiatorIndex responderIndex timestamp with
    ⟨init, initiator, responder, response, responderKeys, _, exchanges, _⟩
  have index : forged.receiverIndex = initiator.localIndex := by
    rw [localIndex_of_createInitiation exchanges.created]
    exact own
  rcases consumeResponse_of_tag_ne index (encryptedNothing_ne forged _) with
    ⟨error, after, rejected, counted⟩
  rcases unharmed _ _ _ _ _ exchanges error (by rw [rejected]) with ⟨keys, before, behind⟩
  rw [rejected] at behind
  have first := tag_of_consumeResponse before
  have second := tag_of_consumeResponse behind
  rw [first, counted, BitVec.add_assoc] at second
  have heads := (List.cons.inj second).1
  exact absurd ((BitVec.add_right_inj _).mp heads) (by decide)

/-- Whatever the functions under the handshake, a rejected response does no harm exactly when
it is for another index. -/
theorem unharmed_iff {forged : HandshakeResponse} :
    (∀ (primitives : Primitives) (hmac : List Byte → List Byte → Key), primitives.Opens →
      primitives.DhCommutes → Unharmed (primitives.withHmac hmac) initiatorStatic responderStatic
        initiatorEphemeral responderEphemeral presharedKey initiatorIndex responderIndex timestamp
          forged) ↔ forged.receiverIndex ≠ initiatorIndex := by
  constructor
  · intro unharmed own
    exact not_unharmed_counting own (unharmed (markedPrimitives (otherMark forged)) countingHmac
      (markedPrimitives_opens _) (markedPrimitives_dhCommutes _))
  · intro foreign primitives hmac opens commutes
    exact unharmed_of_index_ne (opens.withHmac hmac) (commutes.withHmac hmac) foreign

/-- A response with a tag of zeros, for the index that the initiator drew. -/
def forgedResponse : HandshakeResponse where
  senderIndex := 7
  receiverIndex := 6
  ephemeralPublic := .filled 32 9
  encryptedNothing := .filled 16 0
  mac1 := .filled 16 0
  mac2 := .filled 16 0

theorem otherMark_forgedResponse : otherMark forgedResponse = 1 := by
  decide

theorem forgedResponse_harms :
    ¬ Unharmed (counting 1) (.filled 32 1) (.filled 32 2) (.filled 32 3) (.filled 32 4)
      (some (.filled 32 5)) 6 7 (.filled 12 8) forgedResponse := by
  rw [← otherMark_forgedResponse]
  exact not_unharmed_counting rfl

end Genuine

end Corduit.Protocol.WireGuard
