import Corduit.Protocol.Tls13.Echo

/-!
# REALITY: the session id of a ClientHello

The hook seals a version, a time and a short id into the session id of the
hello that was drafted.  A server echoes the sealed session id, so the client
compares the echo with zeros.
-/

namespace Corduit.Protocol.Reality

open Protocol.Tls13 Transition Transport Word

/-- What can go wrong. -/
inductive RealityError where
  | config (message : String)
  | wire (message : String)
  | unauthenticated
  | fallback (message : String)
  | unsupported (message : String)
  deriving DecidableEq

namespace RealityError

/-- The message of an error. -/
def display : RealityError → String
  | config message => "REALITY config error: " ++ message
  | wire message => "REALITY wire error: " ++ message
  | unauthenticated => "REALITY session id failed authentication"
  | fallback message => "REALITY fallback: " ++ message
  | unsupported message => "REALITY unsupported: " ++ message

/-- Only a fallback is about a certificate. -/
def toTls13Error : RealityError → Tls13Error
  | fallback message => .certificate message
  | other => .invalidConfig other.display

end RealityError

/-- The length of a session id. -/
def SESSION_ID_LEN : Nat := 32
/-- What is sealed in it. -/
def SESSION_PLAIN_LEN : Nat := 16
/-- The longest short id. -/
def MAX_SHORT_ID_LEN : Nat := 8

/-- The fields of a sealed session id. -/
structure SessionMeta where
  version : Octets 3
  timestamp : BitVec 32

/-- Version, a reserved byte, the time and the short id with zeros behind it. -/
def SessionMeta.toBytes (fields : SessionMeta) (shortId : List Byte) :
    Except RealityError (List Byte) :=
  if MAX_SHORT_ID_LEN < shortId.length then
    .error (.config ("short id is " ++ toString shortId.length ++ " bytes, the limit is " ++
      toString MAX_SHORT_ID_LEN))
  else
    .ok (fields.version.bytes ++ [0] ++ toBeBytes 4 fields.timestamp ++ shortId ++
      List.replicate (MAX_SHORT_ID_LEN - shortId.length) 0)

/-- `SessionMeta::from_bytes`, with the short id: zeros at its end are taken for padding. -/
def SessionMeta.fromBytes (bytes : List Byte) : SessionMeta × List Byte :=
  (⟨.written 3 (slice bytes 0 3), BitVec.ofNat 32 (ofBeBytes (slice bytes 4 4))⟩,
    ((slice bytes 8 8).reverse.dropWhile (· = 0)).reverse)

section Hook

variable {ξ : Type} (primitives : Primitives ξ)

/-- The key that seals the session id. -/
def deriveAuthKey (shared clientRandom : List Byte) : List Byte :=
  primitives.hkdfExpand .sha256 (primitives.hmac .sha256 (clientRandom.take 20) shared)
    (ascii "REALITY") 32

/-- Seal the session id of a hello: its bytes are zeros in the associated data. -/
def sealSessionId (authKey clientRandom clientHello : List Byte) (fields : SessionMeta)
    (shortId : List Byte) : Except RealityError (List Byte) :=
  if clientHello.length < SESSION_ID_OFFSET + SESSION_ID_LEN then
    .error (.wire "ClientHello is too short to hold a 32-byte session id")
  else do
    let plain ← fields.toBytes shortId
    let zeroed := writeAt clientHello SESSION_ID_OFFSET (List.replicate SESSION_ID_LEN 0)
    match primitives.encrypt SUITE_AES_256 authKey (slice clientRandom 20 12) plain zeroed with
    | .error error => .error (.wire ("session id sealing failed: " ++ error.display))
    | .ok sealed =>
        if sealed.length ≠ SESSION_ID_LEN then
          .error (.wire ("sealed session id is " ++ toString sealed.length ++ " bytes, expected " ++
            toString SESSION_ID_LEN))
        else
          return writeAt zeroed SESSION_ID_OFFSET sealed

/-- The server's side: `unseal_session_id`, which leaves the hello as it was received. -/
def unsealSessionId (authKey clientRandom clientHello : List Byte) :
    Except RealityError (SessionMeta × List Byte) :=
  if clientHello.length < SESSION_ID_OFFSET + SESSION_ID_LEN then
    .error (.wire "ClientHello is too short to hold a 32-byte session id")
  else
    let zeroed := writeAt clientHello SESSION_ID_OFFSET (List.replicate SESSION_ID_LEN 0)
    match primitives.decrypt SUITE_AES_256 authKey (slice clientRandom 20 12)
        (slice clientHello SESSION_ID_OFFSET SESSION_ID_LEN) zeroed with
    | .error _ => .error .unauthenticated
    | .ok plain =>
        if plain.length ≠ SESSION_PLAIN_LEN then
          .error (.wire "session id plaintext has wrong length")
        else
          .ok (SessionMeta.fromBytes plain)

/-- The hook, with the version and the time that it seals. -/
structure RealityHook where
  serverPublic : List Byte
  shortId : List Byte
  fields : SessionMeta

/-- The hook seals a session id into the hello. -/
def RealityHook.onClientHello (hook : RealityHook) : ClientHelloHook := fun draft =>
  let shared := primitives.x25519 draft.keySharePrivate hook.serverPublic
  let authKey := deriveAuthKey primitives shared draft.random
  match sealSessionId primitives authKey draft.random draft.raw hook.fields hook.shortId with
  | .ok raw => .ok raw
  | .error error => .error error.toTls13Error

end Hook

section Sealed

variable {ξ : Type} {primitives : Primitives ξ}
  {tail : ClientHelloSpec → Except Tls13Error (List Byte)} {config : Tls13ClientConfig ξ}
  {entropy : Entropy} {draft : ClientHelloDraft} {hook : RealityHook}

/-- A session id in its place is read, and replaced by another. -/
theorem sessionId_spec {front sessionId : List Byte} (before : front.length = 38)
    (sized : sessionId.length = SESSION_ID_LEN) (behind : List Byte) :
    ¬ (front ++ 32 :: (sessionId ++ behind)).length < SESSION_ID_OFFSET + SESSION_ID_LEN ∧
      slice (front ++ 32 :: (sessionId ++ behind)) SESSION_ID_OFFSET SESSION_ID_LEN = sessionId ∧
      ∀ other : List Byte, other.length = SESSION_ID_LEN →
        writeAt (front ++ 32 :: (sessionId ++ behind)) SESSION_ID_OFFSET other =
          front ++ 32 :: (other ++ behind) := by
  have split : ∀ bytes : List Byte, front ++ 32 :: bytes = (front ++ [32]) ++ bytes := by
    simp
  have size : (front ++ [32]).length = SESSION_ID_OFFSET := by
    rw [List.length_append, before]
    rfl
  rw [split, slice_skip (Nat.le_of_eq size), size, Nat.sub_self]
  refine ⟨?_, slice_here sized behind, ?_⟩
  · simp [before, sized, SESSION_ID_OFFSET]
    omega
  · intro other sized'
    rw [writeAt_skip (Nat.le_of_eq size), size, Nat.sub_self,
      writeAt_here (sized.trans sized'.symm), ← split]

theorem fromBytes_toBytes (fields : SessionMeta) {shortId : List Byte}
    (short : shortId.length ≤ MAX_SHORT_ID_LEN) :
    ∃ plain, fields.toBytes shortId = .ok plain ∧ plain.length = SESSION_PLAIN_LEN ∧
      SessionMeta.fromBytes plain = (fields, (shortId.reverse.dropWhile (· = 0)).reverse) := by
  have version := fields.version.length_bytes
  have time := length_toBeBytes 4 fields.timestamp
  have rest : (shortId ++ List.replicate (MAX_SHORT_ID_LEN - shortId.length) 0).length = 8 := by
    rw [List.length_append, List.length_replicate]
    exact Nat.add_sub_cancel' short
  have padded : (shortId ++ List.replicate (MAX_SHORT_ID_LEN - shortId.length) 0).reverse.dropWhile
      (· = 0) = shortId.reverse.dropWhile (· = 0) := by
    rw [List.reverse_append, List.reverse_replicate, List.dropWhile_append_of_pos (by simp)]
  have written : Octets.written 3 fields.version.bytes = fields.version :=
    Octets.ext (List.take_left' version)
  rw [SessionMeta.toBytes, if_neg (Nat.not_lt.mpr short), List.append_assoc _ shortId]
  refine ⟨_, rfl, by simp only [List.length_append, version, time, rest]; rfl, ?_⟩
  generalize shortId ++ List.replicate (MAX_SHORT_ID_LEN - shortId.length) 0 = behind at rest padded
  generalize fields.version.bytes = front at version written
  have timed := ofNat_ofBeBytes fields.timestamp (show 2 ^ 32 ≤ 256 ^ 4 by decide)
  generalize toBeBytes 4 fields.timestamp = middle at time timed
  have first : slice (front ++ [0] ++ middle ++ behind) 0 3 = front := by
    simp [slice, version]
  have second : slice (front ++ [0] ++ middle ++ behind) 4 4 = middle := by
    rw [slice, List.append_assoc, List.drop_left' (by simp [version]), List.take_left' time]
  have third : slice (front ++ [0] ++ middle ++ behind) 8 8 = behind := by
    rw [slice, List.drop_left' (by simp [version, time]), List.take_of_length_le (Nat.le_of_eq rest)]
  rw [SessionMeta.fromBytes, first, second, third, written, timed, padded]

theorem draftHello_keyShare (drafted : draftHello primitives tail config entropy = .ok draft) :
    draft.random.length = 32 ∧
      draft.keySharePublic = primitives.x25519PublicKey draft.keySharePrivate := by
  rw [draftHello] at drafted
  rcases bind_eq_ok_iff.mp drafted with ⟨_, _, drafted⟩
  rcases bind_eq_ok_iff.mp drafted with ⟨random, _, drafted⟩
  rcases bind_eq_ok_iff.mp drafted with ⟨privateKey, _, drafted⟩
  rcases bind_eq_ok_iff.mp drafted with ⟨raw, built, drafted⟩
  rw [← pure_eq_ok_iff.mp drafted]
  exact ⟨random.length_bytes, rfl⟩

/-- The server behind the hook's public key opens the session id of every hello that the hook
has sealed, and finds the version, the time and the short id. -/
theorem unseals_onClientHello (opens : primitives.Opens)
    (commutes : ∀ first second, primitives.x25519 first (primitives.x25519PublicKey second) =
      primitives.x25519 second (primitives.x25519PublicKey first))
    (drafted : draftHello primitives tail config entropy = .ok draft) {serverPrivate : List Byte}
    (known : hook.serverPublic = primitives.x25519PublicKey serverPrivate)
    (short : hook.shortId.length ≤ MAX_SHORT_ID_LEN) :
    ∃ raw, hook.onClientHello primitives draft = .ok raw ∧
      unsealSessionId primitives (deriveAuthKey primitives
        (primitives.x25519 serverPrivate draft.keySharePublic) draft.random) draft.random raw =
          .ok (hook.fields, (hook.shortId.reverse.dropWhile (· = 0)).reverse) := by
  rcases draftHello_raw drafted with ⟨_, front, behind, before, raw_eq⟩
  rcases draftHello_keyShare drafted with ⟨random, share⟩
  rcases fromBytes_toBytes hook.fields short with ⟨plain, encoded, size, decoded⟩
  have shared : primitives.x25519 serverPrivate draft.keySharePublic =
      primitives.x25519 draft.keySharePrivate hook.serverPublic := by
    rw [share, known, commutes]
  change draft.raw = front ++ 32 :: (List.replicate SESSION_ID_LEN 0 ++ behind) at raw_eq
  have zeros : (List.replicate SESSION_ID_LEN (0 : Byte)).length = SESSION_ID_LEN :=
    List.length_replicate
  rcases sessionId_spec before zeros behind with ⟨long, _, replaced⟩
  rw [← raw_eq] at long replaced
  rw [shared]
  unfold RealityHook.onClientHello sealSessionId
  dsimp only
  generalize deriveAuthKey primitives _ _ = authKey
  rcases opens.opens SUITE_AES_256 authKey (slice draft.random 20 12) plain draft.raw
    (length_slice (by rw [random])) with ⟨sealed, encrypted, tagged, decrypted⟩
  have sized : sealed.length = SESSION_ID_LEN := by
    rw [tagged, size]
    rfl
  rcases sessionId_spec before sized behind with ⟨long', read, replaced'⟩
  refine ⟨front ++ 32 :: (sealed ++ behind), ?_, ?_⟩
  · rw [if_neg long, encoded]
    dsimp only [bind, Except.bind]
    rw [replaced _ zeros, ← raw_eq, encrypted]
    dsimp only
    rw [if_neg (not_not.mpr sized), replaced _ sized]
    rfl
  · rw [unsealSessionId, if_neg long', read, replaced' _ zeros, ← raw_eq]
    dsimp only
    rw [decrypted]
    dsimp only
    rw [if_neg (not_not.mpr size), decoded]

end Sealed

namespace Plain

/-- A connection whose hello is sealed. -/
def config : Tls13ClientConfig (List Byte) where
  serverName := "a"
  helloHook := some (RealityHook.onClientHello Tls13.Plain.primitives
    ⟨[1], [2, 3], ⟨.filled 3 1, 5⟩⟩)

theorem unseals_plain :
    ∃ draft raw authKey, draftHello Tls13.Plain.primitives Tls13.Plain.tail config
        Tls13.Plain.entropy = .ok draft ∧
      unsealSessionId Tls13.Plain.primitives authKey draft.random raw =
        .ok (⟨.filled 3 1, 5⟩, [2, 3]) := by
  have drafted : ∃ draft, draftHello Tls13.Plain.primitives Tls13.Plain.tail config
      Tls13.Plain.entropy = .ok draft := ⟨_, rfl⟩
  rcases drafted with ⟨draft, drafted⟩
  rcases @unseals_onClientHello _ _ _ _ _ _ ⟨[1], [2, 3], ⟨.filled 3 1, 5⟩⟩ Tls13.Plain.opens
    (fun _ _ => List.zipWith_comm_of_comm BitVec.add_comm) drafted [1] rfl (by decide) with
    ⟨raw, _, opened⟩
  exact ⟨draft, raw, _, drafted, opened⟩

/-- The session id that it sends: what was sealed and a tag. -/
def sealedId : List Byte :=
  [1, 1, 1, 0, 0, 0, 0, 5, 2, 3, 0, 0, 0, 0, 0, 0] ++ List.replicate 12 7 ++ List.replicate 4 0xdf

/-- A hello with a sealed id. -/
def hello : AssembledHello where
  clientHello := [1, 0, 0, 67, 3, 3] ++ List.replicate 32 7 ++ [32] ++ sealedId
  sentSessionId := List.replicate 32 0
  privateKey := List.replicate 32 9

/-- A server that echoes the sealed session id is rejected for its echo. -/
theorem rejects_sealed_echo :
    ¬ ChecksEcho Tls13.Plain.primitives Tls13.Plain.tail config Tls13.Plain.entropy := by
  intro checks
  have assembled : assembleHello Tls13.Plain.primitives Tls13.Plain.tail config
      Tls13.Plain.entropy = .ok hello := by
    decide +kernel
  have sent : ∃ outgoing', sendHello config hello {} = (.ok (), outgoing') := ⟨_, rfl⟩
  rcases sent with ⟨outgoing', sent⟩
  have short : sealedId.length < 256 := by decide
  have parsed : parseServerHello ((echoMessage sealedId).drop 4) =
      .ok ⟨sealedId, SUITE_AES_128, List.replicate 32 5⟩ := by
    decide +kernel
  have found := readHelloRecord_echoMessage short
  have first := serverHelloMessage_echoMessage short
  have echoes : sealedId = wireSessionId hello.clientHello := by decide +kernel
  rcases (checks _ _ _ _ _ _ _ _ assembled sent found first parsed).1 echoes with
    ⟨handshake, _, passed, _⟩
  have ended : connectFlight Tls13.Plain.primitives config handshake ⟨[], []⟩ outgoing' =
      some (.error (.io "connection closed during a record read")) := rfl
  have rejected := connect_of_serverHello assembled sent found first
  rw [greet_of_other parsed (by decide), passed, ended] at rejected
  cases rejected

end Plain

end Corduit.Protocol.Reality
