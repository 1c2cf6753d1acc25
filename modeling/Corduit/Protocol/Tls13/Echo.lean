import Corduit.Protocol.Tls13.Client

/-!
# TLS 1.3: the echo of the session id

A server echoes the session id that it received.  The client compares the echo
with the session id that it drafted, before a hook rewrote the hello, so the
comparison is with the bytes that were sent exactly when the hook left the
session id as it was.
-/

namespace Corduit.Protocol.Tls13

open Transition Transport Word

/-- The session id of a ClientHello, behind its length. -/
def wireSessionId (raw : List Byte) : List Byte :=
  slice raw SESSION_ID_OFFSET (raw.getD (SESSION_ID_OFFSET - 1) 0).toNat

section Draft

variable {ξ : Type} {primitives : Primitives ξ}
  {tail : ClientHelloSpec → Except Tls13Error (List Byte)} {config : Tls13ClientConfig ξ}
  {entropy : Entropy} {draft : ClientHelloDraft} {hello : AssembledHello}

/-- A hello has 38 bytes before the length of its session id. -/
theorem buildClientHello_raw {spec : ClientHelloSpec} {raw : List Byte}
    (built : buildClientHello tail spec = .ok raw) :
    ∃ front behind : List Byte, front.length = 38 ∧
      raw = front ++ 32 :: (spec.sessionId.bytes ++ behind) := by
  rw [buildClientHello] at built
  rcases bind_eq_ok_iff.mp built with ⟨behind, _, built⟩
  rw [← pure_eq_ok_iff.mp built, hsMessage]
  have three := length_toBeBytes 3 (BitVec.ofNat 32 ([3, 3] ++ spec.random.bytes ++
    [BitVec.ofNat 8 spec.sessionId.bytes.length] ++ spec.sessionId.bytes ++ behind).length)
  generalize toBeBytes 3 _ = size at three
  refine ⟨HS_CLIENT_HELLO :: (size ++ [3, 3] ++ spec.random.bytes), behind, ?_, ?_⟩
  · simp [three]
  · simp

/-- The session id of a draft is zeros. -/
theorem draftHello_raw (drafted : draftHello primitives tail config entropy = .ok draft) :
    draft.sessionIdOffset = SESSION_ID_OFFSET ∧ ∃ front behind : List Byte, front.length = 38 ∧
      draft.raw = front ++ 32 :: (List.replicate 32 0 ++ behind) := by
  rw [draftHello] at drafted
  rcases bind_eq_ok_iff.mp drafted with ⟨_, _, drafted⟩
  rcases bind_eq_ok_iff.mp drafted with ⟨random, _, drafted⟩
  rcases bind_eq_ok_iff.mp drafted with ⟨privateKey, _, drafted⟩
  rcases bind_eq_ok_iff.mp drafted with ⟨raw, built, drafted⟩
  rw [← pure_eq_ok_iff.mp drafted]
  exact ⟨rfl, buildClientHello_raw built⟩

theorem wireSessionId_draft {front rest sessionId : List Byte} (before : front.length = 38)
    (length_eq : sessionId.length = 32) :
    wireSessionId (front ++ 32 :: (sessionId ++ rest)) = sessionId := by
  have count : (front ++ 32 :: (sessionId ++ rest)).getD (SESSION_ID_OFFSET - 1) 0 = 32 := by
    rw [List.getD_eq_getElem?_getD, List.getElem?_append_right (by rw [before]; decide), before]
    rfl
  have split : front ++ 32 :: (sessionId ++ rest) = (front ++ [32]) ++ (sessionId ++ rest) := by
    simp
  rw [wireSessionId, count, split, slice_skip (by rw [List.length_append, before]; decide),
    List.length_append, before]
  exact slice_here length_eq rest

/-- The hook leaves the session id of a draft as it is. -/
def KeepsSessionId (config : Tls13ClientConfig ξ) (draft : ClientHelloDraft) : Prop :=
  ∀ hook, config.helloHook = some hook → ∀ raw, hook draft = .ok raw →
    wireSessionId raw = wireSessionId draft.raw

/-- The session id that is compared is the one that was drafted. -/
theorem sentSessionId_assembleHello
    (assembled : assembleHello primitives tail config entropy = .ok hello) :
    ∃ draft, draftHello primitives tail config entropy = .ok draft ∧
      hello.sentSessionId = wireSessionId draft.raw ∧
      (config.helloHook = none → hello.clientHello = draft.raw) ∧
      ∀ hook, config.helloHook = some hook → hook draft = .ok hello.clientHello := by
  rw [assembleHello] at assembled
  rcases bind_eq_ok_iff.mp assembled with ⟨draft, drafted, assembled⟩
  rcases draftHello_raw drafted with ⟨offset, front, behind, before, raw_eq⟩
  have sent : slice draft.raw draft.sessionIdOffset 32 = wireSessionId draft.raw := by
    have count : wireSessionId draft.raw = List.replicate 32 0 := by
      rw [raw_eq]
      exact wireSessionId_draft before List.length_replicate
    have split : front ++ 32 :: (List.replicate 32 0 ++ behind) =
        (front ++ [32]) ++ (List.replicate 32 0 ++ behind) := by
      simp
    rw [count, offset, raw_eq, split,
      slice_skip (by rw [List.length_append, before]; decide), List.length_append, before]
    exact slice_here List.length_replicate behind
  refine ⟨draft, drafted, ?_⟩
  dsimp only at assembled
  cases hooked : config.helloHook with
  | none =>
      rw [hooked] at assembled
      rw [← pure_eq_ok_iff.mp assembled]
      exact ⟨sent, fun _ => rfl, nofun⟩
  | some hook =>
      rw [hooked] at assembled
      dsimp only at assembled
      rcases bind_eq_ok_iff.mp assembled with ⟨raw, rewritten, assembled⟩
      rw [← pure_eq_ok_iff.mp assembled]
      refine ⟨sent, nofun, ?_⟩
      rintro _ ⟨⟩
      exact rewritten

end Draft

/-- What stands before the session id of a ServerHello. -/
def echoFront (length : Nat) : List Byte :=
  [3, 3] ++ List.replicate 32 7 ++ [BitVec.ofNat 8 length]

/-- What stands behind it: the suite 0x1301 and a key share. -/
def echoRest : List Byte :=
  [0x13, 0x01, 0, 0, 40, 0, 51, 0, 36, 0, 0x1d, 0, 32] ++ List.replicate 32 5

/-- A ServerHello that echoes a session id. -/
def echoBody (echo : List Byte) : List Byte :=
  echoFront echo.length ++ echo ++ echoRest

theorem length_echoBody (echo : List Byte) : (echoBody echo).length = 80 + echo.length := by
  have front : (echoFront echo.length).length = 35 := rfl
  have rest : echoRest.length = 45 := rfl
  rw [echoBody, List.length_append, List.length_append, front, rest]
  omega

theorem parseServerHello_echoBody {echo : List Byte} (short : echo.length < 256) :
    parseServerHello (echoBody echo) = .ok ⟨echo, SUITE_AES_128, List.replicate 32 5⟩ := by
  have front : (echoFront echo.length ++ echo).length = 35 + echo.length := by
    rw [List.length_append]
    rfl
  have drops : ∀ count, (echoBody echo).drop (35 + echo.length + count) = echoRest.drop count := by
    intro count
    rw [echoBody, ← front, List.drop_append]
    simp
  have random : slice (echoBody echo) 2 32 = List.replicate 32 7 := by
    have split : echoBody echo = [3, 3] ++ (List.replicate 32 7 ++
        ([BitVec.ofNat 8 echo.length] ++ echo ++ echoRest)) := by
      simp [echoBody, echoFront]
    rw [split, slice_skip (by decide : ([3, 3] : List Byte).length ≤ 2)]
    exact slice_here List.length_replicate _
  have sidLen : ((echoBody echo).getD 34 0).toNat = echo.length := by
    change (BitVec.ofNat 8 echo.length).toNat = echo.length
    rw [BitVec.toNat_ofNat, Nat.mod_eq_of_lt short]
  have suite : slice (echoBody echo) (35 + echo.length) 2 = [0x13, 0x01] := by
    rw [slice, ← Nat.add_zero (35 + echo.length), drops]
    rfl
  have method : (echoBody echo).getD (37 + echo.length) 0 = 0 := by
    have two := drops 2
    rw [List.getD_eq_getElem?_getD, ← Nat.zero_add (37 + echo.length), Nat.add_comm 0,
      show 37 + echo.length = 35 + echo.length + 2 by omega, ← List.getElem?_drop, two]
    rfl
  have sessionId : slice (echoBody echo) 35 echo.length = echo := by
    have behind : (echoFront echo.length).length ≤ 35 := Nat.le_refl 35
    rw [echoBody, List.append_assoc, slice_skip behind]
    exact slice_here rfl _
  have extensions : (echoBody echo).drop (38 + echo.length) = echoRest.drop 3 := by
    rw [show 38 + echo.length = 35 + echo.length + 3 by omega, drops]
  have shares : parseExtensions (echoRest.drop 3) =
      .ok [(EXT_KEY_SHARE, [0, 0x1d, 0, 32] ++ List.replicate 32 5)] := by
    decide +kernel
  have share : parseKeyShare [(EXT_KEY_SHARE, [0, 0x1d, 0, 32] ++ List.replicate 32 5)] =
      .ok (List.replicate 32 5) := by
    decide +kernel
  rw [parseServerHello, random, sidLen, suite, method, sessionId, extensions, length_echoBody, if_neg (by omega),
    if_neg (by decide), if_neg (by decide), if_neg (by omega), if_neg (by decide),
    if_neg (by simp), shares]
  dsimp only [bind, Except.bind]
  rw [share]
  rfl

/-- The message and the record of such a ServerHello. -/
def echoMessage (echo : List Byte) : List Byte :=
  hsMessage HS_SERVER_HELLO (echoBody echo)

theorem readRecord_plaintextRecord (contentType : Byte) {payload : List Byte}
    (short : payload.length ≤ MAX_CIPHERTEXT) :
    readRecord ⟨plaintextRecord contentType payload, []⟩ =
      (.ok (contentType, payload), ⟨[], []⟩) := by
  have spelt : ∃ high low, toBeBytes 2 (BitVec.ofNat 16 payload.length) = [high, low] ∧
      ofBeBytes [high, low] = payload.length := by
    refine ⟨_, _, rfl, ?_⟩
    have back := ofBeBytes_toBeBytes 2 (BitVec.ofNat 16 payload.length)
    have small : payload.length < 2 ^ 16 := Nat.lt_of_le_of_lt short (by decide)
    rw [BitVec.toNat_ofNat, Nat.mod_eq_of_lt small] at back
    exact back.trans (Nat.mod_eq_of_lt small)
  rcases spelt with ⟨high, low, bytes_eq, len_eq⟩
  have header : readExact ⟨plaintextRecord contentType payload, []⟩ 5 =
      (.ok [contentType, 3, 3, high, low], ⟨payload, []⟩) := by
    simp [readExact, Incoming.fill, Incoming.fillFrom, plaintextRecord, bytes_eq]
  have body : readExact ⟨payload, []⟩ payload.length = (.ok payload, ⟨[], []⟩) := by
    simp [readExact, Incoming.fill, Incoming.fillFrom]
  have parsed : parseRecordHeader [contentType, 3, 3, high, low] =
      .ok (contentType, payload.length) := by
    rw [parseRecordHeader, len_eq, if_neg (by decide), if_neg (Nat.not_lt.mpr short)]
  rw [readRecord, header]
  dsimp only
  rw [parsed]
  dsimp only
  rw [body]

theorem readHelloRecord_echoMessage {echo : List Byte} (short : echo.length < 256) :
    readHelloRecord ⟨plaintextRecord CONTENT_HANDSHAKE (echoMessage echo), []⟩ =
      some (.ok (echoMessage echo), ⟨[], []⟩) := by
  have length_eq : (echoMessage echo).length = 84 + echo.length := by
    simp only [echoMessage, hsMessage, List.cons_append, List.length_cons, List.length_append,
      length_toBeBytes, length_echoBody]
    omega
  have fits : (echoMessage echo).length ≤ MAX_CIPHERTEXT := by
    have most : 84 + 255 ≤ MAX_CIPHERTEXT := by decide
    omega
  rw [readHelloRecord, loop, helloTurn, readRecord_plaintextRecord _ fits]
  rfl

theorem serverHelloMessage_echoMessage {echo : List Byte} (short : echo.length < 256) :
    serverHelloMessage (echoMessage echo) = .ok (echoMessage echo) := by
  have long := length_echoBody echo
  have found := @readHsMessage_hsMessage HS_SERVER_HELLO (echoBody echo) (by omega) []
  rw [List.append_nil] at found
  have whole : (echoMessage echo).take (4 + (echoBody echo).length) = echoMessage echo := by
    refine List.take_of_length_le ?_
    simp only [echoMessage, hsMessage, List.cons_append, List.length_cons, List.length_append,
      length_toBeBytes]
    omega
  rw [serverHelloMessage, echoMessage, found]
  dsimp only
  rw [if_neg (by decide)]
  exact congrArg Except.ok whole

theorem parseServerHello_suite {body : List Byte} {serverHello : ServerHello}
    (parsed : parseServerHello body = .ok serverHello) :
    isSupportedSuite serverHello.suite = true := by
  unfold parseServerHello at parsed
  dsimp only at parsed
  split at parsed
  · cases parsed
  split at parsed
  · cases parsed
  split at parsed
  · cases parsed
  split at parsed
  · cases parsed
  split at parsed
  · cases parsed
  case isFalse supported =>
    split at parsed
    · cases parsed
    rcases bind_eq_ok_iff.mp parsed with ⟨extensions, _, parsed⟩
    rcases bind_eq_ok_iff.mp parsed with ⟨keyShare, _, parsed⟩
    rw [← pure_eq_ok_iff.mp parsed]
    simpa using supported

section Check

variable {ξ : Type} {primitives : Primitives ξ}
  {tail : ClientHelloSpec → Except Tls13Error (List Byte)} {config : Tls13ClientConfig ξ}
  {entropy : Entropy} {hello : AssembledHello} {message : List Byte} {serverHello : ServerHello}

theorem greet_of_echo (parsed : parseServerHello (message.drop 4) = .ok serverHello)
    (same : serverHello.legacySessionIdEcho = hello.sentSessionId) :
    ∃ handshake, greet primitives hello message = .ok handshake := by
  have supported := parseServerHello_suite parsed
  unfold greet
  rw [parsed]
  dsimp only [bind, Except.bind]
  rw [if_neg (not_not.mpr same)]
  simp only [TrafficKey.derive, if_pos supported]
  exact ⟨_, rfl⟩

theorem greet_of_other (parsed : parseServerHello (message.drop 4) = .ok serverHello)
    (other : serverHello.legacySessionIdEcho ≠ hello.sentSessionId) :
    greet primitives hello message = .error echoMismatch := by
  unfold greet
  rw [parsed]
  dsimp only [bind, Except.bind]
  rw [if_pos other]

theorem sent_sendHello {outgoing outgoing' : Outgoing}
    (sent : sendHello config hello outgoing = (.ok (), outgoing')) :
    ∃ behind, outgoing'.sent =
      outgoing.sent ++ plaintextRecord CONTENT_HANDSHAKE hello.clientHello ++ behind := by
  unfold sendHello at sent
  split at sent
  · cases sent
  case h_2 first written =>
    split at sent
    · split at sent
      · cases sent
      case h_2 second written' =>
        cases sent
        rw [Outgoing.sent_of_writeAll written', Outgoing.sent_of_writeAll written]
        exact ⟨_, rfl⟩
    · cases sent
      rw [Outgoing.sent_of_writeAll written]
      exact ⟨[], (List.append_nil _).symm⟩

/-- A connection whose hello is sent and whose ServerHello parses goes on when the
ServerHello echoes the session id on the wire, and is rejected for it when it
echoes another; its transcript starts with the bytes that were sent. -/
def ChecksEcho (primitives : Primitives ξ)
    (tail : ClientHelloSpec → Except Tls13Error (List Byte)) (config : Tls13ClientConfig ξ)
    (entropy : Entropy) : Prop :=
  ∀ hello incoming incoming' outgoing outgoing' payload message serverHello,
    assembleHello primitives tail config entropy = .ok hello →
    sendHello config hello outgoing = (.ok (), outgoing') →
    readHelloRecord incoming = some (.ok payload, incoming') →
    serverHelloMessage payload = .ok message →
    parseServerHello (message.drop 4) = .ok serverHello →
      (serverHello.legacySessionIdEcho = wireSessionId hello.clientHello →
        ∃ handshake behind, connect primitives config tail entropy incoming outgoing =
            connectFlight primitives config handshake incoming' outgoing' ∧
          handshake.transcript = hello.clientHello ++ message ∧
          outgoing'.sent =
            outgoing.sent ++ plaintextRecord CONTENT_HANDSHAKE hello.clientHello ++ behind) ∧
      (serverHello.legacySessionIdEcho ≠ wireSessionId hello.clientHello →
        connect primitives config tail entropy incoming outgoing = some (.error echoMismatch))

/-- The echo is compared with the session id that was drafted. -/
theorem connect_of_serverHello {incoming incoming' : Incoming} {outgoing outgoing' : Outgoing}
    {payload : List Byte} (assembled : assembleHello primitives tail config entropy = .ok hello)
    (sent : sendHello config hello outgoing = (.ok (), outgoing'))
    (found : readHelloRecord incoming = some (.ok payload, incoming'))
    (first : serverHelloMessage payload = .ok message) :
    connect primitives config tail entropy incoming outgoing =
      match greet primitives hello message with
      | .error error => some (.error error)
      | .ok handshake => connectFlight primitives config handshake incoming' outgoing' := by
  cases answered : greet primitives hello message with
  | error error =>
      rw [connect, assembled]
      dsimp only
      rw [sent]
      dsimp only
      rw [found]
      dsimp only
      rw [first]
      dsimp only
      rw [answered]
  | ok handshake =>
      rw [connect, assembled]
      dsimp only
      rw [sent]
      dsimp only
      rw [found]
      dsimp only
      rw [first]
      dsimp only
      rw [answered]

/-- A connection checks the echo against the session id on the wire exactly when the
hook leaves the session id of what is drafted as it is. -/
theorem checksEcho_iff (primitives : Primitives ξ)
    (tail : ClientHelloSpec → Except Tls13Error (List Byte)) (config : Tls13ClientConfig ξ)
    (entropy : Entropy) :
    ChecksEcho primitives tail config entropy ↔
      ∀ draft, draftHello primitives tail config entropy = .ok draft →
        KeepsSessionId config draft := by
  constructor
  · intro checks draft drafted hook hooked raw rewritten
    rcases draftHello_raw drafted with ⟨offset, _⟩
    have assembled : assembleHello primitives tail config entropy =
        .ok ⟨raw, slice draft.raw draft.sessionIdOffset 32, draft.keySharePrivate⟩ := by
      rw [assembleHello, drafted, hooked]
      dsimp only [bind, Except.bind]
      rw [rewritten]
      rfl
    -- The server echoes what it received.
    have short : (wireSessionId raw).length < 256 := by
      rw [wireSessionId, slice, List.length_take]
      exact Nat.lt_of_le_of_lt (Nat.min_le_left _ _) (BitVec.isLt _)
    have drop : (echoMessage (wireSessionId raw)).drop 4 = echoBody (wireSessionId raw) := by
      have four : (HS_SERVER_HELLO :: toBeBytes 3 (BitVec.ofNat 32
          (echoBody (wireSessionId raw)).length)).length = 4 := by
        rw [List.length_cons, length_toBeBytes]
      exact List.drop_left' four
    have parsed := parseServerHello_echoBody short
    rw [← drop] at parsed
    have sent : ∃ outgoing', sendHello config
        ⟨raw, slice draft.raw draft.sessionIdOffset 32, draft.keySharePrivate⟩ {} =
          (.ok (), outgoing') := by
      unfold sendHello
      dsimp only [Outgoing.writeAll]
      split
      · exact ⟨_, rfl⟩
      · exact ⟨_, rfl⟩
    rcases sent with ⟨outgoing', sent⟩
    have passes := (checks _ _ _ _ _ _ _ _ assembled sent (readHelloRecord_echoMessage short)
      (serverHelloMessage_echoMessage short) parsed).1 rfl
    rcases sentSessionId_assembleHello assembled with ⟨_, again, compared, _⟩
    rw [drafted] at again
    cases again
    by_contra other
    have rejected := connect_of_serverHello assembled sent (readHelloRecord_echoMessage short)
      (serverHelloMessage_echoMessage short)
    rw [greet_of_other parsed (by rw [compared]; exact other)] at rejected
    rcases passes with ⟨handshake, _, passed, _⟩
    -- Behind the record of the ServerHello nothing is to be read.
    have ended : connectFlight primitives config handshake ⟨[], []⟩ outgoing' =
        some (.error (.io "connection closed during a record read")) := rfl
    rw [passed, ended] at rejected
    cases rejected
  · intro keeps hello incoming incoming' outgoing outgoing' payload message serverHello assembled
      sent found first parsed
    have continues := connect_of_serverHello assembled sent found first
    rcases sentSessionId_assembleHello assembled with ⟨draft, drafted, compared, unhooked, hooked⟩
    have kept : hello.sentSessionId = wireSessionId hello.clientHello := by
      rw [compared]
      cases present : config.helloHook with
      | none => rw [unhooked present]
      | some hook => exact (keeps draft drafted hook present _ (hooked hook present)).symm
    rw [← kept, continues]
    constructor
    · intro same
      rcases greet_of_echo parsed same with ⟨handshake, greeted⟩
      rcases sent_sendHello sent with ⟨behind, bytes⟩
      rcases greet_spec greeted with ⟨_, _, transcript, _⟩
      rw [greeted]
      exact ⟨handshake, behind, rfl, transcript, bytes⟩
    · intro other
      rw [greet_of_other parsed other]

end Check

end Corduit.Protocol.Tls13
