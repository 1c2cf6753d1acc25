import Corduit.Protocol.Quic.Tls.Acceptance

/-!
# The flight of the server

A handshake should complete only through a ServerHello, EncryptedExtensions, a
Certificate, a CertificateVerify and a Finished, in this order.  What each
message needs is checked where it is handled: a CertificateVerify needs a
Certificate and a Finished needs both, but EncryptedExtensions need no
ServerHello and a Certificate needs no EncryptedExtensions.
-/

namespace Corduit.Protocol.Quic

open Transition Word

/-- A complete handshake message: its type, its body and its bytes. -/
structure HsMessage where
  kind : Byte
  body : List Byte
  bytes : List Byte
  deriving DecidableEq, Repr

/-- A ServerHello brings a suite and, with the ClientHello, the secrets. -/
structure Greets {κ ξ : Type} (library : TlsLibrary κ ξ) (clientHello : List Byte)
    (message : HsMessage) (suite : Nat) (secrets : HandshakeSecrets) : Prop where
  kind : message.kind = HS_SERVER_HELLO
  brings : ∃ serverPub, parseServerHello message.body = .ok (suite, serverPub) ∧
    secrets = library.handshakeSecrets suite serverPub (clientHello ++ message.bytes)

/-- The messages are one full flight: each of the five once and in order, the
chain and the host name checked, the signature over the transcript through the
Certificate and the Finished over the transcript through the CertificateVerify,
with the key schedule of the suite. -/
def FullFlight {κ ξ : Type} (schedule : (suite : Nat) → TlsLibrary κ ξ) (serverName : String)
    (clientHello : List Byte) (messages : List HsMessage) : Prop :=
  ∃ sh ee cert cv fin suite secrets leaf, messages = [sh, ee, cert, cv, fin] ∧
    Greets (schedule suite) clientHello sh suite secrets ∧
    ee.kind = HS_ENCRYPTED_EXTENSIONS ∧
    cert.kind = HS_CERTIFICATE ∧ Certified (schedule suite) serverName cert.body leaf ∧
    cv.kind = HS_CERTIFICATE_VERIFY ∧ Verified (schedule suite) cv.body leaf
      (clientHello ++ [sh, ee, cert].flatMap (·.bytes)) ∧
    fin.kind = HS_FINISHED ∧ (schedule suite).finishedMac (some suite) secrets.serverHs
      (clientHello ++ [sh, ee, cert, cv].flatMap (·.bytes)) = fin.body

/-- How far a flight has come, message after message. -/
inductive Stage {κ ξ : Type} (library : TlsLibrary κ ξ) (serverName : String)
    (clientHello : List Byte) : List HsMessage → Tls13Client κ ξ → Prop where
  | opened {tls} (suite : tls.suite = none) (peerTp : tls.peerTp = none) (leaf : tls.leaf = none)
      (verified : tls.certVerifyDone = false) : Stage library serverName clientHello [] tls
  | greeted {tls sh chosen secrets} (hello : Greets library clientHello sh chosen secrets)
      (other : chosen ≠ SUITE_AES_256) (suite : tls.suite = some chosen)
      (brought : tls.secrets = some secrets) (peerTp : tls.peerTp = none) (leaf : tls.leaf = none)
      (verified : tls.certVerifyDone = false) : Stage library serverName clientHello [sh] tls
  | extended {tls sh chosen secrets ee} (hello : Greets library clientHello sh chosen secrets)
      (other : chosen ≠ SUITE_AES_256) (suite : tls.suite = some chosen)
      (brought : tls.secrets = some secrets) (kind : ee.kind = HS_ENCRYPTED_EXTENSIONS)
      (peerTp : tls.peerTp.isSome = true) (leaf : tls.leaf = none)
      (verified : tls.certVerifyDone = false) : Stage library serverName clientHello [sh, ee] tls
  | certified {tls sh chosen secrets ee cert certificate}
      (hello : Greets library clientHello sh chosen secrets)
      (other : chosen ≠ SUITE_AES_256) (suite : tls.suite = some chosen)
      (brought : tls.secrets = some secrets) (kind : ee.kind = HS_ENCRYPTED_EXTENSIONS)
      (peerTp : tls.peerTp.isSome = true) (kind' : cert.kind = HS_CERTIFICATE)
      (leaf : tls.leaf = some certificate)
      (checked : Certified library serverName cert.body certificate)
      (verified : tls.certVerifyDone = false) :
      Stage library serverName clientHello [sh, ee, cert] tls
  | verified {tls sh chosen secrets ee cert certificate cv}
      (hello : Greets library clientHello sh chosen secrets)
      (other : chosen ≠ SUITE_AES_256) (suite : tls.suite = some chosen)
      (brought : tls.secrets = some secrets) (kind : ee.kind = HS_ENCRYPTED_EXTENSIONS)
      (peerTp : tls.peerTp.isSome = true) (kind' : cert.kind = HS_CERTIFICATE)
      (leaf : tls.leaf = some certificate)
      (checked : Certified library serverName cert.body certificate)
      (kind'' : cv.kind = HS_CERTIFICATE_VERIFY)
      (signed : Verified library cv.body certificate
        (clientHello ++ [sh, ee, cert].flatMap (·.bytes)))
      (verified : tls.certVerifyDone = true) :
      Stage library serverName clientHello [sh, ee, cert, cv] tls
  | finished {tls messages} (suite : tls.suite.isSome = true) (peerTp : tls.peerTp.isSome = true)
      (leaf : tls.leaf.isSome = true) (verified : tls.certVerifyDone = true)
      (done : tls.serverFinished = true) : Stage library serverName clientHello messages tls

namespace Stage

variable {κ ξ : Type} {library : TlsLibrary κ ξ} {serverName : String} {clientHello : List Byte}
  {messages : List HsMessage} {tls tls' : Tls13Client κ ξ}

theorem congr (stage : Stage library serverName clientHello messages tls)
    (suite : tls'.suite = tls.suite) (secrets : tls'.secrets = tls.secrets)
    (peerTp : tls'.peerTp = tls.peerTp) (leaf : tls'.leaf = tls.leaf)
    (verified : tls'.certVerifyDone = tls.certVerifyDone)
    (done : tls'.serverFinished = tls.serverFinished) :
    Stage library serverName clientHello messages tls' := by
  cases stage with
  | opened none_ noTp nobody open_ =>
      exact opened (suite.trans none_) (peerTp.trans noTp) (leaf.trans nobody) (verified.trans open_)
  | greeted hello other chosen brought noTp nobody open_ =>
      exact greeted hello other (suite.trans chosen) (secrets.trans brought) (peerTp.trans noTp)
        (leaf.trans nobody) (verified.trans open_)
  | extended hello other chosen brought kind tp nobody open_ =>
      exact extended hello other (suite.trans chosen) (secrets.trans brought) kind (peerTp ▸ tp)
        (leaf.trans nobody) (verified.trans open_)
  | certified hello other chosen brought kind tp kind' known checked open_ =>
      exact certified hello other (suite.trans chosen) (secrets.trans brought) kind (peerTp ▸ tp)
        kind' (leaf.trans known) checked (verified.trans open_)
  | verified hello other chosen brought kind tp kind' known checked kind'' signed done =>
      exact Stage.verified hello other (suite.trans chosen) (secrets.trans brought) kind
        (peerTp ▸ tp) kind' (leaf.trans known) checked kind'' signed (verified.trans done)
  | finished chosen tp known signed fin =>
      exact finished (suite ▸ chosen) (peerTp ▸ tp) (leaf ▸ known) (verified.trans signed)
        (done.trans fin)

variable {message : HsMessage} {body bytes : List Byte}

section

variable (stage : Stage library serverName clientHello messages tls)

include stage

theorem hello (transcript : tls.transcript = clientHello ++ messages.flatMap (·.bytes))
    (kind : message.kind = HS_SERVER_HELLO)
    (other : ∀ suite serverPub, parseServerHello message.body = .ok (suite, serverPub) →
      suite ≠ SUITE_AES_256)
    (accepted : (tls.updateTranscript message.bytes).onServerHello library message.body =
      (.ok (), tls')) :
    Stage library serverName clientHello (messages ++ [message]) tls' := by
  rcases Tls13Client.onServerHello_spec accepted with ⟨⟨_, _, _, _, rfl⟩, brings⟩
  rcases brings rfl with ⟨first, chosen, serverPub, parsed, suite, secrets⟩
  have first : tls.suite = none := first
  cases stage with
  | opened _ noTp nobody open_ =>
      have greets : Greets library clientHello message chosen
          (library.handshakeSecrets chosen serverPub (clientHello ++ message.bytes)) :=
        ⟨kind, serverPub, parsed, rfl⟩
      refine greeted greets (other chosen serverPub parsed) suite (secrets.trans ?_) noTp nobody open_
      rw [Tls13Client.updateTranscript, transcript, List.flatMap_nil, List.append_nil]
  | greeted _ _ chosen => rw [chosen] at first; cases first
  | extended _ _ chosen => rw [chosen] at first; cases first
  | certified _ _ chosen => rw [chosen] at first; cases first
  | verified _ _ chosen => rw [chosen] at first; cases first
  | finished chosen => rw [first] at chosen; cases chosen

theorem extensions (kind : message.kind = HS_ENCRYPTED_EXTENSIONS) (suite : tls.suite.isSome = true)
    (accepted : (tls.updateTranscript message.bytes).onEncryptedExtensions message.body =
      (.ok (), tls')) :
    Stage library serverName clientHello (messages ++ [message]) tls' := by
  rcases Tls13Client.onEncryptedExtensions_spec accepted with ⟨⟨_, _, rfl⟩, brings⟩
  rcases brings rfl with ⟨first, tp⟩
  have first : tls.peerTp = none := first
  cases stage with
  | opened none_ => rw [none_] at suite; cases suite
  | greeted hello other chosen brought _ nobody open_ =>
      exact extended hello other chosen brought kind tp nobody open_
  | extended _ _ _ _ _ known => rw [first] at known; cases known
  | certified _ _ _ _ _ known => rw [first] at known; cases known
  | verified _ _ _ _ _ known => rw [first] at known; cases known
  | finished _ known => rw [first] at known; cases known

theorem certificate (verifies : tls.skipCertVerify = false) (named : tls.serverName = serverName)
    (kind : message.kind = HS_CERTIFICATE) (tp : tls.peerTp.isSome = true)
    (accepted : (tls.updateTranscript message.bytes).onCertificate library message.body =
      (.ok (), tls')) :
    Stage library serverName clientHello (messages ++ [message]) tls' := by
  have verifies : (tls.updateTranscript message.bytes).skipCertVerify = false := verifies
  rcases Tls13Client.onCertificate_spec verifies accepted with ⟨⟨_, rfl⟩, brings⟩
  rcases brings rfl with ⟨first, found, leaf, checked⟩
  have first : tls.leaf = none := first
  have checked : Certified library serverName message.body found := named ▸ checked
  cases stage with
  | opened _ noTp => rw [noTp] at tp; cases tp
  | greeted _ _ _ _ noTp => rw [noTp] at tp; cases tp
  | extended hello other chosen brought kind' known _ open_ =>
      exact certified hello other chosen brought kind' known kind leaf checked open_
  | certified _ _ _ _ _ _ _ known => rw [known] at first; cases first
  | verified _ _ _ _ _ _ _ known => rw [known] at first; cases first
  | finished _ _ known => rw [first] at known; cases known

theorem certificateVerify (transcript : tls.transcript = clientHello ++ messages.flatMap (·.bytes))
    (kind : message.kind = HS_CERTIFICATE_VERIFY)
    (accepted : tls.onCertificateVerify library message.body = (.ok (), tls')) :
    Stage library serverName clientHello (messages ++ [message]) tls' := by
  rcases Tls13Client.onCertificateVerify_spec accepted with ⟨⟨_, rfl⟩, brings⟩
  rcases brings rfl with ⟨first, done, found, leaf, signed⟩
  cases stage with
  | opened _ _ nobody => rw [nobody] at leaf; cases leaf
  | greeted _ _ _ _ _ nobody => rw [nobody] at leaf; cases leaf
  | extended _ _ _ _ _ _ nobody => rw [nobody] at leaf; cases leaf
  | certified hello other chosen brought kind' tp kind'' known checked _ =>
      cases known.symm.trans leaf
      rw [transcript] at signed
      exact verified hello other chosen brought kind' tp kind'' known checked kind signed done
  | verified _ _ _ _ _ _ _ _ _ _ _ open_ => rw [first] at open_; cases open_
  | finished _ _ _ open_ => rw [first] at open_; cases open_

end

theorem fullFlight {schedule : (suite : Nat) → TlsLibrary κ ξ}
    (stage : Stage library serverName clientHello messages tls)
    (transcript : tls.transcript = clientHello ++ messages.flatMap (·.bytes))
    (same : ∀ suite, suite ≠ SUITE_AES_256 → schedule suite = library)
    (kind : message.kind = HS_FINISHED)
    (checked : Tls13Client.FinishChecked library tls tls.transcript message.body) :
    FullFlight schedule serverName clientHello (messages ++ [message]) ∧
      tls.suite.isSome = true ∧ tls.peerTp.isSome = true := by
  have leaf := checked.leaf
  have signed := checked.verified
  cases stage with
  | opened _ _ nobody => rw [nobody] at leaf; cases leaf
  | greeted _ _ _ _ _ nobody => rw [nobody] at leaf; cases leaf
  | extended _ _ _ _ _ _ nobody => rw [nobody] at leaf; cases leaf
  | certified _ _ _ _ _ _ _ _ _ open_ => rw [open_] at signed; cases signed
  | @verified _ sh chosen secrets ee cert certificate cv hello other suite brought kind' tp kind''
      known certified kind''' signed _ =>
      have mac := checked.mac
      rw [suite, brought, transcript] at mac
      refine ⟨⟨sh, ee, cert, cv, message, chosen, secrets, certificate, rfl, ?_⟩, ?_, tp⟩
      · rw [same chosen other]
        exact ⟨hello, kind', kind'', certified, kind''', signed, kind, mac⟩
      · rw [suite]
        rfl
  | finished _ _ _ _ done =>
      have first := checked.first
      rw [done] at first
      cases first

end Stage

/-- The handshake, the messages that it handled, and whether it refused one. -/
structure Flight (κ ξ : Type) where
  tls : Tls13Client κ ξ
  handled : List HsMessage := []
  failed : Bool := false

namespace Flight

variable {κ ξ : Type} {library : TlsLibrary κ ξ} {flight : Flight κ ξ} {message : HsMessage}

/-- Handle one message. -/
def handle (library : TlsLibrary κ ξ) (flight : Flight κ ξ) (message : HsMessage) : Flight κ ξ :=
  let (result, tls) := flight.tls.onMessage library message.kind message.body message.bytes
  { tls := tls
    handled := flight.handled ++ [message]
    failed := flight.failed || !result.isOk }

/-- The messages that the loop of `consume_crypto` handles. -/
def messagesFrom (library : TlsLibrary κ ξ) : (bound : Nat) → List Byte → Tls13Client κ ξ →
    List HsMessage
  | 0, _, _ => []
  | bound + 1, buf, tls =>
      match takeHsMessage buf with
      | none => []
      | some (kind, body, rest) =>
          let bytes := buf.take (buf.length - rest.length)
          ⟨kind, body, bytes⟩ ::
            match tls.onMessage library kind body bytes with
            | (.error _, _) => []
            | (.ok (), tls) =>
                if kind = HS_FINISHED then [] else messagesFrom library bound rest tls

/-- The messages that `consume_crypto` handles of some bytes. -/
def messages (library : TlsLibrary κ ξ) (flight : Flight κ ξ) (buf : List Byte) : List HsMessage :=
  messagesFrom library buf.length buf flight.tls

/-- Feed some bytes to `consume_crypto`. -/
def feed (library : TlsLibrary κ ξ) (flight : Flight κ ξ) (buf : List Byte) : Flight κ ξ :=
  let (result, tls) := flight.tls.consumeCrypto library buf
  { tls := tls
    handled := flight.handled ++ flight.messages library buf
    failed := flight.failed || !result.isOk }

theorem run_messagesFrom (bound pos : Nat) (buf : List Byte) (flight : Flight κ ξ) :
    run (handle library) flight (messagesFrom library bound buf flight.tls) =
      { tls := (Tls13Client.consumeFrom library bound pos buf flight.tls).2
        handled := flight.handled ++ messagesFrom library bound buf flight.tls
        failed := flight.failed ||
          !(Tls13Client.consumeFrom library bound pos buf flight.tls).1.isOk } := by
  induction bound generalizing pos buf flight with
  | zero => simp [messagesFrom, Tls13Client.consumeFrom, Except.isOk, Except.toBool]
  | succ bound ih =>
      rw [messagesFrom, Tls13Client.consumeFrom]
      cases taken : takeHsMessage buf with
      | none => simp [Except.isOk, Except.toBool]
      | some parts =>
          rcases parts with ⟨kind, body, rest⟩
          dsimp only
          rcases accepted : flight.tls.onMessage library kind body
            (buf.take (buf.length - rest.length)) with ⟨result, middle⟩
          cases result with
          | error error =>
              simp [handle, accepted, Except.isOk, Except.toBool]
          | ok =>
              dsimp only
              split
              · simp [handle, accepted, Except.isOk, Except.toBool]
              · have later := ih (pos + (buf.length - rest.length)) rest
                  (flight.handle library ⟨kind, body, buf.take (buf.length - rest.length)⟩)
                simp only [handle, accepted, Except.isOk, Except.toBool, Bool.not_true,
                  Bool.or_false] at later
                simp [handle, accepted, later, Except.isOk, Except.toBool]

theorem feed_eq_run (flight : Flight κ ξ) (buf : List Byte) :
    flight.feed library buf = run (handle library) flight (flight.messages library buf) :=
  (run_messagesFrom buf.length 0 buf flight).symm

/-- What a flight that refused nothing keeps. -/
structure Orderly (library : TlsLibrary κ ξ) (serverName : String) (clientHello : List Byte)
    (flight : Flight κ ξ) : Prop where
  verifies : flight.tls.skipCertVerify = false
  named : flight.tls.serverName = serverName
  transcript : flight.tls.transcript = clientHello ++ flight.handled.flatMap (·.bytes)
  stage : Stage library serverName clientHello flight.handled flight.tls

/-- Nothing is handled behind a message that was refused, the suite is not the one
whose hash differs, and EncryptedExtensions and a Certificate find the message
before them. -/
structure InOrder (flight : Flight κ ξ) (message : HsMessage) : Prop where
  unfailed : flight.failed = false
  suite : message.kind = HS_SERVER_HELLO →
    (parseServerHello message.body).toOption.map Prod.fst ≠ some SUITE_AES_256
  extensions : message.kind = HS_ENCRYPTED_EXTENSIONS → flight.tls.suite.isSome = true
  certificate : message.kind = HS_CERTIFICATE → flight.tls.peerTp.isSome = true

instance (flight : Flight κ ξ) (message : HsMessage) : Decidable (InOrder flight message) :=
  decidable_of_iff
    (flight.failed = false ∧ (message.kind = HS_SERVER_HELLO →
      (parseServerHello message.body).toOption.map Prod.fst ≠ some SUITE_AES_256) ∧
      (message.kind = HS_ENCRYPTED_EXTENSIONS → flight.tls.suite.isSome = true) ∧
      (message.kind = HS_CERTIFICATE → flight.tls.peerTp.isSome = true))
    ⟨fun all => ⟨all.1, all.2.1, all.2.2.1, all.2.2.2⟩,
      fun inOrder => ⟨inOrder.unfailed, inOrder.suite, inOrder.extensions, inOrder.certificate⟩⟩

variable {serverName : String} {clientHello : List Byte}

theorem Orderly.accept {tls' : Tls13Client κ ξ}
    (orderly : Orderly library serverName clientHello flight) (inOrder : InOrder flight message)
    (accepted : flight.tls.onMessage library message.kind message.body message.bytes =
      (.ok (), tls')) :
    tls'.skipCertVerify = false ∧ tls'.serverName = serverName ∧
      Stage library serverName clientHello (flight.handled ++ [message]) tls' := by
  have ⟨verifies, named, transcript, stage⟩ := orderly
  rcases Tls13Client.onMessage_cases accepted with ⟨kind, accepted⟩ |
    ⟨kind, middle, verified, rfl⟩ | ⟨kind, accepted⟩ | ⟨kind, accepted⟩ | ⟨kind, accepted⟩
  · rcases Tls13Client.onServerFinished_spec accepted with ⟨_, refused⟩ | ⟨checked, _, _, _, rfl, _⟩
    · exact absurd rfl refused
    · have checked' : Tls13Client.FinishChecked library flight.tls flight.tls.transcript
          message.body := ⟨checked.first, checked.leaf, checked.verified, checked.mac⟩
      rcases stage.fullFlight transcript (fun _ _ => rfl) kind checked' with ⟨_, suite, tp⟩
      exact ⟨verifies, named, .finished suite tp checked.leaf checked.verified rfl⟩
  · rcases Tls13Client.onCertificateVerify_spec verified with ⟨⟨_, kept⟩, _⟩
    have next := stage.certificateVerify transcript kind verified
    refine ⟨?_, ?_, next.congr rfl rfl rfl rfl rfl rfl⟩
    · rw [kept]
      exact verifies
    · rw [kept]
      exact named
  · have other : ∀ suite serverPub, parseServerHello message.body = .ok (suite, serverPub) →
        suite ≠ SUITE_AES_256 := by
      intro suite serverPub parsed same
      refine inOrder.suite kind ?_
      rw [parsed, same]
      rfl
    have next := stage.hello transcript kind other accepted
    rcases Tls13Client.onServerHello_spec accepted with ⟨⟨_, _, _, _, rfl⟩, _⟩
    exact ⟨verifies, named, next⟩
  · have next := stage.extensions kind (inOrder.extensions kind) accepted
    rcases Tls13Client.onEncryptedExtensions_spec accepted with ⟨⟨_, _, rfl⟩, _⟩
    exact ⟨verifies, named, next⟩
  · have next := stage.certificate verifies named kind (inOrder.certificate kind) accepted
    have verifies' : (flight.tls.updateTranscript message.bytes).skipCertVerify = false := verifies
    rcases Tls13Client.onCertificate_spec verifies' accepted with ⟨⟨_, rfl⟩, _⟩
    exact ⟨verifies, named, next⟩

theorem Orderly.handle (orderly : Orderly library serverName clientHello flight)
    (inOrder : InOrder flight message) (unfailed : (flight.handle library message).failed = false) :
    Orderly library serverName clientHello (flight.handle library message) := by
  rcases accepted : flight.tls.onMessage library message.kind message.body message.bytes with
    ⟨result, tls'⟩
  unfold Flight.handle at unfailed ⊢
  rw [accepted] at unfailed ⊢
  cases result with
  | error error => simp [Except.isOk, Except.toBool] at unfailed
  | ok =>
      rcases orderly.accept inOrder accepted with ⟨verifies, named, stage⟩
      refine ⟨verifies, named, ?_, stage⟩
      rw [Tls13Client.transcript_onMessage accepted, orderly.transcript, List.flatMap_append,
        List.flatMap_singleton, List.append_assoc]

theorem Orderly.completes {schedule : (suite : Nat) → TlsLibrary κ ξ}
    (orderly : Orderly library serverName clientHello flight)
    (same : ∀ suite, suite ≠ SUITE_AES_256 → schedule suite = library)
    (open_ : flight.tls.isComplete = false)
    (complete : (flight.handle library message).tls.isComplete = true) :
    FullFlight schedule serverName clientHello (flight.handle library message).handled := by
  have becomes : (flight.tls.onMessage library message.kind message.body message.bytes).2.isComplete
      = true := complete
  by_cases kind : message.kind = HS_FINISHED
  · rw [Tls13Client.onMessage, if_pos kind] at becomes
    rcases finished : (flight.tls.updateTranscript message.bytes).onServerFinished library
      flight.tls.transcript message.body with ⟨result, tls'⟩
    rw [finished] at becomes
    rcases Tls13Client.onServerFinished_spec finished with ⟨rfl, _⟩ | ⟨checked, _⟩
    · have still : flight.tls.isComplete = true := becomes
      rw [open_] at still
      cases still
    · have checked' : Tls13Client.FinishChecked library flight.tls flight.tls.transcript
          message.body := ⟨checked.first, checked.leaf, checked.verified, checked.mac⟩
      exact (orderly.stage.fullFlight orderly.transcript same kind checked').1
  · rw [Tls13Client.isComplete_onMessage orderly.verifies kind, open_] at becomes
    cases becomes

/-- The messages of some bytes complete a handshake only through a full flight. -/
theorem completes_messagesFrom {schedule : (suite : Nat) → TlsLibrary κ ξ} {bound : Nat}
    {buf : List Byte} (same : ∀ suite, suite ≠ SUITE_AES_256 → schedule suite = library)
    (keeps : flight.failed = false → Orderly library serverName clientHello flight)
    (inOrder : RunMeets (Flight.handle library) InOrder flight
      (messagesFrom library bound buf flight.tls))
    (open_ : flight.tls.isComplete = false)
    (complete : (run (Flight.handle library) flight
      (messagesFrom library bound buf flight.tls)).tls.isComplete = true) :
    FullFlight schedule serverName clientHello
      (run (Flight.handle library) flight (messagesFrom library bound buf flight.tls)).handled := by
  induction bound generalizing flight buf with
  | zero =>
      rw [messagesFrom, run_nil, open_] at complete
      cases complete
  | succ bound ih =>
      rw [messagesFrom] at inOrder complete ⊢
      cases taken : takeHsMessage buf with
      | none =>
          rw [taken] at complete
          dsimp only at complete
          rw [run_nil, open_] at complete
          cases complete
      | some parts =>
          rcases parts with ⟨kind, body, rest⟩
          rw [taken] at inOrder complete
          dsimp only at inOrder complete ⊢
          have orderly := keeps inOrder.1.unfailed
          have tls_eq : (flight.handle library
              ⟨kind, body, buf.take (buf.length - rest.length)⟩).tls = (flight.tls.onMessage library
                kind body (buf.take (buf.length - rest.length))).2 := rfl
          rcases accepted : flight.tls.onMessage library kind body
            (buf.take (buf.length - rest.length)) with ⟨result, middle⟩
          rw [accepted] at inOrder complete tls_eq
          cases result with
          | error error => exact orderly.completes same open_ complete
          | ok =>
              dsimp only at inOrder complete tls_eq ⊢
              by_cases last : kind = HS_FINISHED
              · rw [if_pos last] at complete ⊢
                exact orderly.completes same open_ complete
              · rw [if_neg last] at inOrder complete ⊢
                have still : (flight.handle library ⟨kind, body,
                    buf.take (buf.length - rest.length)⟩).tls.isComplete = flight.tls.isComplete :=
                  Tls13Client.isComplete_onMessage orderly.verifies last
                rw [← tls_eq] at inOrder complete ⊢
                exact ih (orderly.handle inOrder.1) inOrder.2 (still.trans open_) complete

/-- The messages of some bytes are handled in order. -/
def Ordered (library : TlsLibrary κ ξ) (flight : Flight κ ξ) (buf : List Byte) : Prop :=
  RunMeets (Flight.handle library) InOrder flight (flight.messages library buf)

instance (library : TlsLibrary κ ξ) (flight : Flight κ ξ) (buf : List Byte) :
    Decidable (Ordered library flight buf) :=
  inferInstanceAs (Decidable (RunMeets _ _ _ _))

/-- When some bytes complete the handshake, what was handled is a full flight,
under the key schedule of the suite. -/
def Completes (primitives : TlsPrimitives κ ξ) (serverName : String) (clientHello : List Byte)
    (flight : Flight κ ξ) (buf : List Byte) : Prop :=
  flight.tls.isComplete = false → (flight.feed primitives.program buf).tls.isComplete = true →
    FullFlight primitives.negotiated serverName clientHello
      (flight.feed primitives.program buf).handled

/-- A handshake that verifies certificates, before the first bytes. -/
def start (serverName : String) (clientHello : List Byte) : Flight κ ξ where
  tls := .new serverName false clientHello

theorem orderly_start :
    Orderly library serverName clientHello (start serverName clientHello) :=
  ⟨rfl, rfl, (List.append_nil _).symm, .opened rfl rfl rfl rfl⟩

/-- A handshake whose messages are handled in order completes only through a full
flight. -/
theorem completes_of_ordered (primitives : TlsPrimitives κ ξ) (serverName : String)
    (clientHello : List Byte) (fed : List (List Byte))
    (ordered : RunMeets (feed primitives.program) (Ordered primitives.program)
      (start serverName clientHello) fed) :
    RunMeets (feed primitives.program) (Completes primitives serverName clientHello)
      (start serverName clientHello) fed := by
  refine runMeets_of_invariant
    (fun flight => flight.failed = false →
      Orderly primitives.program serverName clientHello flight) ?_ ?_ (fun _ => orderly_start) ordered
  · intro flight buf keeps inOrder open_ complete
    rw [feed_eq_run] at complete ⊢
    exact completes_messagesFrom (fun suite other => primitives.negotiated_eq_program other) keeps
      inOrder open_ complete
  · intro flight buf keeps inOrder
    rw [feed_eq_run]
    exact run_invariant_of_meets (fun flight => flight.failed = false →
        Orderly primitives.program serverName clientHello flight)
      (fun _ _ keeps inOrder => (keeps inOrder.unfailed).handle inOrder) keeps inOrder

end Flight

namespace Plain

/-- Hashes that only tell the functions apart, and message authentication codes
that are the hash in the length of the function. -/
def tlsPrimitives : TlsPrimitives Unit (List Byte) where
  hash := fun digest _ => match digest with
    | .sha256 => List.replicate 32 1
    | .sha384 => List.replicate 48 2
  extract := fun _ _ _ => []
  expandLabel := fun _ _ _ _ _ => []
  hmac := fun digest _ data => match digest with
    | .sha256 => data.take 32
    | .sha384 => data ++ List.replicate (48 - data.length) 0
  x25519 := id
  packetKey := fun _ _ => .ok ()
  parseCertificate := fun der => .ok der
  validateChain := fun _ => .ok ()
  hostnameMatches := fun _ _ => true
  verifySignature := fun _ _ _ signature => signature.isEmpty

/-- A Finished of another suite. -/
def finished256 : List Byte :=
  hsMessage HS_FINISHED (List.replicate 32 1)

/-- A ServerHello with the suite 0x1302. -/
def serverHello384 : List Byte :=
  hsMessage HS_SERVER_HELLO ([3, 3] ++ List.replicate 32 7 ++ [0, 0x13, 0x02, 0, 0, 40, 0, 51, 0, 36,
    0, 0x1d, 0, 32] ++ List.replicate 32 5)

/-- The code of SHA-384 over a hash of SHA-256. -/
def finished384 : List Byte :=
  hsMessage HS_FINISHED (List.replicate 32 1 ++ List.replicate 16 0)

end Plain

namespace Flight

open Plain

theorem completes_of_ordered_plain :
    (run (feed tlsPrimitives.program) (start "a" [1])
      [serverHello ++ encryptedExtensions, certificate ++ certificateVerify ++ finished256]).tls.isComplete
        = true ∧
      RunMeets (feed tlsPrimitives.program) (Completes tlsPrimitives "a" [1]) (start "a" [1])
        [serverHello ++ encryptedExtensions, certificate ++ certificateVerify ++ finished256] :=
  ⟨by decide +kernel, completes_of_ordered _ _ _ _ (by decide +kernel)⟩

theorem length_of_fullFlight {κ ξ : Type} {schedule : (suite : Nat) → TlsLibrary κ ξ}
    {serverName : String} {clientHello : List Byte} {messages : List HsMessage}
    (full : FullFlight schedule serverName clientHello messages) : messages.length = 5 := by
  rcases full with ⟨_, _, _, _, _, _, _, _, rfl, _⟩
  rfl

/-- EncryptedExtensions may be missing, and the transcript of a handshake with the
suite 0x1302 is hashed with SHA-256. -/
theorem completes_without_full_flight :
    ¬ Completes tlsPrimitives "a" [1] (start "a" [1])
        (serverHello ++ certificate ++ certificateVerify ++ finished256) ∧
      ¬ Completes tlsPrimitives "a" [1] (start "a" [1])
        (serverHello384 ++ encryptedExtensions ++ certificate ++ certificateVerify ++ finished384) := by
  constructor
  · intro completes
    have full := completes (by decide +kernel) (by decide +kernel)
    have four : ((start "a" [1]).feed tlsPrimitives.program
        (serverHello ++ certificate ++ certificateVerify ++ finished256)).handled.length = 4 := by
      decide +kernel
    have five := length_of_fullFlight full
    rw [four] at five
    cases five
  · intro completes
    rcases completes (by decide +kernel) (by decide +kernel) with
      ⟨sh, ee, cert, cv, fin, suite, secrets, _, same, _, _, _, _, _, _, _, mac⟩
    have last : (((start "a" [1]).feed tlsPrimitives.program (serverHello384 ++ encryptedExtensions ++
        certificate ++ certificateVerify ++ finished384)).handled.map (·.body)).getLast? =
        some (List.replicate 32 1 ++ List.replicate 16 0) := by
      decide +kernel
    rw [same] at last
    have body : fin.body = List.replicate 32 1 ++ List.replicate 16 0 := Option.some.inj last
    rw [body] at mac
    by_cases aes : some suite = some SUITE_AES_256
    · have digest_eq : suiteDigest (some suite) = .sha384 := if_pos aes
      simp [TlsPrimitives.negotiated, TlsPrimitives.library, TlsPrimitives.finishedMac, digest_eq,
        tlsPrimitives] at mac
    · have digest_eq : suiteDigest (some suite) = .sha256 := if_neg aes
      simp [TlsPrimitives.negotiated, TlsPrimitives.library, TlsPrimitives.finishedMac, digest_eq,
        tlsPrimitives] at mac

end Flight

end Corduit.Protocol.Quic
