import Corduit.Protocol.Quic.Tls.Messages

/-!
# What the handshake accepts

Each message of the server changes a few fields of the handshake.  When it is
accepted, the fields it depends on were still open, and its content passed the
checks.
-/

namespace Corduit.Protocol.Quic

open Word

namespace Tls13Client

variable {κ ξ : Type} {library : TlsLibrary κ ξ} {tls tls' : Tls13Client κ ξ} {body : List Byte}
  {result : Except QuicError Unit}

theorem onServerHello_spec (handled : tls.onServerHello library body = (result, tls')) :
    (∃ suite secrets hsWrite hsRead, tls' = { tls with
      suite := suite
      secrets := secrets
      hsWrite := hsWrite
      hsRead := hsRead }) ∧
      (result = .ok () → tls.suite = none ∧ ∃ suite serverPub,
        parseServerHello body = .ok (suite, serverPub) ∧ tls'.suite = some suite ∧
        tls'.secrets = some (library.handshakeSecrets suite serverPub tls.transcript)) := by
  unfold onServerHello at handled
  by_cases again : tls.suite.isSome = true
  · rw [if_pos again] at handled
    cases handled
    exact ⟨⟨_, _, _, _, rfl⟩, fun accepted => by cases accepted⟩
  · rw [if_neg again] at handled
    have first : tls.suite = none := by simpa using again
    cases parsed : parseServerHello body with
    | error error =>
        rw [parsed] at handled
        cases handled
        exact ⟨⟨_, _, _, _, rfl⟩, fun accepted => by cases accepted⟩
    | ok found =>
        rcases found with ⟨suite, serverPub⟩
        rw [parsed] at handled
        dsimp only at handled
        cases writing : library.packetKey suite
            (library.handshakeSecrets suite serverPub tls.transcript).clientHs with
        | error error =>
            rw [writing] at handled
            cases handled
            exact ⟨⟨_, _, _, _, rfl⟩, fun accepted => by cases accepted⟩
        | ok hsWrite =>
            rw [writing] at handled
            dsimp only at handled
            cases reading : library.packetKey suite
                (library.handshakeSecrets suite serverPub tls.transcript).serverHs with
            | error error =>
                rw [reading] at handled
                cases handled
                exact ⟨⟨_, _, _, _, rfl⟩, fun accepted => by cases accepted⟩
            | ok hsRead =>
                rw [reading] at handled
                cases handled
                exact ⟨⟨_, _, _, _, rfl⟩, fun _ => ⟨first, suite, serverPub, rfl, rfl, rfl⟩⟩

theorem onExtension_spec {extType : Nat} {data : List Byte}
    (handled : tls.onExtension extType data = (result, tls')) :
    ∃ alpn tp, tls' = { tls with negotiatedAlpn := alpn, peerTp := tp } := by
  unfold onExtension at handled
  split at handled
  · split at handled
    · cases handled
      exact ⟨_, _, rfl⟩
    · cases handled
      exact ⟨_, _, rfl⟩
  · split at handled
    · split at handled
      · cases handled
        exact ⟨_, _, rfl⟩
      · cases handled
        exact ⟨_, _, rfl⟩
    · cases handled
      exact ⟨_, _, rfl⟩

theorem onExtensions_spec {extensions : List (Nat × List Byte)}
    (handled : tls.onExtensions extensions = (result, tls')) :
    ∃ alpn tp, tls' = { tls with negotiatedAlpn := alpn, peerTp := tp } := by
  induction extensions generalizing tls with
  | nil =>
      cases handled
      exact ⟨_, _, rfl⟩
  | cons extension others ih =>
      rcases extension with ⟨extType, data⟩
      rw [onExtensions] at handled
      rcases noted : tls.onExtension extType data with ⟨outcome, middle⟩
      rcases onExtension_spec noted with ⟨alpn, tp, rfl⟩
      rw [noted] at handled
      cases outcome with
      | error error =>
          cases handled
          exact ⟨_, _, rfl⟩
      | ok =>
          rcases ih handled with ⟨alpn', tp', rfl⟩
          exact ⟨alpn', tp', rfl⟩

/-- EncryptedExtensions that are accepted are the first ones and bring transport
parameters. -/
theorem onEncryptedExtensions_spec (handled : tls.onEncryptedExtensions body = (result, tls')) :
    (∃ alpn tp, tls' = { tls with negotiatedAlpn := alpn, peerTp := tp }) ∧
      (result = .ok () → tls.peerTp = none ∧ tls'.peerTp.isSome = true) := by
  unfold onEncryptedExtensions at handled
  by_cases again : tls.peerTp.isSome = true
  · rw [if_pos again] at handled
    cases handled
    exact ⟨⟨_, _, rfl⟩, fun accepted => by cases accepted⟩
  · rw [if_neg again] at handled
    have first : tls.peerTp = none := by simpa using again
    cases parsed : parseExtensions body with
    | error error =>
        rw [parsed] at handled
        cases handled
        exact ⟨⟨_, _, rfl⟩, fun accepted => by cases accepted⟩
    | ok extensions =>
        rw [parsed] at handled
        dsimp only at handled
        rcases noted : tls.onExtensions extensions with ⟨outcome, middle⟩
        have kept := onExtensions_spec noted
        rw [noted] at handled
        cases outcome with
        | error error =>
            cases handled
            exact ⟨kept, fun accepted => by cases accepted⟩
        | ok =>
            dsimp only at handled
            by_cases missing : middle.peerTp.isNone = true
            · rw [if_pos missing] at handled
              cases handled
              exact ⟨kept, fun accepted => by cases accepted⟩
            · rw [if_neg missing] at handled
              cases handled
              exact ⟨kept, fun _ => ⟨first, Option.isSome_iff_ne_none.mpr fun same =>
                missing (by rw [same]; rfl)⟩⟩

end Tls13Client

/-- The chain of a Certificate message is valid for the server name and begins
with the leaf. -/
structure Certified {κ ξ : Type} (library : TlsLibrary κ ξ) (serverName : String) (body : List Byte)
    (leaf : ξ) : Prop where
  chain : ∃ der certificates, parseCertificates body = .ok (der, certificates) ∧
    library.parseCertificate der = .ok leaf ∧ library.validateChain certificates = .ok ()
  hostname : library.hostnameMatches serverName leaf = true

/-- The signature of a CertificateVerify message holds over the transcript. -/
def Verified {κ ξ : Type} (library : TlsLibrary κ ξ) (body : List Byte) (leaf : ξ)
    (transcript : List Byte) : Prop :=
  ∃ scheme signature, parseCertificateVerify body = .ok (scheme, signature) ∧
    library.verifySignature leaf scheme transcript signature = true

namespace Tls13Client

variable {κ ξ : Type} {library : TlsLibrary κ ξ} {tls tls' : Tls13Client κ ξ} {body : List Byte}
  {result : Except QuicError Unit}

theorem onCertificate_spec (verifies : tls.skipCertVerify = false)
    (handled : tls.onCertificate library body = (result, tls')) :
    (∃ leaf, tls' = { tls with leaf := leaf }) ∧
      (result = .ok () → tls.leaf = none ∧ ∃ leaf, tls'.leaf = some leaf ∧
        Certified library tls.serverName body leaf) := by
  unfold onCertificate at handled
  by_cases again : tls.leaf.isSome = true
  · rw [if_pos again] at handled
    cases handled
    exact ⟨⟨_, rfl⟩, fun accepted => by cases accepted⟩
  rw [if_neg again] at handled
  have first : tls.leaf = none := by simpa using again
  cases parsed : parseCertificates body with
  | error error =>
      rw [parsed] at handled
      cases handled
      exact ⟨⟨_, rfl⟩, fun accepted => by cases accepted⟩
  | ok found =>
      rcases found with ⟨der, chain⟩
      rw [parsed] at handled
      dsimp only at handled
      cases certificate : library.parseCertificate der with
      | error message =>
          rw [certificate] at handled
          cases handled
          exact ⟨⟨_, rfl⟩, fun accepted => by cases accepted⟩
      | ok leaf =>
          rw [certificate] at handled
          dsimp only at handled
          cases checked : tls.checkCertificates library leaf chain with
          | error error =>
              rw [checked] at handled
              cases handled
              exact ⟨⟨_, rfl⟩, fun accepted => by cases accepted⟩
          | ok _ =>
              rw [checked] at handled
              cases handled
              refine ⟨⟨_, rfl⟩, fun _ => ⟨first, leaf, rfl, ?_⟩⟩
              unfold checkCertificates at checked
              rw [verifies, if_neg Bool.false_ne_true] at checked
              cases valid : library.validateChain chain with
              | error message =>
                  rw [valid] at checked
                  cases checked
              | ok _ =>
                  rw [valid] at checked
                  dsimp only at checked
                  by_cases named : library.hostnameMatches tls.serverName leaf = true
                  · exact ⟨⟨der, chain, parsed, certificate, valid⟩, named⟩
                  · rw [if_neg named] at checked
                    cases checked

/-- A CertificateVerify that is accepted is the first one, and its signature holds
for the Certificate before it. -/
theorem onCertificateVerify_spec (handled : tls.onCertificateVerify library body = (result, tls')) :
    (∃ done, tls' = { tls with certVerifyDone := done }) ∧
      (result = .ok () → tls.certVerifyDone = false ∧ tls'.certVerifyDone = true ∧
        ∃ leaf, tls.leaf = some leaf ∧ Verified library body leaf tls.transcript) := by
  unfold onCertificateVerify at handled
  by_cases again : tls.certVerifyDone = true
  · rw [if_pos again] at handled
    cases handled
    exact ⟨⟨_, rfl⟩, fun accepted => by cases accepted⟩
  rw [if_neg again] at handled
  have first : tls.certVerifyDone = false := by simpa using again
  split at handled
  · cases handled
    exact ⟨⟨_, rfl⟩, fun accepted => by cases accepted⟩
  rename_i leaf leafEq
  cases parsed : parseCertificateVerify body with
  | error error =>
      rw [parsed] at handled
      cases handled
      exact ⟨⟨_, rfl⟩, fun accepted => by cases accepted⟩
  | ok found =>
      rcases found with ⟨scheme, signature⟩
      rw [parsed] at handled
      dsimp only at handled
      by_cases holds : library.verifySignature leaf scheme tls.transcript signature = true
      · rw [if_pos holds] at handled
        cases handled
        exact ⟨⟨_, rfl⟩, fun _ => ⟨first, rfl, leaf, leafEq, scheme, signature, parsed, holds⟩⟩
      · rw [if_neg holds] at handled
        cases handled
        exact ⟨⟨_, rfl⟩, fun accepted => by cases accepted⟩

/-- What a Finished was checked for. -/
structure FinishChecked (library : TlsLibrary κ ξ) (tls : Tls13Client κ ξ) (before body : List Byte) :
    Prop where
  first : tls.serverFinished = false
  leaf : tls.leaf.isSome = true
  verified : tls.certVerifyDone = true
  mac : library.finishedMac tls.suite (tls.secrets.getD ⟨[], [], []⟩).serverHs before = body

/-- The rest of the key schedule needs a suite for the application keys. -/
theorem finish_spec {secrets : HandshakeSecrets}
    (handled : tls.finish library secrets = (result, tls')) :
    ∃ appWrite appRead pending, tls' = { tls with
      appWrite := appWrite
      appRead := appRead
      cryptoPending := pending } ∧ (tls.suite = none → appWrite = tls.appWrite) := by
  unfold finish at handled
  rcases secretsEq : library.applicationSecrets tls.suite secrets.handshake tls.transcript with
    ⟨clientApp, serverApp⟩
  rw [secretsEq] at handled
  dsimp only at handled
  split at handled
  · cases handled
    exact ⟨_, _, _, rfl, fun _ => rfl⟩
  rename_i suite suiteEq
  have keyed : tls.suite ≠ none := by simp [suiteEq]
  cases writing : library.packetKey suite clientApp with
  | error error =>
      rw [writing] at handled
      cases handled
      exact ⟨_, _, _, rfl, fun _ => rfl⟩
  | ok appWrite =>
      rw [writing] at handled
      dsimp only at handled
      cases reading : library.packetKey suite serverApp with
      | error error =>
          rw [reading] at handled
          cases handled
          exact ⟨_, _, _, rfl, fun keyless => absurd keyless keyed⟩
      | ok appRead =>
          rw [reading] at handled
          cases handled
          exact ⟨_, _, _, rfl, fun keyless => absurd keyless keyed⟩

theorem onServerFinished_spec {before : List Byte}
    (handled : tls.onServerFinished library before body = (result, tls')) :
    (tls' = tls ∧ result ≠ .ok ()) ∨ (FinishChecked library tls before body ∧
      ∃ appWrite appRead pending, tls' = { tls with
        serverFinished := true
        appWrite := appWrite
        appRead := appRead
        cryptoPending := pending } ∧ (tls.suite = none → appWrite = tls.appWrite)) := by
  unfold onServerFinished at handled
  dsimp only at handled
  by_cases again : tls.serverFinished = true
  · rw [if_pos again] at handled
    cases handled
    exact Or.inl ⟨rfl, by simp⟩
  rw [if_neg again] at handled
  by_cases nobody : tls.leaf.isNone = true
  · rw [if_pos nobody] at handled
    cases handled
    exact Or.inl ⟨rfl, by simp⟩
  rw [if_neg nobody] at handled
  by_cases unverified : (!tls.certVerifyDone) = true
  · rw [if_pos unverified] at handled
    cases handled
    exact Or.inl ⟨rfl, by simp⟩
  rw [if_neg unverified] at handled
  by_cases size : body.length ≠ (tls.suite.map suiteHashLen).getD 32
  · rw [if_pos size] at handled
    cases handled
    exact Or.inl ⟨rfl, by simp⟩
  rw [if_neg size] at handled
  by_cases forged : library.finishedMac tls.suite (tls.secrets.getD ⟨[], [], []⟩).serverHs before ≠
      body
  · rw [if_pos forged] at handled
    cases handled
    exact Or.inl ⟨rfl, by simp⟩
  rw [if_neg forged] at handled
  rcases finish_spec handled with ⟨appWrite, appRead, pending, rfl, keyless⟩
  have known : tls.leaf.isSome = true :=
    Option.isSome_iff_ne_none.mpr fun same => nobody (by rw [same]; rfl)
  exact Or.inr ⟨⟨by simpa using again, known, by simpa using unverified, not_not.mp forged⟩,
    appWrite, appRead, pending, rfl, keyless⟩

theorem onMessage_cases {kind : Byte} {body bytes : List Byte}
    (accepted : tls.onMessage library kind body bytes = (.ok (), tls')) :
    (kind = HS_FINISHED ∧
        (tls.updateTranscript bytes).onServerFinished library tls.transcript body = (.ok (), tls')) ∨
      (kind = HS_CERTIFICATE_VERIFY ∧ ∃ middle,
        tls.onCertificateVerify library body = (.ok (), middle) ∧
        tls' = middle.updateTranscript bytes) ∨
      (kind = HS_SERVER_HELLO ∧
        (tls.updateTranscript bytes).onServerHello library body = (.ok (), tls')) ∨
      (kind = HS_ENCRYPTED_EXTENSIONS ∧
        (tls.updateTranscript bytes).onEncryptedExtensions body = (.ok (), tls')) ∨
      (kind = HS_CERTIFICATE ∧
        (tls.updateTranscript bytes).onCertificate library body = (.ok (), tls')) := by
  unfold onMessage at accepted
  by_cases finished : kind = HS_FINISHED
  · rw [if_pos finished] at accepted
    exact Or.inl ⟨finished, accepted⟩
  rw [if_neg finished] at accepted
  by_cases verify : kind = HS_CERTIFICATE_VERIFY
  · rw [if_pos verify] at accepted
    rcases verified : tls.onCertificateVerify library body with ⟨result, middle⟩
    rw [verified] at accepted
    cases result with
    | error error => cases accepted
    | ok =>
        cases accepted
        exact Or.inr (Or.inl ⟨verify, middle, rfl, rfl⟩)
  rw [if_neg verify] at accepted
  dsimp only at accepted
  by_cases hello : kind = HS_SERVER_HELLO
  · rw [if_pos hello] at accepted
    exact Or.inr (Or.inr (Or.inl ⟨hello, accepted⟩))
  rw [if_neg hello] at accepted
  by_cases extensions : kind = HS_ENCRYPTED_EXTENSIONS
  · rw [if_pos extensions] at accepted
    exact Or.inr (Or.inr (Or.inr (Or.inl ⟨extensions, accepted⟩)))
  rw [if_neg extensions] at accepted
  by_cases certificate : kind = HS_CERTIFICATE
  · rw [if_pos certificate] at accepted
    exact Or.inr (Or.inr (Or.inr (Or.inr ⟨certificate, accepted⟩)))
  rw [if_neg certificate] at accepted
  by_cases client : kind = HS_CLIENT_HELLO
  · rw [if_pos client] at accepted
    cases accepted
  · rw [if_neg client] at accepted
    cases accepted

theorem isComplete_onMessage {kind : Byte} {body bytes : List Byte}
    (verifies : tls.skipCertVerify = false) (other : kind ≠ HS_FINISHED) :
    (tls.onMessage library kind body bytes).2.isComplete = tls.isComplete := by
  unfold onMessage
  rw [if_neg other]
  split
  · rcases verified : tls.onCertificateVerify library body with ⟨result, middle⟩
    rcases (onCertificateVerify_spec verified).1 with ⟨_, rfl⟩
    cases result with
    | error error => rfl
    | ok => rfl
  · dsimp only
    split
    · rcases handled : (tls.updateTranscript bytes).onServerHello library body with
        ⟨result, middle⟩
      rcases (onServerHello_spec handled).1 with ⟨_, _, _, _, rfl⟩
      rfl
    · split
      · rcases handled : (tls.updateTranscript bytes).onEncryptedExtensions body with
          ⟨result, middle⟩
        rcases (onEncryptedExtensions_spec handled).1 with ⟨_, _, rfl⟩
        rfl
      · split
        · have verifies : (tls.updateTranscript bytes).skipCertVerify = false := verifies
          rcases handled : (tls.updateTranscript bytes).onCertificate library body with
            ⟨result, middle⟩
          rcases (onCertificate_spec verifies handled).1 with ⟨_, rfl⟩
          rfl
        · split
          · rfl
          · rfl

end Tls13Client

end Corduit.Protocol.Quic
