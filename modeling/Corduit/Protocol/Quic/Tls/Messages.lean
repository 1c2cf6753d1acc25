import Corduit.Protocol.Quic.Tls.Client

/-!
# The messages of a handshake

The handshake takes complete messages from the front of the bytes it is given,
hashes each of them once, and reports how many bytes they were.  It stops early
only behind a Finished message.
-/

namespace Corduit.Protocol.Quic

open Word

/-- The bytes are one complete message after the other. -/
def Complete (bytes : List Byte) : Prop :=
  ∃ messages : List (List Byte), messages.flatten = bytes ∧
    ∀ message ∈ messages, ∃ kind body, takeHsMessage message = some (kind, body, [])

/-- No complete message stands behind a Finished. -/
def FinishedLast (bytes : List Byte) : Prop :=
  ∀ front message body rest, bytes = front ++ message ++ rest → Complete front →
    takeHsMessage message = some (HS_FINISHED, body, []) → takeHsMessage rest = none

theorem Complete.nil : Complete [] :=
  ⟨[], rfl, by simp⟩

theorem Complete.append {first second : List Byte} (complete : Complete first)
    (complete' : Complete second) : Complete (first ++ second) := by
  rcases complete with ⟨messages, rfl, all⟩
  rcases complete' with ⟨messages', rfl, all'⟩
  refine ⟨messages ++ messages', List.flatten_append, ?_⟩
  intro message member
  rcases List.mem_append.mp member with member | member
  · exact all message member
  · exact all' message member

theorem Complete.message {message body : List Byte} {kind : Byte}
    (found : takeHsMessage message = some (kind, body, [])) : Complete message := by
  refine ⟨[message], by simp, ?_⟩
  intro other member
  rw [List.mem_singleton.mp member]
  exact ⟨kind, body, found⟩

theorem takeHsMessage_split {bytes body rest : List Byte} {kind : Byte}
    (found : takeHsMessage bytes = some (kind, body, rest)) :
    ∃ message, bytes = message ++ rest ∧ 4 ≤ message.length ∧
      takeHsMessage message = some (kind, body, []) := by
  unfold takeHsMessage at found
  split at found
  case h_1 first high middle low behind =>
    dsimp only at found
    by_cases short : behind.length < ofBeBytes [high, middle, low]
    · rw [if_pos short] at found
      cases found
    · rw [if_neg short] at found
      cases found
      refine ⟨kind :: high :: middle :: low :: behind.take (ofBeBytes [high, middle, low]), ?_,
        by simp, ?_⟩
      · simp only [List.cons_append, List.take_append_drop]
      · have long : (behind.take (ofBeBytes [high, middle, low])).length =
            ofBeBytes [high, middle, low] := List.length_take_of_le (by omega)
        unfold takeHsMessage
        dsimp only
        rw [long, if_neg (Nat.lt_irrefl _), List.take_take, Nat.min_self,
          List.drop_eq_nil_of_le (Nat.le_of_eq long)]
  case h_2 => cases found

namespace Tls13Client

variable {κ ξ : Type} {library : TlsLibrary κ ξ} {tls tls' : Tls13Client κ ξ}

section

variable (tls : Tls13Client κ ξ)

theorem transcript_onServerHello (body : List Byte) :
    (tls.onServerHello library body).2.transcript = tls.transcript := by
  unfold onServerHello
  split
  · rfl
  · cases parseServerHello body with
    | error error => rfl
    | ok found =>
        dsimp only
        cases library.packetKey found.1
            (library.handshakeSecrets found.1 found.2 tls.transcript).clientHs with
        | error error => rfl
        | ok hsWrite =>
            dsimp only
            cases library.packetKey found.1
                (library.handshakeSecrets found.1 found.2 tls.transcript).serverHs with
            | error error => rfl
            | ok hsRead => rfl

theorem transcript_onExtension (extType : Nat) (data : List Byte) :
    (tls.onExtension extType data).2.transcript = tls.transcript := by
  unfold onExtension
  split
  · cases parseAlpn data with
    | error error => rfl
    | ok chosen => rfl
  · split
    · cases parseTp data with
      | error error => rfl
      | ok tp => rfl
    · rfl

theorem transcript_onExtensions (extensions : List (Nat × List Byte)) :
    (tls.onExtensions extensions).2.transcript = tls.transcript := by
  induction extensions generalizing tls with
  | nil => rfl
  | cons extension others ih =>
      rcases extension with ⟨extType, data⟩
      have first := transcript_onExtension tls extType data
      rw [onExtensions]
      rcases noted : tls.onExtension extType data with ⟨result, middle⟩
      rw [noted] at first
      cases result with
      | error error => exact first
      | ok => exact (ih middle).trans first

theorem transcript_onEncryptedExtensions (body : List Byte) :
    (tls.onEncryptedExtensions body).2.transcript = tls.transcript := by
  unfold onEncryptedExtensions
  split
  · rfl
  · cases parseExtensions body with
    | error error => rfl
    | ok extensions =>
        have kept := transcript_onExtensions tls extensions
        dsimp only
        rcases noted : tls.onExtensions extensions with ⟨result, middle⟩
        rw [noted] at kept
        cases result with
        | error error => exact kept
        | ok =>
            dsimp only
            split
            · exact kept
            · exact kept

theorem transcript_onCertificate (body : List Byte) :
    (tls.onCertificate library body).2.transcript = tls.transcript := by
  unfold onCertificate
  split
  · rfl
  · cases parseCertificates body with
    | error error => rfl
    | ok found =>
        dsimp only
        cases library.parseCertificate found.1 with
        | error message => rfl
        | ok leaf =>
            dsimp only
            cases tls.checkCertificates library leaf found.2 with
            | error error => rfl
            | ok => rfl

theorem transcript_onCertificateVerify (body : List Byte) :
    (tls.onCertificateVerify library body).2.transcript = tls.transcript := by
  unfold onCertificateVerify
  split
  · rfl
  · cases tls.leaf with
    | none => rfl
    | some leaf =>
        dsimp only
        cases parseCertificateVerify body with
        | error error => rfl
        | ok found =>
            dsimp only
            split
            · rfl
            · rfl

theorem transcript_finish (secrets : HandshakeSecrets) :
    (tls.finish library secrets).2.transcript = tls.transcript := by
  unfold finish
  rcases library.applicationSecrets tls.suite secrets.handshake tls.transcript with
    ⟨clientApp, serverApp⟩
  dsimp only
  cases tls.suite with
  | none => rfl
  | some suite =>
      dsimp only
      cases library.packetKey suite clientApp with
      | error error => rfl
      | ok appWrite =>
          dsimp only
          cases library.packetKey suite serverApp with
          | error error => rfl
          | ok appRead => rfl

theorem transcript_onServerFinished (before body : List Byte) :
    (tls.onServerFinished library before body).2.transcript = tls.transcript := by
  unfold onServerFinished
  dsimp only
  split
  · rfl
  · split
    · rfl
    · split
      · rfl
      · split
        · rfl
        · split
          · rfl
          · exact transcript_finish _ _

end

theorem transcript_onMessage {kind : Byte} {body bytes : List Byte}
    (accepted : tls.onMessage library kind body bytes = (.ok (), tls')) :
    tls'.transcript = tls.transcript ++ bytes := by
  unfold onMessage at accepted
  split at accepted
  · have kept := @transcript_onServerFinished κ ξ library (tls.updateTranscript bytes)
      tls.transcript body
    rw [accepted] at kept
    exact kept
  · split at accepted
    · have kept := @transcript_onCertificateVerify κ ξ library tls body
      rcases verified : tls.onCertificateVerify library body with ⟨result, middle⟩
      rw [verified] at accepted kept
      cases result with
      | error error => cases accepted
      | ok =>
          cases accepted
          exact congrArg (· ++ bytes) kept
    · dsimp only at accepted
      split at accepted
      · have kept := @transcript_onServerHello κ ξ library (tls.updateTranscript bytes) body
        rw [accepted] at kept
        exact kept
      · split at accepted
        · have kept := transcript_onEncryptedExtensions (tls.updateTranscript bytes) body
          rw [accepted] at kept
          exact kept
        · split at accepted
          · have kept := @transcript_onCertificate κ ξ library (tls.updateTranscript bytes)
              body
            rw [accepted] at kept
            exact kept
          · split at accepted
            · cases accepted
            · cases accepted

/-- The bytes that were consumed are complete messages, hashed once and in
order; a complete message is left only behind a Finished. -/
structure Consumed (tls tls' : Tls13Client κ ξ) (bytes taken rest : List Byte) : Prop where
  split : bytes = taken ++ rest
  transcript : tls'.transcript = tls.transcript ++ taken
  complete : Complete taken
  stopped : takeHsMessage rest = none ∨ ∃ front message body, taken = front ++ message ∧
    Complete front ∧ takeHsMessage message = some (HS_FINISHED, body, [])

theorem consumed_of_consumeFrom {bound pos consumed : Nat} {bytes : List Byte}
    (enough : bytes.length ≤ bound)
    (consumption : consumeFrom library bound pos bytes tls = (.ok consumed, tls')) :
    ∃ taken rest, Consumed tls tls' bytes taken rest ∧ consumed = pos + taken.length := by
  have nothing : ∀ {bytes : List Byte} {tls : Tls13Client κ ξ}, takeHsMessage bytes = none →
      Consumed tls tls bytes [] bytes :=
    fun none_ => ⟨rfl, (List.append_nil _).symm, .nil, Or.inl none_⟩
  induction bound generalizing pos bytes tls with
  | zero =>
      rw [List.length_eq_zero_iff.mp (Nat.le_zero.mp enough)] at consumption ⊢
      cases consumption
      exact ⟨[], [], nothing rfl, rfl⟩
  | succ bound ih =>
      rw [consumeFrom] at consumption
      cases found : takeHsMessage bytes with
      | none =>
          rw [found] at consumption
          cases consumption
          exact ⟨[], bytes, nothing found, rfl⟩
      | some parts =>
          rcases parts with ⟨kind, body, rest⟩
          rcases takeHsMessage_split found with ⟨message, rfl, header, whole⟩
          have size : (message ++ rest).length - rest.length = message.length := by
            rw [List.length_append, Nat.add_sub_cancel]
          rw [found] at consumption
          dsimp only at consumption
          rw [size, List.take_left] at consumption
          rcases handled : tls.onMessage library kind body message with ⟨result, middle⟩
          rw [handled] at consumption
          cases result with
          | error error => cases consumption
          | ok =>
              have hashed := transcript_onMessage handled
              dsimp only at consumption
              by_cases last : kind = HS_FINISHED
              · rw [if_pos last] at consumption
                cases consumption
                exact ⟨message, rest, ⟨rfl, hashed, .message whole,
                  Or.inr ⟨[], message, body, rfl, .nil, last ▸ whole⟩⟩, rfl⟩
              · rw [if_neg last] at consumption
                have shorter : rest.length ≤ bound := by
                  rw [List.length_append] at enough
                  omega
                rcases ih shorter consumption with ⟨taken, left, later, count⟩
                refine ⟨message ++ taken, left, ⟨?_, ?_, ?_, ?_⟩, ?_⟩
                · rw [later.split, List.append_assoc]
                · rw [later.transcript, hashed, List.append_assoc]
                · exact (Complete.message whole).append later.complete
                · rcases later.stopped with none_ | ⟨front, finished, content, ends, before, is⟩
                  · exact Or.inl none_
                  · exact Or.inr ⟨message ++ front, finished, content,
                      by rw [ends, List.append_assoc], (Complete.message whole).append before, is⟩
                · rw [count, List.length_append]
                  omega

theorem consumed_of_consumeCrypto {consumed : Nat} {bytes : List Byte}
    (consumption : tls.consumeCrypto library bytes = (.ok consumed, tls')) :
    Consumed tls tls' bytes (bytes.take consumed) (bytes.drop consumed) := by
  rcases consumed_of_consumeFrom (Nat.le_refl _) consumption with ⟨taken, rest, all, count⟩
  rw [Nat.zero_add] at count
  rw [count, all.split, List.take_left, List.drop_left]
  exact all.split ▸ all

theorem Consumed.exhausted {bytes taken rest : List Byte}
    (consumed : Consumed tls tls' bytes taken rest) (last : FinishedLast bytes) :
    takeHsMessage rest = none := by
  rcases consumed.stopped with none_ | ⟨front, message, body, ends, before, is⟩
  · exact none_
  · exact last front message body rest (by rw [consumed.split, ends]) before is

end Tls13Client

end Corduit.Protocol.Quic
