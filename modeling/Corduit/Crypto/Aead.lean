import Corduit.Word.Machine

/-!
# Authenticated ciphers

The errors of the primitives, and ciphers without associated data: what such a
cipher computes is left open, and `Opens` says what a pair of ends relies on.
-/

namespace Corduit.Crypto

open Word

/-- `InvalidLength`: a key, a nonce or a digest of a length that is not supported. -/
inductive InvalidLength where
  | invalidLength
deriving DecidableEq

/-- Why a call fails. -/
inductive AeadError where
  | invalidNonceLength
  | ciphertextTooShort
  | authenticationFailed
deriving DecidableEq

namespace AeadError

/-- The text of `Debug`. -/
def debug : AeadError → String
  | invalidNonceLength => "InvalidNonceLength"
  | ciphertextTooShort => "CiphertextTooShort"
  | authenticationFailed => "AuthenticationFailed"

/-- The text of `Display`. -/
def display : AeadError → String
  | invalidNonceLength => "invalid nonce length"
  | ciphertextTooShort => "ciphertext too short"
  | authenticationFailed => "authentication failed"

end AeadError

/-- `Aead`, with no associated data; the nonces of the program have a valid
length, so that sealing does not fail. -/
structure Aead where
  encrypt : (key nonce plaintext : List Byte) → List Byte
  decrypt : (key nonce ciphertext : List Byte) → Except AeadError (List Byte)

namespace Aead

/-- Opening gives back what was sealed under the same key and nonce, and sealing
adds a tag of 16 bytes. -/
structure Opens (aead : Aead) : Prop where
  decrypt_encrypt : ∀ key nonce plaintext,
    aead.decrypt key nonce (aead.encrypt key nonce plaintext) = .ok plaintext
  length_encrypt : ∀ key nonce plaintext,
    (aead.encrypt key nonce plaintext).length = plaintext.length + 16

/-- Sixteen bytes of a nonce and a key. -/
def label (key nonce : List Byte) : List Byte :=
  (nonce ++ key ++ List.replicate 16 0).take 16

theorem length_label (key nonce : List Byte) : (label key nonce).length = 16 := by
  rw [label, List.length_take_of_le]
  rw [List.length_append, List.length_replicate]
  exact Nat.le_add_left _ _

/-- A cipher for examples: its tag names the nonce and the key. -/
def tagging : Aead where
  encrypt key nonce plaintext := plaintext ++ label key nonce
  decrypt key nonce ciphertext :=
    if ciphertext.length < 16 then .error .ciphertextTooShort
    else if ciphertext.drop (ciphertext.length - 16) = label key nonce then
      .ok (ciphertext.take (ciphertext.length - 16))
    else .error .authenticationFailed

theorem opens_tagging : tagging.Opens where
  decrypt_encrypt key nonce plaintext := by
    have length : (plaintext ++ label key nonce).length - 16 = plaintext.length := by
      rw [List.length_append, length_label, Nat.add_sub_cancel]
    have long : ¬ (plaintext ++ label key nonce).length < 16 := by
      rw [List.length_append, length_label]
      exact Nat.not_lt.mpr (Nat.le_add_left _ _)
    dsimp only [tagging]
    rw [if_neg long, length, List.drop_left, if_pos rfl, List.take_left]
  length_encrypt key nonce plaintext := by
    change (plaintext ++ label key nonce).length = _
    rw [List.length_append, length_label]

end Aead

end Corduit.Crypto
