import Corduit.Crypto.Poly1305.Rfc
import Corduit.Crypto.Stream.Ciphers

/-!
# ChaCha20-Poly1305

The key of the authenticator is the front of the first block, and the text is
combined with the blocks behind it.  The tag is over the associated data and
what is on the wire, each filled up to whole blocks, and over their lengths.
-/

namespace Corduit.Crypto

open Word Word.Checked

/-- A cipher is its key. -/
structure ChaCha20Poly1305 where
  key : Octets 32

namespace ChaCha20Poly1305

variable (cipher : ChaCha20Poly1305)

/-- The one-time key: the first block. -/
def polyKey (nonce : Octets 12) : Octets 32 :=
  .field (ChaCha20.nextBlock (ChaCha20.new cipher.key.bytes nonce.bytes 0).state).1.toList 0 32
    (by simp)

/-- What the authenticator is updated with: zeros fill up the last blocks. -/
def macParts (aad ct : List Byte) : List (List Byte) :=
  let filled (bytes : List Byte) : List (List Byte) :=
    if bytes.length % 16 ≠ 0 then [bytes, List.replicate (16 - bytes.length % 16) 0] else [bytes]
  filled aad ++ filled ct ++
    [toLeBytes 8 (BitVec.ofNat 64 aad.length), toLeBytes 8 (BitVec.ofNat 64 ct.length)]

/-- The tag of a ciphertext. -/
def computeTag (nonce aad ct : List Byte) : Computed (Except AeadError (List Byte)) :=
  match Octets.copyFrom 12 nonce with
  | none => return .error .invalidNonceLength
  | some nonce => return .ok (← Poly1305.mac (cipher.polyKey nonce) (macParts aad ct))

/-- The buffer and the keystream from the second block on. -/
def applyKeystream (nonce : Octets 12) (buffer : List Byte) : List Byte :=
  ((ChaCha20.new cipher.key.bytes nonce.bytes 1).applyKeystream ChaCha20.nextBlock buffer).1

/-- `encrypt_in_place_detached`: the buffer and the tag. -/
def encryptInPlaceDetached (nonce aad buffer : List Byte) :
    Computed (Except AeadError (List Byte × List Byte)) :=
  match Octets.copyFrom 12 nonce with
  | none => return .error .invalidNonceLength
  | some n => do
      let buffer := cipher.applyKeystream n buffer
      return (← cipher.computeTag nonce aad buffer).map (buffer, ·)

/-- `decrypt_in_place_detached`: the result, and the buffer that it leaves. -/
def decryptInPlaceDetached (nonce aad buffer tag : List Byte) :
    Computed (Except AeadError Unit × List Byte) := do
  match ← cipher.computeTag nonce aad buffer with
  | .error error => return (.error error, buffer)
  | .ok expected =>
      if tag.length ≠ 16 ∨ expected ≠ tag then
        return (.error .authenticationFailed, List.replicate buffer.length 0)
      else
        match Octets.copyFrom 12 nonce with
        | none => return (.error .invalidNonceLength, buffer)
        | some nonce => return (.ok (), cipher.applyKeystream nonce buffer)

/-- `Aead::encrypt`. -/
def encrypt (nonce plaintext aad : List Byte) : Computed (Except AeadError (List Byte)) := do
  return (← cipher.encryptInPlaceDetached nonce aad plaintext).map fun (ct, tag) => ct ++ tag

/-- `Aead::decrypt`. -/
def decrypt (nonce ciphertextAndTag aad : List Byte) :
    Computed (Except AeadError (List Byte)) :=
  if ciphertextAndTag.length < 16 then return .error .ciphertextTooShort
  else do
    let start := ciphertextAndTag.length - 16
    let (result, buf) ← cipher.decryptInPlaceDetached nonce aad (ciphertextAndTag.take start)
      (ciphertextAndTag.drop start)
    return result.map fun () => buf

theorem mac_spells (key : Octets 32) (parts : List (List Byte)) :
    ∃ tag, Poly1305.mac key parts = .ok tag ∧ tag.length = 16 ∧
      ofLeBytes tag = Poly1305.tagNumber key.bytes parts.flatten := by
  rcases Poly1305.new_spec key with ⟨point, small, started⟩
  rcases Poly1305.updates_spec small started parts with ⟨after, run, took⟩
  rcases Poly1305.finish_spec small took with ⟨h, finished, carried, value⟩
  rcases Poly1305.carryFully_spec carried with ⟨h', carries, full, same⟩
  rcases Poly1305.subtract_spec full with ⟨below, limbs⟩
  have pads : ∀ index, (Poly1305.new key).pad.get index =
      Poly1305.load key.bytes (16 + 4 * index) := fun index => Vector.getElem_ofFn _
  rcases Poly1305.addPad_spec limbs (fun index => pads index ▸ Poly1305.load_lt _ _) with
    ⟨length, spelled⟩
  refine ⟨Poly1305.addPad (Poly1305.words (Poly1305.subtract h')) (Poly1305.new key).pad, ?_,
    length, ?_⟩
  · rw [Poly1305.mac, run, ok_bind, Poly1305.finalize, Poly1305.reduced, finished, ok_bind, carries,
      took.pad]
    rfl
  · have second := Poly1305.load_block (length_slice (Nat.le_of_eq key.length_bytes.symm) :
      (slice key.bytes 16 16).length = 16)
    simp only [Poly1305.load, slice_slice (show 0 + 4 ≤ 16 by omega),
      slice_slice (show 4 + 4 ≤ 16 by omega), slice_slice (show 8 + 4 ≤ 16 by omega),
      slice_slice (show 12 + 4 ≤ 16 by omega)] at second
    rw [spelled, below, same.trans value, point, Poly1305.tagNumber, second]
    simp only [pads, Poly1305.load]
    rfl

variable {cipher} {nonce aad ct tag plaintext : List Byte} {n : Octets 12}

section

variable (copied : Octets.copyFrom 12 nonce = some n)

include copied

theorem exists_computeTag (aad ct : List Byte) :
    ∃ tag, cipher.computeTag nonce aad ct = .ok (.ok tag) ∧ tag.length = 16 ∧
      ofLeBytes tag = Poly1305.tagNumber (cipher.polyKey n).bytes (macParts aad ct).flatten := by
  rcases mac_spells (cipher.polyKey n) (macParts aad ct) with ⟨tag, computed, spells⟩
  refine ⟨tag, ?_, spells⟩
  rw [computeTag, copied]
  dsimp only
  rw [computed]
  rfl

theorem encrypt_of_computeTag (computed : cipher.computeTag nonce aad
    (cipher.applyKeystream n plaintext) = .ok (.ok tag)) :
    cipher.encrypt nonce plaintext aad = .ok (.ok (cipher.applyKeystream n plaintext ++ tag)) := by
  rw [encrypt, encryptInPlaceDetached, copied]
  dsimp only
  rw [computed]
  rfl

theorem decrypt_append {expected : List Byte} (tagged : tag.length = 16)
    (computed : cipher.computeTag nonce aad ct = .ok (.ok expected)) :
    cipher.decrypt nonce (ct ++ tag) aad =
      .ok (if expected = tag then .ok (cipher.applyKeystream n ct)
        else .error .authenticationFailed) := by
  have long : ¬ (ct ++ tag).length < 16 := by
    rw [List.length_append]
    omega
  have start : (ct ++ tag).length - 16 = ct.length := by
    rw [List.length_append]
    omega
  rw [decrypt, if_neg long, start]
  dsimp only
  rw [List.take_left, List.drop_left, decryptInPlaceDetached, computed, ok_bind]
  dsimp only
  by_cases same : expected = tag
  · rw [if_neg (by simp [tagged, same]), copied, if_pos same]
    rfl
  · rw [if_pos (Or.inr same), if_neg same]
    rfl

end

theorem applyKeystream_applyKeystream (n : Octets 12) (buffer : List Byte) :
    cipher.applyKeystream n (cipher.applyKeystream n buffer) = buffer := by
  simp only [applyKeystream, Pending.applyKeystream_eq]
  rw [steps_inverse (fun state byte (_ : True) => ⟨xorStep_inverse _ state byte, trivial⟩) trivial]

theorem decrypt_eq_ok_iff {wire : List Byte} :
    cipher.decrypt nonce wire aad = .ok (.ok plaintext) ↔
      cipher.encrypt nonce plaintext aad = .ok (.ok wire) := by
  cases copied : Octets.copyFrom 12 nonce with
  | none =>
      have unopened : cipher.decrypt nonce wire aad ≠ .ok (.ok plaintext) := by
        simp only [decrypt, decryptInPlaceDetached, computeTag, copied]
        split
        · nofun
        · nofun
      have unsealed : cipher.encrypt nonce plaintext aad ≠ .ok (.ok wire) := by
        rw [encrypt, encryptInPlaceDetached, copied]
        nofun
      exact iff_of_false unopened unsealed
  | some n =>
      rcases @exists_computeTag cipher _ _ copied aad (cipher.applyKeystream n plaintext) with
        ⟨tag, computed, tagged, _⟩
      rw [encrypt_of_computeTag copied computed]
      constructor
      · intro opened
        by_cases short : wire.length < 16
        · rw [decrypt, if_pos short] at opened
          cases opened
        · have split := List.take_append_drop (wire.length - 16) wire
          have behind : (wire.drop (wire.length - 16)).length = 16 := by
            rw [List.length_drop]
            omega
          rcases @exists_computeTag cipher _ _ copied aad (wire.take (wire.length - 16)) with
            ⟨expected, computed', _⟩
          rw [← split, decrypt_append copied behind computed'] at opened
          split at opened
          case isTrue same =>
            cases opened
            rw [applyKeystream_applyKeystream, computed'] at computed
            cases computed
            rw [applyKeystream_applyKeystream, same, split]
          case isFalse => cases opened
      · intro sealed
        cases sealed
        rw [decrypt_append copied tagged computed, if_pos rfl, applyKeystream_applyKeystream]

/-- The text under the blocks behind the first one. -/
def rfcText (key nonce plaintext : List Byte) : List Byte :=
  plaintext.mapIdx fun index byte =>
    byte ^^^ keystreamByte (fun block => ChaCha20.blockAt key nonce (1 + block)) index

/-- A text with zeros up to the end of a block. -/
def rfcPad (bytes : List Byte) : List Byte :=
  bytes ++ List.replicate ((16 - bytes.length % 16) % 16) 0

theorem flatten_macParts (aad ct : List Byte) :
    (macParts aad ct).flatten = rfcPad aad ++ rfcPad ct ++
      toLeBytes 8 (BitVec.ofNat 64 aad.length) ++ toLeBytes 8 (BitVec.ofNat 64 ct.length) := by
  have filled : ∀ bytes : List Byte, (if bytes.length % 16 ≠ 0 then
      [bytes, List.replicate (16 - bytes.length % 16) 0] else [bytes]).flatten = rfcPad bytes := by
    intro bytes
    rw [rfcPad]
    split
    · rw [Nat.mod_eq_of_lt (show 16 - bytes.length % 16 < 16 by omega)]
      simp
    · next whole => simp [not_not.mp whole]
  simp only [macParts, List.flatten_append, filled]
  simp

theorem encrypt_eq_rfc (cipher : ChaCha20Poly1305) (nonce : Octets 12) (aad : List Byte)
    {plaintext : List Byte} (short : plaintext.length ≤ ChaCha20.beforeLast) :
    ∃ tag, cipher.encrypt nonce.bytes plaintext aad =
        .ok (.ok (rfcText cipher.key.bytes nonce.bytes plaintext ++ tag)) ∧ tag.length = 16 ∧
      ofLeBytes tag = Poly1305.tagNumber
        ((ChaCha20.blockAt cipher.key.bytes nonce.bytes 0).toList.take 32)
        (rfcPad aad ++ rfcPad (rfcText cipher.key.bytes nonce.bytes plaintext) ++
          toLeBytes 8 (BitVec.ofNat 64 aad.length) ++
          toLeBytes 8 (BitVec.ofNat 64 plaintext.length)) := by
  have copied : Octets.copyFrom 12 nonce.bytes = some nonce := by
    simp [Octets.copyFrom]
  have text : cipher.applyKeystream nonce plaintext =
      rfcText cipher.key.bytes nonce.bytes plaintext := by
    have start : (ChaCha20.row cipher.key.bytes nonce.bytes 1).At 0
        (ChaCha20.new cipher.key.bytes nonce.bytes 1) :=
      ⟨Nat.succ_pos 63, rfl, rfl, fun none => absurd none (Nat.lt_irrefl 0)⟩
    rw [applyKeystream, Pending.applyKeystream_eq, (BlockRow.steps_at start
      (by rw [Nat.zero_add]; exact short)).1, rfcText]
    simp only [Nat.zero_add]
    rfl
  have once : (cipher.polyKey nonce).bytes =
      (ChaCha20.blockAt cipher.key.bytes nonce.bytes 0).toList.take 32 := by
    have first : (ChaCha20.nextBlock (ChaCha20.new cipher.key.bytes nonce.bytes 0).state).1 =
        ChaCha20.blockAt cipher.key.bytes nonce.bytes 0 := by
      rw [ChaCha20.nextBlock]
      split <;> rfl
    simp only [polyKey, Octets.field, first, slice, List.drop_zero]
  rcases @exists_computeTag cipher _ _ copied aad (cipher.applyKeystream nonce plaintext) with
    ⟨tag, computed, tagged, spells⟩
  refine ⟨tag, ?_, tagged, ?_⟩
  · rw [encrypt_of_computeTag copied computed, text]
  · rw [spells, once, flatten_macParts, text, rfcText, List.length_mapIdx]

theorem encrypt_eq_rfc_one :
    ∃ tag, encrypt ⟨.filled 32 0⟩ (Octets.filled 12 0).bytes [1] [2] =
      .ok (.ok (rfcText (Octets.filled 32 0).bytes (Octets.filled 12 0).bytes [1] ++ tag)) := by
  have short : ([1] : List Byte).length ≤ ChaCha20.beforeLast := by decide
  rcases encrypt_eq_rfc ⟨.filled 32 0⟩ (.filled 12 0) [2] short with ⟨tag, sealed, _⟩
  exact ⟨tag, sealed⟩

end ChaCha20Poly1305

end Corduit.Crypto
