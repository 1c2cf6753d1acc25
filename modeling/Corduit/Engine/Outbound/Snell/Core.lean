import Corduit.Crypto.Aead
import Corduit.Transport.Session
import Corduit.Word.Octets

/-!
# Snell streams

A record is a sealed header, padding and a sealed payload, with every other
byte of the padding and the payload exchanged.  Each direction has its own key,
from a salt in front of its first record, and a nonce that both ends count.
-/

namespace Corduit.Engine.Outbound.Snell

open Crypto Transport Word

/-- The cryptographic functions. -/
structure Primitives where
  aes128Gcm : Aead
  /-- The tag of 32 bytes, with the parameters of `derive_key`. -/
  argon2id : (psk salt : List Byte) → List Byte

/-- `HEADER_VERSION`. -/
def headerVersion : Byte := 0x04

/-- `HEADER_PLAIN_LEN`. -/
def headerPlainLen : Nat := 7

/-- `AEAD_TAG_LEN`. -/
def aeadTagLen : Nat := 16

/-- `HEADER_CIPHER_LEN`. -/
def headerCipherLen : Nat := headerPlainLen + aeadTagLen

/-- `SALT_LEN`. -/
def saltLen : Nat := 16

/-- `NONCE_LEN`. -/
def nonceLen : Nat := 12

/-- `MAX_PAYLOAD_LEN`. -/
def maxPayloadLen : Nat := 0x3fff

/-- `Error::protocol`, as `io::Error::other` shows it. -/
def protocolError (text : String) : IoError :=
  ⟨.other, "Protocol error: " ++ text⟩

/-- `Error::network`, as `io::Error::other` shows it. -/
def networkError (text : String) : IoError :=
  ⟨.other, "Network error: " ++ text⟩

/-- The format `{:02x}`. -/
def hex2 (byte : Byte) : String :=
  String.ofList (List.leftpad 2 '0' (Nat.toDigits 16 byte.toNat))

/-- The key and the nonce of a direction. -/
structure Direction where
  key : List Byte
  nonce : List Byte
deriving DecidableEq

namespace Direction

/-- The first nonce is zero. -/
def new (key : List Byte) : Direction :=
  ⟨key, List.replicate nonceLen 0⟩

/-- The loop of `advance`: a wrap carries onward. -/
def advanceBytes : List Byte → List Byte
  | [] => []
  | byte :: bytes =>
      if byte + 1 ≠ 0 then (byte + 1) :: bytes else (byte + 1) :: advanceBytes bytes

/-- The next nonce. -/
def advance (direction : Direction) : Direction :=
  { direction with nonce := advanceBytes direction.nonce }

variable (primitives : Primitives)

/-- `seal`. -/
def sealNext (direction : Direction) (plaintext : List Byte) : List Byte × Direction :=
  (primitives.aes128Gcm.encrypt direction.key direction.nonce plaintext, direction.advance)

/-- `open`: the nonce advances when the tag has verified. -/
def openNext (direction : Direction) (ciphertext : List Byte) :
    Except IoError (List Byte × Direction) :=
  match primitives.aes128Gcm.decrypt direction.key direction.nonce ciphertext with
  | .ok plaintext => .ok (plaintext, direction.advance)
  | .error _ => .error (protocolError "Snell record failed authentication")

end Direction

/-- The key of a salt. -/
def deriveKey (primitives : Primitives) (psk salt : List Byte) : List Byte :=
  (primitives.argon2id psk salt).take 16

/-- `swap_even`: exchange the bytes with an even index, as far as both reach. -/
def swapEven : (padding cipher : List Byte) → List Byte × List Byte
  | byte :: kept :: padding, other :: kept' :: cipher =>
      let swapped := swapEven padding cipher
      (other :: kept :: swapped.1, byte :: kept' :: swapped.2)
  | byte :: padding, other :: cipher => (other :: padding, byte :: cipher)
  | padding, cipher => (padding, cipher)

/-- The header of a record. -/
def encodeHeader (paddingLen payloadLen : Nat) : List Byte :=
  [headerVersion, 0, 0] ++ toBeBytes 2 (BitVec.ofNat 16 paddingLen) ++
    toBeBytes 2 (BitVec.ofNat 16 payloadLen)

/-- The lengths in a header. -/
def decodeHeader (plain : List Byte) : Except IoError (Nat × Nat) :=
  if plain.length ≠ headerPlainLen then
    .error (protocolError s!"Snell header is {plain.length} bytes, expected {headerPlainLen}")
  else if plain.getD 0 0 ≠ headerVersion then
    .error (protocolError (s!"Snell record header version is 0x{hex2 (plain.getD 0 0)}, " ++
      s!"expected 0x{hex2 headerVersion}"))
  else if plain.getD 1 0 ≠ 0 ∨ plain.getD 2 0 ≠ 0 then
    .error (protocolError (s!"Snell header reserved bytes are {hex2 (plain.getD 1 0)} " ++
      s!"{hex2 (plain.getD 2 0)}, expected zero"))
  else
    let paddingLen := ofBeBytes (slice plain 3 2)
    let payloadLen := ofBeBytes (slice plain 5 2)
    if maxPayloadLen < payloadLen then
      .error (protocolError (s!"Snell record declares {payloadLen} payload bytes, above the " ++
        s!"{maxPayloadLen} cap"))
    else .ok (paddingLen, payloadLen)

/-- `SnellStream`, with the reading side of its transport. -/
structure SnellStream where
  inner : Incoming
  read : Option Direction := none
  write : Option Direction := none
  psk : List Byte
  decode : List Byte := []
  decodePos : Nat := 0

namespace SnellStream

variable (primitives : Primitives)

/-- A stream that has read nothing. -/
def new (inner : Incoming) (psk : List Byte) : SnellStream where
  inner := inner
  psk := psk

/-- How much is left in the buffer. -/
def buffered (stream : SnellStream) : Nat :=
  stream.decode.length - stream.decodePos

/-- `read_or_eof`: nothing when the stream ended before the first byte. -/
def readOrEof (inner : Incoming) (want : Nat) : Except IoError (Option (List Byte)) × Incoming :=
  let fill := inner.fill (fun _ => false) want want
  match fill.ending with
  | .filled => (.ok (some fill.bytes), fill.incoming)
  | .eof =>
      if fill.bytes = [] then (.ok none, fill.incoming)
      else (.error ⟨.unexpectedEof, "stream ended inside a Snell record"⟩, fill.incoming)
  | .failed error => (.error error, fill.incoming)

/-- The salt of `read_record`; nothing when the peer closed the connection. -/
def readSalt (stream : SnellStream) : Except IoError (Option Direction) × SnellStream :=
  match stream.read with
  | some direction => (.ok (some direction), stream)
  | none =>
      match readOrEof stream.inner saltLen with
      | (.error error, inner) =>
          (.error (networkError ("Failed to read the Snell salt: " ++ error.text)),
            { stream with inner := inner })
      | (.ok none, inner) => (.ok none, { stream with inner := inner })
      | (.ok (some salt), inner) =>
          let direction := Direction.new (deriveKey primitives stream.psk salt)
          (.ok (some direction), { stream with inner := inner, read := some direction })

/-- The padding and the payload of `read_record`. -/
def readPayload (direction : Direction) (paddingLen payloadLen : Nat) (stream : SnellStream) :
    Except IoError Unit × SnellStream :=
  let padded := if 0 < paddingLen then stream.inner.readExact paddingLen
    else (.ok [], stream.inner)
  match padded with
  | (.error error, inner) =>
      (.error (networkError ("Failed to read Snell padding: " ++ error.text)),
        { stream with inner := inner })
  | (.ok padding, inner) =>
      match inner.readExact (payloadLen + aeadTagLen) with
      | (.error error, inner') =>
          (.error (networkError ("Failed to read a Snell payload: " ++ error.text)),
            { stream with inner := inner' })
      | (.ok payload, inner') =>
          let stream' := { stream with inner := inner' }
          match direction.openNext primitives (swapEven padding payload).2 with
          | .error error => (.error error, stream')
          | .ok (plain, direction') =>
              if plain.length ≠ payloadLen then
                (.error (protocolError (s!"Snell record decoded to {plain.length} bytes, " ++
                  s!"header declared {payloadLen}")), { stream' with read := some direction' })
              else
                (.ok (), { stream' with
                  read := some direction'
                  decode := plain
                  decodePos := 0 })

/-- `read_record`: whether there was one. -/
def readRecord (stream : SnellStream) : Except IoError Bool × SnellStream :=
  match stream.readSalt primitives with
  | (.error error, stream') => (.error error, stream')
  | (.ok none, stream') => (.ok false, stream')
  | (.ok (some direction), stream') =>
      match stream'.inner.readExact headerCipherLen with
      | (.error error, inner) =>
          (.error (networkError ("Failed to read a Snell header: " ++ error.text)),
            { stream' with inner := inner })
      | (.ok header, inner) =>
          match direction.openNext primitives header with
          | .error error => (.error error, { stream' with inner := inner })
          | .ok (plain, direction') =>
              let stream'' := { stream' with inner := inner, read := some direction' }
              match decodeHeader plain with
              | .error error => (.error error, stream'')
              | .ok (paddingLen, payloadLen) =>
                  match stream''.readPayload primitives direction' paddingLen payloadLen with
                  | (.error error, last) => (.error error, last)
                  | (.ok (), last) => (.ok true, last)

/-- One turn of the loop of `read`. -/
def turn (room : Nat) (stream : SnellStream) : Turn SnellStream Answer :=
  if stream.buffered = 0 then
    match stream.readRecord primitives with
    | (.ok true, stream') => .again stream'
    | (.ok false, stream') => .returns (.ok []) stream'
    | (.error error, stream') => .returns (.error error) stream'
  else
    let take := min stream.buffered room
    .returns (.ok (slice stream.decode stream.decodePos take))
      { stream with decodePos := stream.decodePos + take }

/-- `Read::read`.  A record is not empty, so that every further turn has taken a
byte off the transport. -/
def readInto : Reader SnellStream := fun stream room =>
  if room = 0 then some (.ok [], stream)
  else loop (turn primitives room) (stream.inner.wire.length + 1) stream

/-- What `write_record` puts on the wire behind the salt: the header, the padding
and the payload. -/
def sealRecord (direction : Direction) (padding data : List Byte) : List Byte × Direction :=
  let header := direction.sealNext primitives (encodeHeader padding.length data.length)
  let payload := header.2.sealNext primitives data
  let swapped := swapEven padding payload.1
  (header.1 ++ swapped.1 ++ swapped.2, payload.2)

/-- A call of `write`, with the salt and the padding that it draws. -/
structure Draw where
  buf : List Byte
  salt : List Byte
  padding : List Byte

/-- `write_record`: how many bytes it took, and what it puts on the wire. -/
def writeRecord (stream : SnellStream) (draw : Draw) : Nat × List Byte × SnellStream :=
  let take := min draw.buf.length maxPayloadLen
  let (salt, direction) :=
    match stream.write with
    | some direction => ([], direction)
    | none => (draw.salt, Direction.new (deriveKey primitives stream.psk draw.salt))
  let sealed := sealRecord primitives direction draw.padding (draw.buf.take take)
  (take, salt ++ sealed.1, { stream with write := some sealed.2 })

/-- `Write::write`. -/
def writeFrom (stream : SnellStream) (draw : Draw) : Nat × List Byte × SnellStream :=
  if draw.buf = [] then (0, [], stream) else stream.writeRecord primitives draw

end SnellStream

/-!
# Snell codecs

The header codec and the exchange of padding and payload undo themselves, and
the nonce counts.
-/

theorem length_swapEven (padding cipher : List Byte) :
    (swapEven padding cipher).1.length = padding.length ∧
      (swapEven padding cipher).2.length = cipher.length := by
  fun_induction swapEven padding cipher with
  | case1 byte kept padding other kept' cipher swapped ih =>
      exact ⟨congrArg (· + 2) ih.1, congrArg (· + 2) ih.2⟩
  | case2 byte padding other cipher => exact ⟨rfl, rfl⟩
  | case3 padding cipher => exact ⟨rfl, rfl⟩

theorem swapEven_swapEven (padding cipher : List Byte) :
    swapEven (swapEven padding cipher).1 (swapEven padding cipher).2 = (padding, cipher) := by
  fun_induction swapEven padding cipher with
  | case1 byte kept padding other kept' cipher swapped ih =>
      simp only [swapEven, swapped, ih]
  | case2 byte padding other cipher short =>
      cases padding with
      | nil => cases cipher <;> rfl
      | cons kept padding =>
          cases cipher with
          | nil => rfl
          | cons kept' cipher => exact absurd rfl (short kept padding kept' cipher rfl)
  | case3 padding cipher _ none =>
      cases padding with
      | nil => cases cipher <;> rfl
      | cons byte padding =>
          cases cipher with
          | nil => cases padding <;> rfl
          | cons other cipher => exact absurd rfl (none byte padding other cipher rfl)

theorem getElem?_swapEven (padding cipher : List Byte) (index : Nat) :
    (swapEven padding cipher).1[index]? =
        (if index % 2 = 0 ∧ index < min padding.length cipher.length then cipher[index]?
          else padding[index]?) ∧
      (swapEven padding cipher).2[index]? =
        (if index % 2 = 0 ∧ index < min padding.length cipher.length then padding[index]?
          else cipher[index]?) := by
  fun_induction swapEven padding cipher generalizing index with
  | case1 byte kept padding other kept' cipher swapped ih =>
      match index with
      | 0 => exact ⟨(if_pos ⟨rfl, by simp⟩).symm, (if_pos ⟨rfl, by simp⟩).symm⟩
      | 1 => exact ⟨(if_neg (by simp)).symm, (if_neg (by simp)).symm⟩
      | index + 2 =>
          have moves : ((index + 2) % 2 = 0 ∧ index + 2 <
              min (byte :: kept :: padding).length (other :: kept' :: cipher).length) ↔
              (index % 2 = 0 ∧ index < min padding.length cipher.length) := by
            simp only [List.length_cons]
            omega
          simp only [List.getElem?_cons_succ, moves]
          exact ih index
  | case2 byte padding other cipher short =>
      have least : min padding.length cipher.length = 0 := by
        cases padding with
        | nil => exact Nat.zero_min _
        | cons kept padding =>
            cases cipher with
            | nil => exact Nat.min_zero _
            | cons kept' cipher => exact absurd rfl (short kept padding kept' cipher rfl)
      match index with
      | 0 => exact ⟨(if_pos ⟨rfl, by simp⟩).symm, (if_pos ⟨rfl, by simp⟩).symm⟩
      | index + 1 =>
          have stays : ¬ ((index + 1) % 2 = 0 ∧ index + 1 <
              min (byte :: padding).length (other :: cipher).length) := by
            simp only [List.length_cons]
            omega
          rw [if_neg stays, if_neg stays]
          exact ⟨rfl, rfl⟩
  | case3 padding cipher _ none =>
      have least : min padding.length cipher.length = 0 := by
        cases padding with
        | nil => exact Nat.zero_min _
        | cons byte padding =>
            cases cipher with
            | nil => exact Nat.min_zero _
            | cons other cipher => exact absurd rfl (none byte padding other cipher rfl)
      rw [least, if_neg (by omega), if_neg (by omega)]
      exact ⟨rfl, rfl⟩

theorem decodeHeader_encodeHeader {paddingLen payloadLen : Nat} (small : paddingLen < 2 ^ 16)
    (within : payloadLen ≤ maxPayloadLen) :
    decodeHeader (encodeHeader paddingLen payloadLen) = .ok (paddingLen, payloadLen) := by
  have bound : payloadLen < 2 ^ 16 := Nat.lt_of_le_of_lt within (by decide)
  have first : ofBeBytes (slice (encodeHeader paddingLen payloadLen) 3 2) = paddingLen := by
    rw [encodeHeader, List.append_assoc, slice_skip (by rfl : _ ≤ 3)]
    rw [show (3 - [headerVersion, 0, 0].length) = 0 from rfl, slice_here (length_toBeBytes 2 _),
      ofBeBytes_toBeBytes, BitVec.toNat_ofNat]
    omega
  have second : ofBeBytes (slice (encodeHeader paddingLen payloadLen) 5 2) = payloadLen := by
    rw [encodeHeader, slice_skip (by simp : _ ≤ 5), ← List.append_nil (toBeBytes 2 _)]
    rw [show 5 - ([headerVersion, 0, 0] ++ toBeBytes 2 (BitVec.ofNat 16 paddingLen)).length = 0 by
      simp, slice_here (length_toBeBytes 2 _), ofBeBytes_toBeBytes, BitVec.toNat_ofNat]
    omega
  have length : (encodeHeader paddingLen payloadLen).length = headerPlainLen := by
    simp [encodeHeader, headerPlainLen]
  rw [decodeHeader, if_neg (fun differs => differs length), if_neg (fun differs => differs rfl),
    if_neg (by rintro (set | set) <;> exact set rfl), first, second]
  exact if_neg (Nat.not_lt.mpr within)

theorem encodeHeader_of_decodeHeader {plain : List Byte} {paddingLen payloadLen : Nat}
    (decoded : decodeHeader plain = .ok (paddingLen, payloadLen)) :
    encodeHeader paddingLen payloadLen = plain := by
  rw [decodeHeader] at decoded
  split at decoded
  · cases decoded
  rename_i length
  split at decoded
  · cases decoded
  rename_i version
  split at decoded
  · cases decoded
  rename_i reserved
  dsimp only at decoded
  split at decoded
  · cases decoded
  cases decoded
  obtain ⟨a, b, c, d, e, f, g, rfl⟩ : ∃ a b c d e f g, plain = [a, b, c, d, e, f, g] := by
    match plain, not_not.mp length with
    | [a, b, c, d, e, f, g], _ => exact ⟨a, b, c, d, e, f, g, rfl⟩
  have version_eq : a = headerVersion := not_not.mp version
  have reserved_eq : b = 0 ∧ c = 0 := by
    rw [not_or] at reserved
    exact ⟨not_not.mp reserved.1, not_not.mp reserved.2⟩
  have field : ∀ high low : Byte, toBeBytes 2 (BitVec.ofNat 16 (ofBeBytes [high, low])) = [high, low] :=
    fun high low => @toBeBytes_ofBeBytes 16 [high, low] (by simp)
  change [headerVersion, 0, 0] ++ toBeBytes 2 (BitVec.ofNat 16 (ofBeBytes [d, e])) ++
    toBeBytes 2 (BitVec.ofNat 16 (ofBeBytes [f, g])) = _
  rw [field, field, version_eq, reserved_eq.1, reserved_eq.2]
  rfl

end Corduit.Engine.Outbound.Snell
