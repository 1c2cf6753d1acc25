import Corduit.Collection.Segments
import Corduit.Crypto.Aead
import Corduit.Transport.Scratch
import Corduit.Transport.Session
import Corduit.Word.Octets

/-!
# VMess streams

The chunks of a VMess body and the stream over them.  A chunk is its length and
its text under a cipher whose nonce is the chunk's counter; the hashes and the
ciphers are a record of functions.
-/

namespace Corduit.Engine.Outbound.Vmess

open Crypto Transport Word

/-- What seals the body. -/
inductive VmessCipher where
  | auto
  | aes128Gcm
  | chacha20Poly1305
  | none
  | zero
deriving DecidableEq

/-- The cryptographic functions. -/
structure Primitives where
  aes128Gcm : Aead
  chacha20Poly1305 : Aead
  md5 : List Byte → List Byte
  sha256 : List Byte → List Byte
  /-- One block under AES-128. -/
  aesBlock : (key block : List Byte) → List Byte

/-- Both ciphers open what they sealed, and a block has sixteen bytes. -/
structure Primitives.Opens (primitives : Primitives) : Prop where
  aes128Gcm : primitives.aes128Gcm.Opens
  chacha20Poly1305 : primitives.chacha20Poly1305.Opens
  length_aesBlock : ∀ key block, (primitives.aesBlock key block).length = 16

variable (primitives : Primitives)

/-- `io::Error::other`. -/
def other (text : String) : IoError :=
  ⟨.other, text⟩

/-- The key of ChaCha20-Poly1305: two digests. -/
def chacha20Poly1305Key (bodyKey : List Byte) : List Byte :=
  let first := primitives.md5 bodyKey
  first ++ primitives.md5 first

/-- The cipher of a body and its key, when it has one. -/
def bodyCipher (cipher : VmessCipher) (key : Octets 16) : Option (Aead × List Byte) :=
  match cipher with
  | .aes128Gcm | .auto => some (primitives.aes128Gcm, key.bytes)
  | .chacha20Poly1305 =>
      some (primitives.chacha20Poly1305, chacha20Poly1305Key primitives key.bytes)
  | .none | .zero => Option.none

/-- The nonce of a chunk: its counter and ten bytes of the IV. -/
def chunkNonce (iv : Octets 16) (count : BitVec 16) : List Byte :=
  toBeBytes 2 count ++ slice iv.bytes 2 10

/-- A length and what it is the length of. -/
def withLength (bytes : List Byte) : List Byte :=
  toBeBytes 2 (BitVec.ofNat 16 bytes.length) ++ bytes

/-- The text of a chunk on the wire, behind its length. -/
def sealChunk (cipher : VmessCipher) (data : List Byte) (key iv : Octets 16)
    (count : BitVec 16) : List Byte :=
  match bodyCipher primitives cipher key with
  | some (aead, bodyKey) => aead.encrypt bodyKey (chunkNonce iv count) data
  | Option.none => data

/-- A chunk behind its length. -/
def encryptChunkStatic (cipher : VmessCipher) (data : List Byte) (key iv : Octets 16)
    (count : BitVec 16) : List Byte :=
  withLength (sealChunk primitives cipher data key iv count)

/-- `decrypt_chunk_static`, of what stands behind the length. -/
def decryptChunkStatic (cipher : VmessCipher) (data : List Byte) (key iv : Octets 16)
    (count : BitVec 16) : Except IoError (List Byte) :=
  match bodyCipher primitives cipher key with
  | some (aead, bodyKey) =>
      match aead.decrypt bodyKey (chunkNonce iv count) data with
      | .ok plaintext => .ok plaintext
      | .error error =>
          .error (other ("Protocol error: Failed to decrypt data: " ++ error.debug))
  | Option.none => .ok data

/-- One pad of a keyed hash: the key block with a byte mixed into it. -/
def pad (byte : Byte) (keyBlock : List Byte) : List Byte :=
  keyBlock.map (byte ^^^ ·)

/-- `kdf_chain`, with the outermost salt first. -/
def kdfChain (sha256 : List Byte → List Byte) : List (List Byte) → List Byte → List Byte
  | [], message => sha256 message
  | salt :: innerLevels, message =>
      let hashed := if 64 < salt.length then sha256 salt else salt
      let keyBlock := hashed ++ List.replicate (64 - hashed.length) 0
      let innerDigest := kdfChain sha256 innerLevels (pad 0x36 keyBlock ++ message)
      kdfChain sha256 innerLevels (pad 0x5c keyBlock ++ innerDigest)

/-- `kdf`: the path elements key the levels around the base salt. -/
def kdf (key : List Byte) (path : List (List Byte)) : List Byte :=
  kdfChain primitives.sha256 (path.reverse ++ [ascii "VMess AEAD KDF"]) key

/-- The first 16 bytes of the KDF. -/
def kdf16 (key : List Byte) (path : List (List Byte)) : List Byte :=
  (kdf primitives key path).take 16

/-- The first 12 bytes of the KDF. -/
def kdf12 (key : List Byte) (path : List (List Byte)) : List Byte :=
  (kdf primitives key path).take 12

/-- `VMESS_AEAD_AUTH_LEN`. -/
def vmessAeadAuthLen : Nat := 16

/-- `VMESS_RESPONSE_HEADER_MAX`. -/
def vmessResponseHeaderMax : Nat := 4096

/-- `RESPONSE_LENGTH_KEY_SALT`. -/
def responseLengthKeySalt : List Byte := ascii "AEAD Resp Header Len Key"

/-- `RESPONSE_LENGTH_IV_SALT`. -/
def responseLengthIvSalt : List Byte := ascii "AEAD Resp Header Len IV"

/-- `RESPONSE_HEADER_KEY_SALT`. -/
def responseHeaderKeySalt : List Byte := ascii "AEAD Resp Header Key"

/-- `RESPONSE_HEADER_IV_SALT`. -/
def responseHeaderIvSalt : List Byte := ascii "AEAD Resp Header IV"

/-- The length of the response header. -/
def openResponseHeaderLength (responseKey responseIv : Octets 16) (block : List Byte) :
    Except IoError Nat :=
  match primitives.aes128Gcm.decrypt (kdf16 primitives responseKey.bytes [responseLengthKeySalt])
      (kdf12 primitives responseIv.bytes [responseLengthIvSalt]) block with
  | .error error => .error (other ("vmess: response header length: " ++ error.display))
  | .ok plain =>
      if plain.length ≠ 2 then
        .error (other "vmess: response header length is not two bytes")
      else .ok (ofBeBytes plain)

/-- The response header. -/
def openResponseHeaderPayload (responseKey responseIv : Octets 16) (block : List Byte) :
    Except IoError (List Byte) :=
  match primitives.aes128Gcm.decrypt (kdf16 primitives responseKey.bytes [responseHeaderKeySalt])
      (kdf12 primitives responseIv.bytes [responseHeaderIvSalt]) block with
  | .error error => .error (other ("vmess: response header: " ++ error.display))
  | .ok plain => .ok plain

/-- `aes128_cfb_xor` on blocks, with the ciphertext block before them. -/
def cfbXor (key : List Byte) (encrypting : Bool) :
    (feedback : List Byte) → List (List Byte) → List Byte
  | _, [] => []
  | feedback, chunk :: chunks =>
      let mixed := chunk.zipWith (· ^^^ ·) (primitives.aesBlock key feedback)
      let feedback' :=
        if chunk.length = 16 then (if encrypting then mixed else chunk) else feedback
      mixed ++ cfbXor key encrypting feedback' chunks

/-- Feedback mode. -/
def aes128CfbEncrypt (key iv : Octets 16) (data : List Byte) : List Byte :=
  cfbXor primitives key.bytes true iv.bytes (Collection.chunks 16 data)

/-- Feedback mode, back. -/
def aes128CfbDecrypt (key iv : Octets 16) (data : List Byte) : List Byte :=
  cfbXor primitives key.bytes false iv.bytes (Collection.chunks 16 data)

/-- What `read` assembles next. -/
inductive DownlinkStage where
  | legacyHeader
  | headerLength
  | headerPayload
  | chunkLength
  | chunkPayload
deriving DecidableEq

/-- `VmessStream`, with the reading side of its transport. -/
structure VmessStream where
  inner : Incoming
  cipher : VmessCipher
  encKey : Octets 16
  encIv : Octets 16
  decKey : Octets 16
  decIv : Octets 16
  encCount : BitVec 16 := 0
  encExhausted : Bool := false
  decCount : BitVec 16 := 0
  decExhausted : Bool := false
  stage : DownlinkStage
  fill : Scratch
  expectedResponseHeader : Option Byte
  readBuffer : List Byte := []
  readPos : Nat := 0
  eof : Bool := false
  endChunkSent : Bool := false

/-- `VMESS_CHUNK_MAX`. -/
def vmessChunkMax : Nat := 16 * 1024

namespace VmessStream

/-- A stream that has read nothing. -/
def new (inner : Incoming) (cipher : VmessCipher) (encKey encIv decKey decIv : Octets 16)
    (expectedResponseHeader : Byte) (legacy : Bool) : VmessStream where
  inner := inner
  cipher := cipher
  encKey := encKey
  encIv := encIv
  decKey := decKey
  decIv := decIv
  stage := if legacy then .legacyHeader else .headerLength
  fill := if legacy then .zeroed 4 else .zeroed (2 + vmessAeadAuthLen)
  expectedResponseHeader := some expectedResponseHeader

/-- `fill_stage`: whether the buffer is complete. -/
def fillStage (stream : VmessStream) : Except IoError Bool × VmessStream :=
  match stream.fill.fill stream.inner with
  | (.filled, fill, inner) => (.ok true, { stream with fill := fill, inner := inner })
  | (.eof, fill, inner) =>
      let stream' := { stream with fill := fill, inner := inner }
      if stream.stage = .chunkLength && fill.filled = 0 then
        (.ok true, { stream' with eof := true })
      else (.error ⟨.unexpectedEof, "unexpected EOF"⟩, stream')
  | (.failed error, fill, inner) =>
      let stream' := { stream with fill := fill, inner := inner }
      if error.kind.isReadIntervalElapsed then (.ok false, stream') else (.error error, stream')

/-- The next chunk begins. -/
def beginChunkLength (stream : VmessStream) : VmessStream :=
  { stream with stage := .chunkLength, fill := .zeroed 2 }

/-- The echo of the response header is not the expected byte. -/
def headerMismatch (expected got : Byte) : IoError :=
  other s!"vmess: response header byte mismatch (expected {expected.toNat}, got {got.toNat})"

/-- What the full buffer of a stage brings. -/
def advanceStage (stream : VmessStream) : Except IoError Unit × VmessStream :=
  match stream.stage with
  | .legacyHeader =>
      let block := aes128CfbDecrypt primitives stream.decKey stream.decIv stream.fill.bytes
      let echo := block.getD 0 0
      match stream.expectedResponseHeader with
      | some expected =>
          if echo ≠ expected then (.error (headerMismatch expected echo), stream)
          else
            let stream' := { stream with expectedResponseHeader := Option.none }
            if block.getD 2 0 ≠ 0 then
              (.error (other
                "vmess: legacy response carries a dynamic port, which is not supported"), stream')
            else (.ok (), stream'.beginChunkLength)
      | Option.none =>
          if block.getD 2 0 ≠ 0 then
            (.error (other
              "vmess: legacy response carries a dynamic port, which is not supported"), stream)
          else (.ok (), stream.beginChunkLength)
  | .headerLength =>
      match openResponseHeaderLength primitives stream.decKey stream.decIv stream.fill.bytes with
      | .error error => (.error error, stream)
      | .ok length =>
          if vmessResponseHeaderMax < length then
            (.error (other s!"vmess: response header length {length} is out of range"), stream)
          else
            (.ok (), { stream with
              fill := .zeroed (length + vmessAeadAuthLen)
              stage := .headerPayload })
  | .headerPayload =>
      match openResponseHeaderPayload primitives stream.decKey stream.decIv stream.fill.bytes with
      | .error error => (.error error, stream)
      | .ok plain =>
          if plain.length < 4 then
            (.error (other "vmess: response header payload is too short"), stream)
          else
            let stream' := { stream with expectedResponseHeader := Option.none }
            match stream.expectedResponseHeader with
            | some expected =>
                if plain.getD 0 0 ≠ expected then
                  (.error (headerMismatch expected (plain.getD 0 0)), stream')
                else (.ok (), stream'.beginChunkLength)
            | Option.none => (.ok (), stream'.beginChunkLength)
  | .chunkLength =>
      let length := ofBeBytes (slice stream.fill.bytes 0 2)
      if length = 0 then (.ok (), { stream with eof := true })
      else (.ok (), { stream with fill := .zeroed length, stage := .chunkPayload })
  | .chunkPayload =>
      if stream.decExhausted then
        (.error (other ("vmess: response chunk counter is exhausted (nonce reuse); " ++
          "reconnect to the server")), stream)
      else
        match decryptChunkStatic primitives stream.cipher stream.fill.bytes stream.decKey
            stream.decIv stream.decCount with
        | .error error => (.error error, stream)
        | .ok decrypted =>
            let stream' := { stream with
              decExhausted := stream.decExhausted || stream.decCount = BitVec.allOnes 16
              decCount := stream.decCount + 1 }
            if decrypted = [] then (.ok (), { stream' with eof := true })
            else
              (.ok (), { stream' with readBuffer := decrypted, readPos := 0 }.beginChunkLength)

/-- One turn of the loop of `read`. -/
def turn (room : Nat) (stream : VmessStream) : Turn VmessStream Answer :=
  if stream.readPos < stream.readBuffer.length then
    let count := min (stream.readBuffer.length - stream.readPos) room
    let bytes := slice stream.readBuffer stream.readPos count
    if stream.readBuffer.length ≤ stream.readPos + count then
      .returns (.ok bytes) { stream with readBuffer := [], readPos := 0 }
    else .returns (.ok bytes) { stream with readPos := stream.readPos + count }
  else if stream.eof then .returns (.ok []) stream
  else
    match stream.fillStage with
    | (.error error, stream') => .returns (.error error) stream'
    | (.ok completed, stream') =>
        if stream'.eof then .returns (.ok []) stream'
        else if !completed then .returns (.error ⟨.wouldBlock, "vmess: idle poll"⟩) stream'
        else
          match stream'.advanceStage primitives with
          | (.error error, stream'') => .returns (.error error) stream''
          | (.ok (), stream'') => .again stream''

/-- `Read::read`.  Every further turn of its loop has taken a byte off the
transport. -/
def read : Reader VmessStream := fun stream room =>
  loop (turn primitives room) (stream.inner.wire.length + 1) stream

end VmessStream

end Corduit.Engine.Outbound.Vmess

/-!
# What the ciphers undo

A chunk opens under the key, the IV and the counter that it was sealed with, the
two blocks of a response header open under theirs, and decryption in feedback
mode inverts encryption.
-/

namespace Corduit.Engine.Outbound.Vmess

open Collection Crypto Transport Word

variable {primitives : Primitives}

theorem opens_bodyCipher (opens : primitives.Opens) {cipher : VmessCipher} {key : Octets 16}
    {aead : Aead} {bodyKey : List Byte}
    (has : bodyCipher primitives cipher key = some (aead, bodyKey)) : aead.Opens := by
  cases cipher <;> cases has
  · exact opens.aes128Gcm
  · exact opens.aes128Gcm
  · exact opens.chacha20Poly1305

theorem decryptChunkStatic_sealChunk (opens : primitives.Opens) (cipher : VmessCipher)
    (data : List Byte) (key iv : Octets 16) (count : BitVec 16) :
    decryptChunkStatic primitives cipher (sealChunk primitives cipher data key iv count) key iv
      count = .ok data := by
  rw [decryptChunkStatic, sealChunk]
  cases has : bodyCipher primitives cipher key with
  | none => rfl
  | some pair =>
      rcases pair with ⟨aead, bodyKey⟩
      dsimp only
      rw [(opens_bodyCipher opens has).decrypt_encrypt]

/-- What a cipher adds to a text. -/
def overhead (cipher : VmessCipher) : Nat :=
  match cipher with
  | .none | .zero => 0
  | _ => 16

theorem length_sealChunk (opens : primitives.Opens) (cipher : VmessCipher) (data : List Byte)
    (key iv : Octets 16) (count : BitVec 16) :
    (sealChunk primitives cipher data key iv count).length = data.length + overhead cipher := by
  rw [sealChunk]
  cases cipher with
  | auto => exact opens.aes128Gcm.length_encrypt _ _ _
  | aes128Gcm => exact opens.aes128Gcm.length_encrypt _ _ _
  | chacha20Poly1305 => exact opens.chacha20Poly1305.length_encrypt _ _ _
  | none => rfl
  | zero => rfl

section Feedback

theorem length_cfbXor (opens : primitives.Opens) (key : List Byte) (encrypting : Bool)
    (feedback : List Byte) {pieces : List (List Byte)}
    (short : ∀ chunk ∈ pieces, chunk.length ≤ 16) :
    (cfbXor primitives key encrypting feedback pieces).length = pieces.flatten.length := by
  induction pieces generalizing feedback with
  | nil => rfl
  | cons chunk pieces ih =>
      have ⟨here, later⟩ := List.forall_mem_cons.mp short
      rw [cfbXor, List.length_append, ih _ later, List.length_zipWith, opens.length_aesBlock,
        List.flatten_cons, List.length_append, Nat.min_eq_left here]

theorem cfbXor_cfbXor (opens : primitives.Opens) (key feedback data : List Byte) :
    cfbXor primitives key false feedback
      (chunks 16 (cfbXor primitives key true feedback (chunks 16 data))) = data := by
  induction data using chunks_induction (by decide : 0 < 16) generalizing feedback with
  | nil => rfl
  | step data nonempty ih =>
      have block := opens.length_aesBlock key feedback
      have short : (data.take 16).length ≤ (primitives.aesBlock key feedback).length := by
        rw [block]
        exact List.length_take_le 16 data
      have mixed_length : ((data.take 16).zipWith (· ^^^ ·)
          (primitives.aesBlock key feedback)).length = (data.take 16).length := by
        rw [List.length_zipWith, Nat.min_eq_left short]
      have cancel := zipWith_xor_cancel short
      rw [chunks_of_ne_nil (by decide) nonempty, cfbXor]
      generalize (data.take 16).zipWith (· ^^^ ·) (primitives.aesBlock key feedback) = mixed
        at mixed_length cancel
      by_cases whole : (data.take 16).length = 16
      · rw [if_pos whole, if_pos rfl]
        have sixteen := mixed_length.trans whole
        have some : mixed ++ cfbXor primitives key true mixed (chunks 16 (data.drop 16)) ≠ [] := by
          intro empty
          rw [(List.append_eq_nil_iff.mp empty).1] at sixteen
          cases sixteen
        rw [chunks_of_ne_nil (by decide) some, List.take_left' sixteen, List.drop_left' sixteen,
          cfbXor, if_pos sixteen, if_neg Bool.false_ne_true, ih mixed, cancel,
          List.take_append_drop]
      · -- The last piece is shorter than a block, and nothing follows it.
        have few : data.length < 16 := by
          rw [List.length_take] at whole
          omega
        have rest : data.drop 16 = [] := List.drop_eq_nil_of_le (Nat.le_of_lt few)
        have all : data.take 16 = data := List.take_of_length_le (Nat.le_of_lt few)
        rw [rest, chunks_nil, cfbXor, List.append_nil]
        rw [all] at mixed_length cancel
        have some : mixed ≠ [] := by
          intro empty
          rw [empty] at mixed_length
          exact nonempty (List.length_eq_zero_iff.mp mixed_length.symm)
        have fits : mixed.length ≤ 16 := by omega
        rw [chunks_of_ne_nil (by decide) some, List.take_of_length_le fits,
          List.drop_eq_nil_of_le fits, chunks_nil, cfbXor, cfbXor, List.append_nil, cancel]

end Feedback

theorem aes128CfbDecrypt_aes128CfbEncrypt (opens : primitives.Opens) (key iv : Octets 16)
    (data : List Byte) :
    aes128CfbDecrypt primitives key iv (aes128CfbEncrypt primitives key iv data) = data :=
  cfbXor_cfbXor opens key.bytes iv.bytes data

theorem length_aes128CfbEncrypt (opens : primitives.Opens) (key iv : Octets 16)
    (data : List Byte) : (aes128CfbEncrypt primitives key iv data).length = data.length := by
  rw [aes128CfbEncrypt, length_cfbXor opens, flatten_chunks (by decide)]
  exact fun chunk member => (mem_chunks (by decide) member).2

/-- The length block of a response header, as a server seals it. -/
def sealResponseHeaderLength (primitives : Primitives) (responseKey responseIv : Octets 16)
    (length : Nat) : List Byte :=
  primitives.aes128Gcm.encrypt (kdf16 primitives responseKey.bytes [responseLengthKeySalt])
    (kdf12 primitives responseIv.bytes [responseLengthIvSalt])
    (toBeBytes 2 (BitVec.ofNat 16 length))

/-- The payload of a response header, as a server seals it. -/
def sealResponseHeaderPayload (primitives : Primitives) (responseKey responseIv : Octets 16)
    (plain : List Byte) : List Byte :=
  primitives.aes128Gcm.encrypt (kdf16 primitives responseKey.bytes [responseHeaderKeySalt])
    (kdf12 primitives responseIv.bytes [responseHeaderIvSalt]) plain

theorem openResponseHeaderLength_seal (opens : primitives.Opens) (key iv : Octets 16)
    {length : Nat} (small : length < 2 ^ 16) :
    openResponseHeaderLength primitives key iv
      (sealResponseHeaderLength primitives key iv length) = .ok length := by
  rw [openResponseHeaderLength, sealResponseHeaderLength, opens.aes128Gcm.decrypt_encrypt]
  dsimp only
  rw [if_neg (by simp), ofBeBytes_toBeBytes, BitVec.toNat_ofNat]
  congr 1
  omega

theorem openResponseHeaderPayload_seal (opens : primitives.Opens) (key iv : Octets 16)
    (plain : List Byte) :
    openResponseHeaderPayload primitives key iv
      (sealResponseHeaderPayload primitives key iv plain) = .ok plain := by
  rw [openResponseHeaderPayload, sealResponseHeaderPayload, opens.aes128Gcm.decrypt_encrypt]

end Corduit.Engine.Outbound.Vmess

/-!
# The uplink of a VMess stream

Writes seal a chunk for every piece of their buffer and a shutdown seals an
empty one.  The counters that chunks were sealed with are recorded: a cipher
with a key must not see one of them twice.
-/

namespace Corduit.Engine.Outbound.Vmess

open Collection Transport Word

/-- The cipher seals with a key. -/
def VmessCipher.isKeyed : VmessCipher → Bool
  | auto | aes128Gcm | chacha20Poly1305 => true
  | none | zero => false

/-- A stream, the writing side of its transport and, for the record, the
counters of the chunks that were sealed. -/
structure Uplink where
  stream : VmessStream
  outgoing : Outgoing
  counters : List (BitVec 16) := []

namespace Uplink

variable (primitives : Primitives)

/-- Seal a chunk and send it. -/
def sendChunk (uplink : Uplink) (data : List Byte) (count : BitVec 16) :
    Except IoError Unit × Uplink :=
  let encrypted := encryptChunkStatic primitives uplink.stream.cipher data uplink.stream.encKey
    uplink.stream.encIv count
  match uplink.outgoing.writeAll encrypted with
  | (result, outgoing) =>
      (result, { uplink with outgoing := outgoing, counters := uplink.counters ++ [count] })

/-- The loop of `write` over its chunks. -/
def sendChunks : List (List Byte) → BitVec 16 → Uplink → Except IoError (BitVec 16) × Uplink
  | [], count, uplink => (.ok count, uplink)
  | chunk :: chunks, count, uplink =>
      match uplink.sendChunk primitives chunk count with
      | (.error error, uplink') => (.error error, uplink')
      | (.ok (), uplink') =>
          sendChunks chunks (count + 1)
            { uplink' with stream.encExhausted :=
                uplink'.stream.encExhausted || count = BitVec.allOnes 16 }

/-- The answer of `write` when the counters do not suffice. -/
def exhausted : IoError :=
  other "vmess: request chunk counter is exhausted (nonce reuse); reconnect to the server"

/-- The counters that are left: 65536 of them at first. -/
def remaining (uplink : Uplink) : Nat :=
  65535 - uplink.stream.encCount.toNat + 1

/-- `Write::write`.  The counter is stored when every chunk was sent. -/
def write (uplink : Uplink) (buf : List Byte) : Except IoError Nat × Uplink :=
  if uplink.stream.encExhausted then (.error exhausted, uplink)
  else if uplink.remaining < (chunks vmessChunkMax buf).length then (.error exhausted, uplink)
  else
    match sendChunks primitives (chunks vmessChunkMax buf) uplink.stream.encCount uplink with
    | (.error error, uplink') => (.error error, uplink')
    | (.ok count, uplink') => (.ok buf.length, { uplink' with stream.encCount := count })

/-- The end-of-stream chunk of `shutdown`, whatever becomes of it. -/
def sendEndChunk (uplink : Uplink) : Uplink :=
  if uplink.stream.encExhausted then uplink
  else
    let count := uplink.stream.encCount
    let counted := { uplink with
      stream.encCount := count + 1
      stream.encExhausted := uplink.stream.encExhausted || count = BitVec.allOnes 16 }
    (counted.sendChunk primitives [] count).2

/-- `SyncStream::shutdown`. -/
def shutdown (uplink : Uplink) (how : Shutdown) : Except IoError Unit × Uplink :=
  let uplink' :=
    if how.writes && !uplink.stream.endChunkSent then
      { uplink with stream.endChunkSent := true }.sendEndChunk primitives
    else uplink
  match uplink'.outgoing.shutdownLenient how with
  | (result, outgoing) => (result, { uplink' with outgoing := outgoing })

/-- The calls of the writing side. -/
inductive Call where
  | write (buf : List Byte)
  | shutdown (how : Shutdown)
deriving DecidableEq

/-- The stream after a call. -/
def call (uplink : Uplink) : Call → Uplink
  | .write buf => (uplink.write primitives buf).2
  | .shutdown how => (uplink.shutdown primitives how).2

/-- The stream after one call after the other. -/
def run (uplink : Uplink) (calls : List Call) : Uplink :=
  Transition.run (call primitives) uplink calls

/-- Every call with the stream it was made on. -/
def visits (uplink : Uplink) : List Call → List (Uplink × Call)
  | [] => []
  | made :: calls => (uplink, made) :: visits (uplink.call primitives made) calls

/-- A new stream over a transport. -/
def new (cipher : VmessCipher) (encKey encIv decKey decIv : Octets 16)
    (expectedResponseHeader : Byte) (legacy : Bool) (incoming : Incoming)
    (outgoing : Outgoing) : Uplink where
  stream := VmessStream.new incoming cipher encKey encIv decKey decIv expectedResponseHeader legacy
  outgoing := outgoing

/-- The counters that `enc_key` was used with. -/
def keyCounters (uplink : Uplink) : List (BitVec 16) :=
  if uplink.stream.cipher.isKeyed then uplink.counters else []

end Uplink

end Corduit.Engine.Outbound.Vmess
