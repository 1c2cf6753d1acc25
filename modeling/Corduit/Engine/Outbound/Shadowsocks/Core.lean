import Corduit.Collection.Segments
import Corduit.Crypto.Aead
import Corduit.Transport.Session
import Corduit.Word.Octets

/-!
# Shadowsocks streams

A stream is a salt and then chunks, each of them a sealed length and a sealed
text.  Every sealing takes the next value of a counter as its nonce, and so does
every opening.
-/

namespace Corduit.Engine.Outbound.Shadowsocks

open Collection Crypto Transport Word

/-- The AEAD of a method. -/
inductive CipherType where
  | aes128Gcm
  | aes256Gcm
  | chacha20Poly1305
deriving DecidableEq

/-- The sizes of a method. -/
structure CipherSpec where
  keyLen : Nat
  saltLen : Nat
  tagLen : Nat
  cipherType : CipherType
deriving DecidableEq

/-- The specifications that `CipherSpec::new` returns. -/
def CipherType.spec : CipherType → CipherSpec
  | aes256Gcm => ⟨32, 32, 16, aes256Gcm⟩
  | aes128Gcm => ⟨16, 16, 16, aes128Gcm⟩
  | chacha20Poly1305 => ⟨32, 32, 16, chacha20Poly1305⟩

/-- The cryptographic functions. -/
structure Primitives where
  aes128Gcm : Aead
  aes256Gcm : Aead
  chacha20Poly1305 : Aead
  md5 : List Byte → List Byte
  hkdfSha1 : (salt key info : List Byte) → (length : Nat) → List Byte

/-- Every cipher opens what it sealed. -/
structure Primitives.Opens (primitives : Primitives) : Prop where
  aes128Gcm : primitives.aes128Gcm.Opens
  aes256Gcm : primitives.aes256Gcm.Opens
  chacha20Poly1305 : primitives.chacha20Poly1305.Opens

variable (primitives : Primitives)

/-- The cipher of a type. -/
def Primitives.aead : CipherType → Aead
  | .aes128Gcm => primitives.aes128Gcm
  | .aes256Gcm => primitives.aes256Gcm
  | .chacha20Poly1305 => primitives.chacha20Poly1305

/-- The digests of `evp_bytes_to_key`, each of the one before and the password. -/
def digests (password : List Byte) (keyLen : Nat) : (bound : Nat) → (key prev : List Byte) → List Byte
  | 0, key, _ => key
  | bound + 1, key, prev =>
      if key.length < keyLen then
        let prev' := primitives.md5 (prev ++ password)
        digests password keyLen bound (key ++ prev') prev'
      else key

/-- `evp_bytes_to_key`; a digest is not empty, so that as many as the key has
bytes suffice. -/
def evpBytesToKey (password : List Byte) (keyLen : Nat) : List Byte :=
  (digests primitives password keyLen keyLen [] []).take keyLen

/-- The subkey of a salt. -/
def deriveSubkeyForCipher (password salt : List Byte) (spec : CipherSpec) : List Byte :=
  primitives.hkdfSha1 salt (evpBytesToKey primitives password spec.keyLen) (ascii "ss-subkey")
    spec.keyLen

/-- `io::Error::other` of an `Error::protocol`. -/
def protocolError (text : String) : IoError :=
  ⟨.other, "Protocol error: " ++ text⟩

/-- A key with the count of its operations. -/
structure AeadCipher where
  cipherType : CipherType
  key : List Byte
  counter : BitVec 64
  tagLen : Nat
deriving DecidableEq

namespace AeadCipher

/-- No operation yet. -/
def new (spec : CipherSpec) (key : List Byte) : AeadCipher :=
  ⟨spec.cipherType, key, 0, spec.tagLen⟩

/-- `next_nonce`: the counter, least significant byte first, and then it
wraps. -/
def nextNonce (cipher : AeadCipher) : List Byte × AeadCipher :=
  (toLeBytes 8 cipher.counter ++ List.replicate 4 0, { cipher with counter := cipher.counter + 1 })

/-- Seal under the next nonce. -/
def encrypt (cipher : AeadCipher) (plaintext : List Byte) : List Byte × AeadCipher :=
  match cipher.nextNonce with
  | (nonce, cipher') =>
      ((primitives.aead cipher.cipherType).encrypt cipher.key nonce plaintext, cipher')

/-- `decrypt`: the counter advances whether it succeeds or not. -/
def decrypt (cipher : AeadCipher) (ciphertext : List Byte) :
    Except IoError (List Byte) × AeadCipher :=
  match cipher.nextNonce with
  | (nonce, cipher') =>
      match (primitives.aead cipher.cipherType).decrypt cipher.key nonce ciphertext with
      | .ok plaintext => (.ok plaintext, cipher')
      | .error error => (.error (protocolError ("AEAD decrypt failed: " ++ error.debug)), cipher')

end AeadCipher

/-- The longest chunk that is sent. -/
def chunkMax : Nat := 0x3fff

/-- A chunk: its length and, unless it is empty, its text. -/
def sealChunk (enc : AeadCipher) (data : List Byte) : List Byte × AeadCipher :=
  match enc.encrypt primitives (toBeBytes 2 (BitVec.ofNat 16 data.length)) with
  | (encLen, enc') =>
      if 0 < data.length then
        match enc'.encrypt primitives data with
        | (encData, enc'') => (encLen ++ encData, enc'')
      else (encLen, enc')

/-- `send_encrypted_chunk`, with what it sends. -/
def sendEncryptedChunk (enc : AeadCipher) (data : List Byte) :
    Except IoError (List Byte) × AeadCipher :=
  if chunkMax < data.length then
    (.error (protocolError "Shadowsocks chunk too large (>16KB)"), enc)
  else
    match sealChunk primitives enc data with
    | (bytes, enc') => (.ok bytes, enc')

/-- `recv_decrypted_chunk`: nothing at the end of the stream.  What it has read
when it fails is gone. -/
def recvDecryptedChunk (reader : Incoming) (dec : AeadCipher) :
    Except IoError (Option (List Byte)) × Incoming × AeadCipher :=
  match reader.readExact (2 + dec.tagLen) with
  | (.error error, reader') =>
      if error.kind = .unexpectedEof then (.ok none, reader', dec) else (.error error, reader', dec)
  | (.ok encLen, reader') =>
      match dec.decrypt primitives encLen with
      | (.error error, dec') => (.error error, reader', dec')
      | (.ok lenPlain, dec') =>
          if lenPlain.length ≠ 2 then
            (.error ⟨.invalidData, "Invalid SS length field"⟩, reader', dec')
          else
            let dataLen := ofBeBytes lenPlain
            if dataLen = 0 then (.ok none, reader', dec')
            else
              match reader'.readExact (dataLen + dec.tagLen) with
              | (.error error, reader'') => (.error error, reader'', dec')
              | (.ok encData, reader'') =>
                  match dec'.decrypt primitives encData with
                  | (.error error, dec'') => (.error error, reader'', dec'')
                  | (.ok data, dec'') => (.ok (some data), reader'', dec'')

/-- `ShadowsocksStream`, with the reading side of its transport. -/
structure ShadowsocksStream where
  inner : Incoming
  enc : AeadCipher
  dec : Option AeadCipher := none
  password : List Byte
  cipherSpec : CipherSpec
  readBuffer : List Byte := []
  readPos : Nat := 0
  eof : Bool := false

namespace ShadowsocksStream

/-- A stream that has read nothing. -/
def new (inner : Incoming) (enc : AeadCipher) (cipherSpec : CipherSpec) (password : List Byte) :
    ShadowsocksStream where
  inner := inner
  enc := enc
  password := password
  cipherSpec := cipherSpec

/-- The salt of the peer, read once, gives the cipher of the chunks. -/
def readSalt (stream : ShadowsocksStream) : Except IoError AeadCipher × ShadowsocksStream :=
  match stream.dec with
  | some dec => (.ok dec, stream)
  | none =>
      match stream.inner.readExact stream.cipherSpec.saltLen with
      | (.error error, inner) => (.error error, { stream with inner := inner })
      | (.ok serverSalt, inner) =>
          let dec := AeadCipher.new stream.cipherSpec
            (deriveSubkeyForCipher primitives stream.password serverSalt stream.cipherSpec)
          (.ok dec, { stream with inner := inner, dec := some dec })

/-- The chunk that `read` receives. -/
def receive (stream : ShadowsocksStream) :
    Except IoError (Option (List Byte)) × ShadowsocksStream :=
  match stream.readSalt primitives with
  | (.error error, stream') => (.error error, stream')
  | (.ok dec, stream') =>
      match recvDecryptedChunk primitives stream'.inner dec with
      | (result, inner, dec') => (result, { stream' with inner := inner, dec := some dec' })

/-- One turn of the loop of `read`. -/
def turn (room : Nat) (stream : ShadowsocksStream) : Turn ShadowsocksStream Answer :=
  if stream.readPos < stream.readBuffer.length then
    let count := min (stream.readBuffer.length - stream.readPos) room
    let bytes := slice stream.readBuffer stream.readPos count
    if stream.readBuffer.length ≤ stream.readPos + count then
      .returns (.ok bytes) { stream with readBuffer := [], readPos := 0 }
    else .returns (.ok bytes) { stream with readPos := stream.readPos + count }
  else if stream.eof then .returns (.ok []) stream
  else
    match stream.receive primitives with
    | (.error error, stream') => .returns (.error error) stream'
    | (.ok (some chunk), stream') => .again { stream' with readBuffer := chunk, readPos := 0 }
    | (.ok none, stream') => .returns (.ok []) { stream' with eof := true }

/-- `Read::read`.  Every further turn of its loop has taken a byte off the
transport. -/
def read : Reader ShadowsocksStream := fun stream room =>
  loop (turn primitives room) (stream.inner.wire.length + 1) stream

/-- The chunks of `write`, one after the other, and what they put on the wire. -/
def sendChunks : AeadCipher → List (List Byte) → Except IoError (List Byte) × AeadCipher
  | enc, [] => (.ok [], enc)
  | enc, chunk :: chunks =>
      match sendEncryptedChunk primitives enc chunk with
      | (.error error, enc') => (.error error, enc')
      | (.ok bytes, enc') =>
          match sendChunks enc' chunks with
          | (.error error, enc'') => (.error error, enc'')
          | (.ok later, enc'') => (.ok (bytes ++ later), enc'')

/-- `Write::write`, with what it puts on the wire. -/
def write (stream : ShadowsocksStream) (buf : List Byte) :
    Except IoError (Nat × List Byte) × ShadowsocksStream :=
  match sendChunks primitives stream.enc (chunks chunkMax buf) with
  | (.error error, enc) => (.error error, { stream with enc := enc })
  | (.ok bytes, enc) => (.ok (buf.length, bytes), { stream with enc := enc })

end ShadowsocksStream

end Corduit.Engine.Outbound.Shadowsocks

/-!
# The stream of a peer

What a peer seals and how its chunks are opened one by one.  A read of the
transport that runs out of time takes the bytes before it along.
-/

namespace Corduit.Engine.Outbound.Shadowsocks

open Crypto Transport Word

variable {primitives : Primitives}

theorem Primitives.Opens.aead (opens : primitives.Opens) (cipherType : CipherType) :
    (primitives.aead cipherType).Opens := by
  cases cipherType with
  | aes128Gcm => exact opens.aes128Gcm
  | aes256Gcm => exact opens.aes256Gcm
  | chacha20Poly1305 => exact opens.chacha20Poly1305

namespace AeadCipher

/-- The cipher behind its first `count` operations. -/
def behind (cipher : AeadCipher) (count : Nat) : AeadCipher :=
  { cipher with counter := BitVec.ofNat 64 count }

/-- What is sealed as the operation with this number. -/
def nth (primitives : Primitives) (cipher : AeadCipher) (count : Nat) (plaintext : List Byte) :
    List Byte :=
  ((cipher.behind count).encrypt primitives plaintext).1

variable {cipher : AeadCipher}

theorem encrypt_behind (count : Nat) (plaintext : List Byte) :
    (cipher.behind count).encrypt primitives plaintext =
      (cipher.nth primitives count plaintext, cipher.behind (count + 1)) := by
  refine Prod.ext rfl ?_
  change (cipher.behind count).nextNonce.2 = _
  rw [nextNonce, behind, behind, BitVec.ofNat_add]
  rfl

theorem decrypt_nth (opens : primitives.Opens) (count : Nat) (plaintext : List Byte) :
    (cipher.behind count).decrypt primitives (cipher.nth primitives count plaintext) =
      (.ok plaintext, cipher.behind (count + 1)) := by
  simp only [decrypt, nth, encrypt, nextNonce, behind]
  rw [(opens.aead cipher.cipherType).decrypt_encrypt, BitVec.ofNat_add]
  rfl

theorem length_nth (opens : primitives.Opens) (count : Nat) (plaintext : List Byte) :
    (cipher.nth primitives count plaintext).length = plaintext.length + 16 :=
  (opens.aead cipher.cipherType).length_encrypt _ _ _

end AeadCipher

/-- The length of a chunk. -/
def lengthField (data : List Byte) : List Byte :=
  toBeBytes 2 (BitVec.ofNat 16 data.length)

/-- The chunk whose length is sealed as the operation with this number. -/
def nthChunk (primitives : Primitives) (cipher : AeadCipher) (count : Nat) (data : List Byte) :
    List Byte :=
  cipher.nth primitives count (lengthField data) ++ cipher.nth primitives (count + 1) data

variable {cipher : AeadCipher}

theorem sealChunk_behind {data : List Byte} (some : data ≠ []) (count : Nat) :
    sealChunk primitives (cipher.behind count) data =
      (nthChunk primitives cipher count data, cipher.behind (count + 2)) := by
  rw [sealChunk, AeadCipher.encrypt_behind]
  dsimp only
  rw [if_pos (List.length_pos_iff.mpr some), AeadCipher.encrypt_behind]
  rfl

theorem length_nthChunk (opens : primitives.Opens) (count : Nat) (data : List Byte) :
    (nthChunk primitives cipher count data).length = data.length + 34 := by
  rw [nthChunk, List.length_append, AeadCipher.length_nth opens, AeadCipher.length_nth opens,
    lengthField, length_toBeBytes]
  omega

/-- Chunks from some operation on. -/
def chunksFrom (primitives : Primitives) (cipher : AeadCipher) : Nat → List (List Byte) → List Byte
  | _, [] => []
  | count, data :: later =>
      nthChunk primitives cipher count data ++ chunksFrom primitives cipher (count + 2) later

/-- What became of receiving a chunk: it is there; the transport failed before
its first byte; or it failed later, and the bytes that it had given are gone,
with or without the length. -/
inductive Received (primitives : Primitives) (cipher : AeadCipher) (count : Nat)
    (data rest : List Byte) (polls : List Poll) :
    Except IoError (Option (List Byte)) × Incoming × AeadCipher → (taken : Option Nat) → Prop
  | whole {later : List Poll} (suffix : later <:+ polls) :
      Received primitives cipher count data rest polls
        (.ok (some data), ⟨rest, later⟩, cipher.behind (count + 2)) none
  | before {error : IoError} {later : List Poll} (suffix : .fails error :: later <:+ polls) :
      Received primitives cipher count data rest polls
        (.error error, ⟨nthChunk primitives cipher count data ++ rest, later⟩,
          cipher.behind count) (some 0)
  | inLength {error : IoError} {later : List Poll} {taken : Nat}
      (suffix : .fails error :: later <:+ polls) (positive : 0 < taken) (short : taken < 18) :
      Received primitives cipher count data rest polls
        (.error error, ⟨(nthChunk primitives cipher count data ++ rest).drop taken, later⟩,
          cipher.behind count) (some taken)
  | inText {error : IoError} {later : List Poll} {taken : Nat}
      (suffix : .fails error :: later <:+ polls) (short : taken < data.length + 16) :
      Received primitives cipher count data rest polls
        (.error error, ⟨(cipher.nth primitives (count + 1) data ++ rest).drop taken, later⟩,
          cipher.behind (count + 1)) (some (18 + taken))

/-- A text whose length can be said. -/
structure Chunk (data : List Byte) : Prop where
  nonempty : data ≠ []
  fits : data.length < 2 ^ 16

theorem Chunk.lengthField {data : List Byte} (chunk : Chunk data) :
    ofBeBytes (lengthField data) = data.length := by
  have fits := chunk.fits
  rw [Shadowsocks.lengthField, ofBeBytes_toBeBytes, BitVec.toNat_ofNat]
  omega

theorem not_eof_of_idles {polls later : List Poll} (idles : Idles polls) {error : IoError}
    (suffix : .fails error :: later <:+ polls) : error.kind ≠ .unexpectedEof := by
  intro same
  have idle := idles error (suffix.subset List.mem_cons_self)
  rw [same] at idle
  cases idle

theorem received_recvDecryptedChunk (opens : primitives.Opens) (tag : cipher.tagLen = 16)
    {data : List Byte} (chunk : Chunk data) (count : Nat) (rest : List Byte) {polls : List Poll}
    (idles : Idles polls) :
    Received primitives cipher count data rest polls
      (recvDecryptedChunk primitives ⟨nthChunk primitives cipher count data ++ rest, polls⟩
        (cipher.behind count))
      (Incoming.failsAfter ⟨nthChunk primitives cipher count data ++ rest, polls⟩
        [18, data.length + 16]) := by
  have tag_eq : (cipher.behind count).tagLen = 16 := tag
  have first_length : (cipher.nth primitives count (lengthField data)).length = 18 := by
    rw [AeadCipher.length_nth opens, lengthField, length_toBeBytes]
  have second_length : (cipher.nth primitives (count + 1) data).length = data.length + 16 :=
    AeadCipher.length_nth opens _ _
  have wire_eq : nthChunk primitives cipher count data ++ rest =
      cipher.nth primitives count (lengthField data) ++
        (cipher.nth primitives (count + 1) data ++ rest) := List.append_assoc _ _ _
  rw [recvDecryptedChunk, tag_eq, Incoming.failsAfter]
  rcases Incoming.readExact_cases ⟨nthChunk primitives cipher count data ++ rest, polls⟩
    (by decide : 0 < 18) with
    ⟨between, read, _, suffix⟩ | ⟨_, _, less, _⟩ |
    ⟨taken, error, later, failed, short, within, _, suffix⟩
  · dsimp only at read
    rw [wire_eq, List.take_left' first_length, List.drop_left' first_length] at read
    rw [wire_eq, read]
    dsimp only
    rw [AeadCipher.decrypt_nth opens]
    dsimp only
    rw [if_neg (by simp [lengthField]), chunk.lengthField,
      if_neg (Nat.ne_of_gt (List.length_pos_iff.mpr chunk.nonempty))]
    have idles' := idles.suffix suffix
    rcases Incoming.readExact_cases ⟨cipher.nth primitives (count + 1) data ++ rest, between⟩
      (Nat.succ_pos (data.length + 15)) with
      ⟨later, read', _, suffix'⟩ | ⟨_, _, less, _⟩ |
      ⟨taken, error, later, failed, short, within, _, suffix'⟩
    · dsimp only at read'
      rw [List.take_left' second_length, List.drop_left' second_length] at read'
      rw [read', Incoming.failsAfter, read']
      dsimp only
      rw [AeadCipher.decrypt_nth opens]
      exact Received.whole (suffix'.trans suffix)
    · rw [List.length_append, second_length] at less
      omega
    · rw [failed, Incoming.failsAfter, failed]
      dsimp only at within ⊢
      rw [if_neg (not_eof_of_idles idles' suffix'), List.length_drop, Nat.sub_sub_self within]
      exact Received.inText (suffix'.trans suffix) short
  · rw [wire_eq, List.length_append, first_length] at less
    omega
  · rw [failed]
    dsimp only at within ⊢
    have alive := not_eof_of_idles idles suffix
    rw [if_neg alive, if_neg alive, List.length_drop, Nat.sub_sub_self within]
    by_cases nothing : taken = 0
    · subst nothing
      exact Received.before suffix
    · exact Received.inLength suffix (Nat.pos_of_ne_zero nothing) short

end Corduit.Engine.Outbound.Shadowsocks
