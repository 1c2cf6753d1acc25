import Corduit.Crypto.Md5
import Corduit.Crypto.Stream.Ciphers
import Corduit.Engine.RuleProvider
import Corduit.Transport.Session

/-!
# Ciphers of ShadowsocksR

A method says how long a key and an IV it needs and which cipher to build from
them.  One cipher serves one direction, and one function applies it in both.
The block cipher is left open.
-/

namespace Corduit.Engine.Outbound.Ssr

open Crypto Text Word

/-- The cipher of a method. -/
inductive MethodKind where
  | none
  | rc4
  | rc4Md5
  | cfb
  | ctr
  | chacha20
  | chacha20Ietf
  | salsa20
deriving DecidableEq

/-- The sizes and the cipher of a method. -/
structure SsrMethod where
  keyLen : Nat
  ivLen : Nat
  kind : MethodKind
deriving DecidableEq

namespace SsrMethod

/-- The methods by name. -/
def table : List (String × SsrMethod) :=
  [("none", ⟨0, 0, .none⟩), ("plain", ⟨0, 0, .none⟩), ("rc4", ⟨16, 0, .rc4⟩),
    ("rc4-md5", ⟨16, 16, .rc4Md5⟩), ("aes-128-cfb", ⟨16, 16, .cfb⟩),
    ("aes-192-cfb", ⟨24, 16, .cfb⟩), ("aes-256-cfb", ⟨32, 16, .cfb⟩),
    ("aes-128-ctr", ⟨16, 16, .ctr⟩), ("aes-192-ctr", ⟨24, 16, .ctr⟩),
    ("aes-256-ctr", ⟨32, 16, .ctr⟩), ("chacha20", ⟨32, 8, .chacha20⟩),
    ("chacha20-ietf", ⟨32, 12, .chacha20Ietf⟩), ("salsa20", ⟨32, 8, .salsa20⟩)]

/-- The families of block ciphers that are refused by name. -/
def families : List String :=
  ["bf-", "camellia-", "cast5-", "des-", "idea-", "rc2-", "seed-", "aes-128-cfb8",
    "aes-192-cfb8", "aes-256-cfb8", "aes-128-ofb", "aes-192-ofb", "aes-256-ofb"]

/-- Why a name is not a method. -/
def refusal (name : String) : Error :=
  if name = "table" then
    .config ("SSR method `table` is an 8-bit substitution table with no key and no IV; " ++
      "it is not encryption and is not implemented")
  else if "-gcm".toList.isSuffixOf name.toList || "-poly1305".toList.isSuffixOf name.toList then
    .config ("SSR method `" ++ name ++ "` is an AEAD method; use the `shadowsocks` outbound, " ++
      "which implements the AEAD framing, rather than the SSR plugin path")
  else if families.any fun family => family.toList.isPrefixOf name.toList then
    .config ("SSR method `" ++ name ++ "` needs a block cipher this build does not carry " ++
      "(Blowfish / Camellia / CAST5 / DES / IDEA / RC2 / SEED); the aes-*, " ++
      "chacha20* and salsa20 families are available")
  else
    .config ("Unknown SSR method `" ++ name ++ "`; supported: none, rc4, rc4-md5, " ++
      "aes-\x7b128,192,256\x7d-\x7bcfb,ctr\x7d, chacha20, chacha20-ietf, salsa20")

/-- The method of a name. -/
def parse (name : String) : Except Error SsrMethod :=
  let lower := toAsciiLowercase (trim name)
  match table.lookup lower with
  | some method => .ok method
  | none => .error (refusal lower)

end SsrMethod

/-- The loop of `evp_bytes_to_key`. -/
def digests (password : List Byte) (length : Nat) :
    (bound : Nat) → (out previous : List Byte) → List Byte
  | 0, out, _ => out
  | bound + 1, out, previous =>
      if out.length < length then
        let digest := ((Md5.new.update previous).update password).finalize.toList
        digests password length bound (out ++ digest) digest
      else out

/-- `evp_bytes_to_key`: as many digests as there are bytes to derive are enough. -/
def evpBytesToKey (password : List Byte) (keyLen ivLen : Nat) : List Byte :=
  (digests password (keyLen + ivLen) (keyLen + ivLen) [] []).take (keyLen + ivLen)

theorem length_digests (password : List Byte) {length bound : Nat} {out previous : List Byte}
    (enough : length ≤ out.length + bound) :
    length ≤ (digests password length bound out previous).length := by
  induction bound generalizing out previous with
  | zero => exact enough
  | succ bound ih =>
      rw [digests]
      by_cases short : out.length < length
      · rw [if_pos short]
        apply ih
        rw [List.length_append, Vector.length_toList]
        omega
      · rw [if_neg short]
        exact Nat.le_of_not_lt short

theorem length_evpBytesToKey (password : List Byte) (keyLen ivLen : Nat) :
    (evpBytesToKey password keyLen ivLen).length = keyLen + ivLen :=
  List.length_take_of_le (length_digests password (by rw [List.length_nil, Nat.zero_add]))

/-- A cipher under way. -/
inductive SsrCipher where
  | none
  | rc4 (cipher : Rc4)
  | cfb (cipher : Cfb128)
  | ctr (cipher : Ctr)
  | chacha20 (cipher : ChaCha20Legacy)
  | chacha20Ietf (cipher : ChaCha20)
  | salsa20 (cipher : Salsa20)

namespace SsrCipher

/-- The error of a keystream that is used up. -/
def exhaustedText : String :=
  "the chacha20-ietf keystream is exhausted (2^32 blocks); " ++
    "this connection must be re-established before more data is sent"

variable (encryptBlock : BlockCipher)

/-- The same operation both ways. -/
def apply (cipher : SsrCipher) (buf : List Byte) : Except String (List Byte × SsrCipher) :=
  match cipher with
  | none => .ok (buf, none)
  | rc4 cipher => .ok ((cipher.applyKeystream buf).map id rc4)
  | cfb cipher => .ok ((cipher.encrypt encryptBlock buf).map id cfb)
  | ctr cipher => .ok ((cipher.applyKeystream encryptBlock buf).map id ctr)
  | chacha20 cipher =>
      .ok ((cipher.applyKeystream ChaCha20Legacy.nextBlock buf).map id chacha20)
  | chacha20Ietf cipher =>
      if cipher.isExhausted then .error exhaustedText
      else .ok ((cipher.applyKeystream ChaCha20.nextBlock buf).map id chacha20Ietf)
  | salsa20 cipher => .ok ((cipher.applyKeystream Salsa20.nextBlock buf).map id salsa20)

/-- One byte of a cipher. -/
def step : ByteStep SsrCipher := fun cipher byte =>
  match cipher with
  | none => (byte, none)
  | rc4 cipher => (xorStep Rc4.nextByte cipher byte).map id rc4
  | cfb cipher => (cipher.encryptByte encryptBlock byte).map id cfb
  | ctr cipher => (xorStep (Ctr.nextByte encryptBlock) cipher byte).map id ctr
  | chacha20 cipher =>
      (xorStep (Pending.nextByte ChaCha20Legacy.nextBlock) cipher byte).map id chacha20
  | chacha20Ietf cipher =>
      (xorStep (Pending.nextByte ChaCha20.nextBlock) cipher byte).map id chacha20Ietf
  | salsa20 cipher => (xorStep (Pending.nextByte Salsa20.nextBlock) cipher byte).map id salsa20

/-- The keystream is used up. -/
def exhausted : SsrCipher → Bool
  | chacha20Ietf cipher => cipher.isExhausted
  | _ => false

theorem apply_eq (cipher : SsrCipher) (buf : List Byte) :
    cipher.apply encryptBlock buf =
      if cipher.exhausted then .error exhaustedText
      else .ok (steps (step encryptBlock) cipher buf) := by
  cases cipher with
  | none =>
      change Except.ok (buf, none) = Except.ok (steps (step encryptBlock) none buf)
      congr 1
      induction buf with
      | nil => rfl
      | cons byte buf ih => rw [steps_cons, step, ← ih]
  | rc4 cipher =>
      change _ = Except.ok (steps (step encryptBlock) (rc4 cipher) buf)
      rw [@steps_embed _ _ (xorStep Rc4.nextByte) _ rc4 fun _ _ => rfl]
      rfl
  | cfb cipher =>
      change _ = Except.ok (steps (step encryptBlock) (cfb cipher) buf)
      rw [@steps_embed _ _ (Cfb128.encryptByte encryptBlock) _ cfb fun _ _ => rfl]
      rfl
  | ctr cipher =>
      change _ = Except.ok (steps (step encryptBlock) (ctr cipher) buf)
      rw [@steps_embed _ _ (xorStep (Ctr.nextByte encryptBlock)) _ ctr fun _ _ => rfl]
      rfl
  | chacha20 cipher =>
      change _ = Except.ok (steps (step encryptBlock) (chacha20 cipher) buf)
      rw [@steps_embed _ _ (xorStep (Pending.nextByte ChaCha20Legacy.nextBlock)) _ chacha20
        fun _ _ => rfl, apply, Pending.applyKeystream_eq]
      rfl
  | chacha20Ietf cipher =>
      rw [@steps_embed _ _ (xorStep (Pending.nextByte ChaCha20.nextBlock)) _ chacha20Ietf
        fun _ _ => rfl, apply, Pending.applyKeystream_eq]
      rfl
  | salsa20 cipher =>
      change _ = Except.ok (steps (step encryptBlock) (salsa20 cipher) buf)
      rw [@steps_embed _ _ (xorStep (Pending.nextByte Salsa20.nextBlock)) _ salsa20
        fun _ _ => rfl, apply, Pending.applyKeystream_eq]
      rfl

end SsrCipher

/-- A method with its key and its IV. -/
structure SsrCrypto where
  method : SsrMethod
  key : List Byte
  iv : List Byte
deriving DecidableEq

/-- `fixed::<K, N>`. -/
def fixed (keyLen nonceLen : Nat) (key iv : List Byte) : Except Error (List Byte × List Byte) :=
  if key.length ≠ keyLen ∨ iv.length ≠ nonceLen then
    .error (.config ("SSR cipher expects a " ++ toString keyLen ++ "-byte key and a " ++
      toString nonceLen ++ "-byte IV, got " ++ toString key.length ++ " and " ++
      toString iv.length))
  else .ok (key, iv)

namespace SsrCrypto

/-- Key and IV from the password. -/
def new (method : SsrMethod) (password : List Byte) :
    SsrCrypto :=
  let material := evpBytesToKey password method.keyLen method.ivLen
  ⟨method, material.take method.keyLen, material.drop method.keyLen⟩

/-- The error of a key or an IV of a wrong length. -/
def bad (what : String) : Error :=
  .config ("SSR " ++ what ++ " length does not match the method")

/-- `map_err`, and the cipher around what was built. -/
def built {α : Type} (what : String) (embed : α → SsrCipher) :
    Except InvalidLength α → Except Error SsrCipher
  | .ok cipher => .ok (embed cipher)
  | .error _ => .error (bad what)

/-- The cipher for an IV. -/
def cipher (crypto : SsrCrypto) (iv : List Byte) :
    Except Error SsrCipher :=
  match crypto.method.kind with
  | .none => .ok .none
  | .rc4 => built "key" .rc4 (Rc4.new crypto.key)
  | .rc4Md5 => built "key" .rc4 (Rc4.new ((Md5.new.update crypto.key).update iv).finalize.toList)
  | .cfb => built "key/IV" .cfb (Cfb128.new crypto.key iv)
  | .ctr => built "key/IV" .ctr (Ctr.new crypto.key iv)
  | .chacha20 => (fixed 32 8 crypto.key iv).map fun (key, nonce) =>
      .chacha20 (ChaCha20Legacy.new key nonce 0)
  | .chacha20Ietf => (fixed 32 12 crypto.key iv).map fun (key, nonce) =>
      .chacha20Ietf (ChaCha20.new key nonce 0)
  | .salsa20 => (fixed 32 8 crypto.key iv).map fun (key, nonce) =>
      .salsa20 (Salsa20.new key nonce 0)

end SsrCrypto

/-!
# Streams of ShadowsocksR

The stream with the protocol `origin` and the obfuscation `plain`, which frame
nothing: the first bytes it sends are the IV, and what follows is the cipher's.
The reading side learns the IV of the peer from the wire.
-/

open Transport

/-- The most payload of a frame. -/
def UNIT_LEN : Nat := 8100

/-- What `SsrProtocolState` keeps for `origin`. -/
structure OriginState where
  sentHeader : Bool := false
deriving DecidableEq

namespace OriginState

/-- `wrap_first` and `wrap_data` return their payload. -/
def wrapData (payload : List Byte) : List Byte :=
  payload

/-- The loop of `wrap` and what is behind it. -/
def wrapUnits (buf : List Byte) : (turns : Nat) → (rest : List Byte) → List Byte
  | 0, rest => wrapData rest
  | turns + 1, rest =>
      if rest.length > UNIT_LEN then
        wrapData (rest.take UNIT_LEN) ++ wrapUnits buf turns (rest.drop UNIT_LEN)
      else if rest ≠ [] ∨ buf = [] then wrapData rest
      else []

/-- `wrap`, with a random draw below 32. -/
def wrap (state : OriginState) (buf : List Byte) (headLen drawn : Nat) :
    List Byte × OriginState :=
  if state.sentHeader then (wrapUnits buf buf.length buf, state)
  else
    let dataLen := min buf.length (headLen + drawn)
    let rest := buf.drop dataLen
    (wrapData (buf.take dataLen) ++ wrapUnits buf rest.length rest, { sentHeader := true })

theorem wrapUnits_eq (buf : List Byte) (turns : Nat) (rest : List Byte) :
    wrapUnits buf turns rest = rest := by
  induction turns generalizing rest with
  | zero => rfl
  | succ turns ih =>
      rw [wrapUnits]
      by_cases long : rest.length > UNIT_LEN
      · rw [if_pos long, ih, wrapData, List.take_append_drop]
      · rw [if_neg long]
        by_cases some : rest ≠ [] ∨ buf = []
        · rw [if_pos some, wrapData]
        · rw [if_neg some]
          exact (not_not.mp (not_or.mp some).1).symm

theorem wrap_eq (state : OriginState) (buf : List Byte) (headLen drawn : Nat) :
    (state.wrap buf headLen drawn).1 = buf := by
  rw [wrap]
  by_cases sent : state.sentHeader = true
  · rw [if_pos sent, wrapUnits_eq]
  · rw [if_neg sent]
    dsimp only
    rw [wrapUnits_eq, wrapData, List.take_append_drop]

end OriginState

/-- `SsrObfsState` for `plain`. -/
structure PlainState where
  wrapped : Bool := false
  unwrapped : Bool := false
  pending : List Byte := []
deriving DecidableEq

namespace PlainState

/-- Nothing is added. -/
def wrap (state : PlainState) (buf : List Byte) : List Byte × PlainState :=
  (buf, { state with wrapped := true })

/-- Nothing is taken off. -/
def unwrap (state : PlainState) (buf : List Byte) : List Byte × PlainState :=
  (state.pending ++ buf, { state with unwrapped := true, pending := [] })

end PlainState

/-- `SsrStream`, with the reading side of its transport. -/
structure SsrStream where
  inner : Incoming
  crypto : SsrCrypto
  readCipher : Option SsrCipher
  writeCipher : SsrCipher
  ivSent : Bool := false
  proto : OriginState := {}
  obfs : PlainState := {}
  incoming : List Byte := []
  ready : List Byte := []
  readyPos : Nat := 0
  headLen : Nat := 0

/-- `io::Error::other`. -/
def otherError (text : String) : IoError :=
  ⟨.other, text⟩

namespace SsrStream

variable (encryptBlock : BlockCipher)

/-- A stream for a method. -/
def new (inner : Incoming) (method : SsrMethod) (password : List Byte) :
    Except Error SsrStream :=
  let crypto := SsrCrypto.new method password
  match crypto.cipher crypto.iv with
  | .error error => .error error
  | .ok writeCipher =>
      if method.ivLen = 0 then
        match crypto.cipher [] with
        | .error error => .error error
        | .ok readCipher =>
            .ok { inner := inner, crypto := crypto, readCipher := some readCipher,
                  writeCipher := writeCipher }
      else
        .ok { inner := inner, crypto := crypto, readCipher := none, writeCipher := writeCipher }

/-- The first half of `drain_incoming`: the cipher, once the IV of the peer is
there. -/
def takeIv (stream : SsrStream) : Except Error (Option SsrCipher) × SsrStream :=
  match stream.readCipher with
  | some cipher => (.ok (some cipher), stream)
  | none =>
      let ivLen := stream.crypto.method.ivLen
      if stream.incoming.length < ivLen then (.ok none, stream)
      else
        let iv := stream.incoming.take ivLen
        let stream := { stream with incoming := stream.incoming.drop ivLen }
        match stream.crypto.cipher iv with
        | .error error => (.error error, stream)
        | .ok cipher => (.ok (some cipher), { stream with readCipher := some cipher })

/-- `drain_incoming`: whether there was something to decrypt. -/
def drainIncoming (stream : SsrStream) : Except Error Bool × SsrStream :=
  match stream.takeIv with
  | (.error error, stream) => (.error error, stream)
  | (.ok none, stream) => (.ok false, stream)
  | (.ok (some cipher), stream) =>
      if stream.incoming.isEmpty then (.ok false, stream)
      else
        let buf := stream.incoming
        let stream := { stream with incoming := [] }
        match cipher.apply encryptBlock buf with
        | .error text => (.error (.protocol text), stream)
        | .ok (buf, cipher) =>
            (.ok true, { stream with readCipher := some cipher, ready := stream.ready ++ buf })

/-- The end of a turn of `read`: more bytes of the transport. -/
def receive (stream : SsrStream) : Turn SsrStream Answer :=
  match stream.inner.read (16 * 1024) with
  | (.error error, inner) => .returns (.error error) { stream with inner := inner }
  | (.ok [], inner) => .returns (.ok []) { stream with inner := inner }
  | (.ok bytes, inner) =>
      let (decoded, obfs) := stream.obfs.unwrap bytes
      .again { stream with inner := inner, obfs := obfs, incoming := stream.incoming ++ decoded }

/-- One turn of the loop of `read`. -/
def turn (room : Nat) (stream : SsrStream) : Turn SsrStream Answer :=
  if stream.readyPos < stream.ready.length then
    let take := min (stream.ready.length - stream.readyPos) room
    let bytes := slice stream.ready stream.readyPos take
    if stream.readyPos + take = stream.ready.length then
      .returns (.ok bytes) { stream with ready := [], readyPos := 0 }
    else .returns (.ok bytes) { stream with readyPos := stream.readyPos + take }
  else
    let stream := { stream with ready := [], readyPos := 0 }
    if stream.incoming ≠ [] then
      match stream.drainIncoming encryptBlock with
      | (.ok true, stream) => .again stream
      | (.ok false, stream) => stream.receive
      | (.error error, stream) => .returns (.error (otherError error.toText)) stream
    else stream.receive

/-- `Read::read`.  Between two reads of the transport there is at most one turn,
and each of these reads takes a byte. -/
def read : Reader SsrStream := fun stream room =>
  if room = 0 then some (.ok [], stream)
  else loop (turn encryptBlock room) (2 * stream.inner.wire.length + 2) stream

/-- A call of `write`, with the random draw that it may take. -/
structure WriteCall where
  buf : List Byte
  drawn : Nat

/-- `Write::write`, with what it puts on the wire. -/
def write (stream : SsrStream) (call : WriteCall) :
    Except IoError (Nat × List Byte) × SsrStream :=
  if call.buf = [] then (.ok (0, []), stream)
  else
    let (framed, proto) := stream.proto.wrap call.buf stream.headLen call.drawn
    let stream := { stream with proto := proto }
    match stream.writeCipher.apply encryptBlock framed with
    | .error text => (.error (otherError text), stream)
    | .ok (payload, writeCipher) =>
        let wire := if stream.ivSent then payload else stream.crypto.iv ++ payload
        let (wire, obfs) := stream.obfs.wrap wire
        (.ok (call.buf.length, wire),
          { stream with writeCipher := writeCipher, ivSent := true, obfs := obfs })

/-- Calls of `write`, one after another, and what they put on the wire. -/
def writeAll (stream : SsrStream) : List WriteCall → Except IoError (List Byte)
  | [] => .ok []
  | call :: calls =>
      match stream.write encryptBlock call with
      | (.error error, _) => .error error
      | (.ok (_, wire), stream) => (writeAll stream calls).map (wire ++ ·)

end SsrStream

end Corduit.Engine.Outbound.Ssr
