import Corduit.Engine.Outbound.Ssr.Stream
import Corduit.Text.Utf8
import Corduit.Word.Framing

/-!
# Protocols of ShadowsocksR

A protocol frames the bytes of the stream before they are encrypted.  The first
frame is a handshake; every other one says how long it is, carries a random
prefix of a length of its own, and ends with a checksum or a MAC over all of it.
The hash functions, the checksums and the block cipher are left open, and so is
the random source.  Indexing and subtraction are checked where the bytes of the
peer are read: a computation that is `none` is a panic.
-/

namespace Corduit.Engine.Outbound.Ssr

open Crypto Text Word

/-- What a random source still has to say. -/
abbrev Tape :=
  Nat → Byte

/-- `fill_random`, and `random_bytes`. -/
def randomBytes (len : Nat) (tape : Tape) : List Byte × Tape :=
  ((List.range len).map tape, fun place => tape (len + place))

/-- A number below the bound. -/
def randBelow (bound : Nat) (tape : Tape) : Nat × Tape :=
  if bound = 0 then (0, tape)
  else
    let (raw, tape) := randomBytes 2 tape
    (ofBeBytes raw % bound, tape)

@[simp]
theorem length_randomBytes (len : Nat) (tape : Tape) : (randomBytes len tape).1.length = len := by
  rw [randomBytes, List.length_map, List.length_range]

theorem randBelow_lt {bound : Nat} (positive : 0 < bound) (tape : Tape) :
    (randBelow bound tape).1 < bound := by
  rw [randBelow, if_neg (Nat.ne_of_gt positive)]
  exact Nat.mod_lt _ positive

/-- The checksums, the hash functions and the encoding that the protocols use. -/
structure Sums where
  crc32 : List Byte → BitVec 32
  adler32 : List Byte → BitVec 32
  sha1 : List Byte → List Byte
  md5 : List Byte → List Byte
  hmacSha1 : (key data : List Byte) → Octets 64
  hmacMd5 : (key data : List Byte) → Octets 64
  base64 : List Byte → List Byte
  encryptBlock : BlockCipher

/-- The protocol of a server. -/
inductive SsrProtocol where
  | origin
  | authSha1V4
  | authAes128 (sha1 : Bool)
deriving DecidableEq

/-- The HMAC that a variant of `auth_aes128` uses. -/
def Sums.hmac (sums : Sums) (sha1 : Bool) : (key data : List Byte) → Octets 64 :=
  if sha1 then sums.hmacSha1 else sums.hmacMd5

/-- The front of an HMAC. -/
def hmacTruncated (hmac : (key data : List Byte) → Octets 64) (key data : List Byte)
    (outLen : Nat) : List Byte :=
  (hmac key data).bytes.take outLen

/-- `auth_data`, at a number of seconds. -/
def authData (now : BitVec 32) (localClientId : List Byte) (connectionId : BitVec 32) :
    List Byte :=
  toLeBytes 4 now ++ localClientId ++ toLeBytes 4 connectionId

/-- The state of a connection. -/
structure SsrProtocolState where
  protocol : SsrProtocol
  key : List Byte
  macKey : List Byte
  userKey : List Byte
  uid : List Byte
  authData : List Byte
  sentHeader : Bool := false
  packId : BitVec 32 := 1
  recvId : BitVec 32 := 1
  recvBuf : List Byte := []
deriving DecidableEq

/-- The longest frame. -/
def MAX_FRAME : Nat := 8192

/-- The most bytes that may wait. -/
def MAX_PENDING : Nat := 256 * 1024

/-- The user of `auth_aes128`: what the parameter says, or the key and a random
id. -/
def protocolUser (sums : Sums) (protocol : SsrProtocol) (key : List Byte) (protocolParam : String)
    (tape : Tape) : Except Error ((List Byte × List Byte) × Tape) :=
  match protocol, splitOnce ':' protocolParam with
  | .authAes128 sha1, some (uid, secret) =>
      match parseUnsigned (2 ^ 32) (trim uid) with
      | none => .error (.config "SSR protocol-param uid is not a number")
      | some number =>
          let digest := if sha1 then sums.sha1 (asBytes secret) else sums.md5 (asBytes secret)
          .ok ((toLeBytes 4 (BitVec.ofNat 32 number), digest), tape)
  | _, _ =>
      let (uid, tape) := randomBytes 4 tape
      .ok ((uid, key), tape)

namespace SsrProtocolState

/-- The state for a user. -/
def new (sums : Sums) (protocol : SsrProtocol) (key iv : List Byte) (protocolParam : String)
    (now : BitVec 32) (tape : Tape) : Except Error (SsrProtocolState × Tape) := do
  let ((uid, userKey), tape) ← protocolUser sums protocol key protocolParam tape
  let (localClientId, tape) := randomBytes 4 tape
  let connectionId := (BitVec.ofNat 32 (ofLeBytes localClientId) &&& 0x00FFFFFF) + 1
  return ({ protocol := protocol
            key := key
            macKey := iv ++ key
            userKey := userKey
            uid := uid
            authData := Ssr.authData now localClientId connectionId }, tape)

end SsrProtocolState

/-- A random prefix of `auth_sha1_v4`. -/
def rndDataSha1 (bufSize : Nat) (tape : Tape) : List Byte × Tape :=
  if bufSize > 1200 then ([1], tape)
  else
    let (rndLen, tape) :=
      if bufSize > 400 then
        let (byte, tape) := randomBytes 1 tape
        (ofBeBytes byte, tape)
      else randBelow 512 tape
    let (random, tape) := randomBytes rndLen tape
    if rndLen < 128 then (BitVec.ofNat 8 (rndLen + 1) :: random, tape)
    else (0xFF :: toBeBytes 2 (BitVec.ofNat 16 (rndLen + 3)) ++ random, tape)

/-- A random prefix of `auth_aes128`. -/
def rndPrefixAes (rndLen : Nat) (tape : Tape) : List Byte × Tape :=
  if rndLen < 128 then
    let (random, tape) := randomBytes rndLen tape
    (BitVec.ofNat 8 (rndLen + 1) :: random, tape)
  else
    let (random, tape) := randomBytes (rndLen - 2) tape
    (0xFF :: toLeBytes 2 (BitVec.ofNat 16 (rndLen + 1)) ++ random, tape)

namespace SsrProtocolState

variable (sums : Sums)

/-- The label of a variant of `auth_aes128`. -/
def aes128Label (sha1 : Bool) : List Byte :=
  if sha1 then ascii "auth_aes128_sha1" else ascii "auth_aes128_md5"

/-- `cbc`, and the encryption of one block with an IV of zeros. -/
def cbcBlock (state : SsrProtocolState) (sha1 : Bool) (block : List Byte) :
    Except Error (List Byte) :=
  let material := evpBytesToKey (sums.base64 state.userKey ++ aes128Label sha1) 16 16
  match Aes.new (material.take 16), blockOf block with
  | .error _, _ => .error (.config "SSR auth_aes128 CBC key")
  | .ok _, none => .error (.config "SSR auth_aes128 CBC block")
  | .ok aes, some block => .ok (sums.encryptBlock aes.key block).toList

/-- The first frame, with the handshake. -/
def wrapFirst (state : SsrProtocolState) (payload : List Byte) (tape : Tape) :
    Except Error (List Byte × Tape) :=
  match state.protocol with
  | .origin => .ok (payload, tape)
  | .authSha1V4 =>
      if payload = [] then .ok ([], tape)
      else
        let framed := state.authData ++ payload
        let (random, tape) := rndDataSha1 framed.length tape
        let data := random ++ framed
        let dataLen := BitVec.ofNat 16 (data.length + 16)
        let crc := sums.crc32 (toBeBytes 2 dataLen ++ ascii "auth_sha1_v4" ++ state.key)
        let frame := toBeBytes 2 dataLen ++ toLeBytes 4 crc ++ data
        .ok (frame ++ hmacTruncated sums.hmacSha1 state.macKey frame 10, tape)
  | .authAes128 sha1 =>
      if payload = [] then .ok ([], tape)
      else
        let (rndLen, tape) := randBelow (if payload.length > 400 then 512 else 1024) tape
        let dataLen := 7 + 4 + 16 + 4 + payload.length + rndLen + 4
        let head := state.authData ++ toLeBytes 2 (BitVec.ofNat 16 dataLen) ++
          toLeBytes 2 (BitVec.ofNat 16 rndLen)
        match state.cbcBlock sums sha1 head with
        | .error error => .error error
        | .ok block =>
            let body := state.uid ++ block
            let body := body ++ hmacTruncated (sums.hmac sha1) state.macKey body 4
            let (checkHead, tape) := randomBytes 1 tape
            let checkMac := hmacTruncated (sums.hmac sha1) state.macKey checkHead 6
            let (random, tape) := randomBytes rndLen tape
            let frame := checkHead ++ checkMac ++ body ++ random ++ payload
            .ok (frame ++ hmacTruncated (sums.hmac sha1) state.userKey frame 4, tape)

/-- The frame of a unit. -/
def wrapData (state : SsrProtocolState) (payload : List Byte) (tape : Tape) :
    List Byte × SsrProtocolState × Tape :=
  match state.protocol with
  | .origin => (payload, state, tape)
  | .authSha1V4 =>
      let (random, tape) := rndDataSha1 payload.length tape
      let data := random ++ payload
      let dataLen := BitVec.ofNat 16 (data.length + 8)
      let crc := (sums.crc32 (toBeBytes 2 dataLen)).setWidth 16
      let frame := toBeBytes 2 dataLen ++ toLeBytes 2 crc ++ data
      (frame ++ toLeBytes 4 (sums.adler32 frame), state, tape)
  | .authAes128 sha1 =>
      let (rndLen, tape) := randBelow 64 tape
      let dataLen := BitVec.ofNat 16 (rndLen + payload.length + 9)
      let macKey := state.userKey ++ toLeBytes 4 state.packId
      let headMac := hmacTruncated (sums.hmac sha1) macKey (toLeBytes 2 dataLen) 2
      let (random, tape) := rndPrefixAes rndLen tape
      let frame := toLeBytes 2 dataLen ++ headMac ++ random ++ payload
      (frame ++ hmacTruncated (sums.hmac sha1) macKey frame 4,
        { state with packId := state.packId + 1 }, tape)

/-- The loop of `wrap` and the frame behind it; `rest` is at most as long as
there are turns. -/
def wrapUnits (buf : List Byte) : (turns : Nat) → SsrProtocolState → (rest : List Byte) → Tape →
    List Byte × SsrProtocolState × Tape
  | 0, state, rest, tape =>
      if rest ≠ [] ∨ buf = [] then state.wrapData sums rest tape else ([], state, tape)
  | turns + 1, state, rest, tape =>
      if rest.length > UNIT_LEN then
        let (frame, state, tape) := state.wrapData sums (rest.take UNIT_LEN) tape
        let (frames, state, tape) := wrapUnits buf turns state (rest.drop UNIT_LEN) tape
        (frame ++ frames, state, tape)
      else if rest ≠ [] ∨ buf = [] then state.wrapData sums rest tape
      else ([], state, tape)

/-- The frames of a write. -/
def wrap (state : SsrProtocolState) (buf : List Byte) (headLen : Nat) (tape : Tape) :
    Except Error (List Byte × SsrProtocolState × Tape) :=
  if state.sentHeader then .ok (wrapUnits sums buf buf.length state buf tape)
  else
    let state := { state with sentHeader := true }
    let (drawn, tape) := randBelow 32 tape
    let dataLen := min buf.length (headLen + drawn)
    match state.wrapFirst sums (buf.take dataLen) tape with
    | .error error => .error error
    | .ok (first, tape) =>
        let rest := buf.drop dataLen
        let (frames, state, tape) := wrapUnits sums buf rest.length state rest tape
        .ok (first ++ frames, state, tape)

/-- Calls of `wrap`, one after another, each with the length of the header. -/
def wrapAll (state : SsrProtocolState) : List (List Byte × Nat) → Tape →
    Except Error (List Byte × SsrProtocolState × Tape)
  | [], tape => .ok ([], state, tape)
  | (buf, headLen) :: calls, tape => do
      let (wire, state, tape) ← state.wrap sums buf headLen tape
      let (wires, state, tape) ← wrapAll state calls tape
      return (wire ++ wires, state, tape)

end SsrProtocolState

/-- A frame that has been found, the payload of it or an error. -/
abbrev FoundFrame :=
  Found (BitVec 32) (List Byte) Error

/-- Where the payload of a frame begins: behind a random prefix whose length is a
byte, or a half-word behind the byte 255. -/
def payloadStart (fromBytes : List Byte → Nat) (frame : List Byte) : Option Nat := do
  let pos ← frame[4]?
  if pos.toNat < 255 then
    return pos.toNat + 4
  else do
    let first ← frame[5]?
    let second ← frame[6]?
    return fromBytes [first, second] + 4

/-- The error of a protocol about its frame. -/
def frameError (name what : String) : Error :=
  .protocol ("SSR " ++ name ++ " frame " ++ what)

/-- The end of a turn of either loop: the payload of a frame that verifies. -/
def openPayload (name : String) (fromBytes : List Byte → Nat) (refusedId recvId : BitVec 32)
    (frame : List Byte) (stop : Nat) : Option FoundFrame := do
  let start ← payloadStart fromBytes frame
  if start > stop then
    return .fails (frameError name "is shorter than its own header") refusedId
  else do
    let payload ← range? frame start stop
    return .takes frame.length payload (recvId + 1)

/-- A turn of the loop of `unwrap_sha1` from where the frame is there. -/
def openSha1 (sums : Sums) (recvId : BitVec 32) (frame : List Byte) : Option FoundFrame := do
  let stop ← checkedSub frame.length 4
  let trailer ← range? frame stop frame.length
  let body ← range? frame 0 stop
  if sums.adler32 body ≠ BitVec.ofNat 32 (ofLeBytes trailer) then
    return .fails (frameError "auth_sha1_v4" "failed its Adler-32 check") recvId
  else openPayload "auth_sha1_v4" ofBeBytes recvId recvId frame stop

/-- A turn of the loop of `unwrap_sha1`. -/
def findSha1 (sums : Sums) (recvId : BitVec 32) (recvBuf : List Byte) : Option FoundFrame :=
  if recvBuf.length < 4 then some .waits
  else do
    let head ← range? recvBuf 0 2
    let stored ← range? recvBuf 2 4
    if toLeBytes 2 ((sums.crc32 head).setWidth 16) ≠ stored then
      return .fails (frameError "auth_sha1_v4" "failed its CRC check") recvId
    else
      let length := ofBeBytes head
      if ¬(7 ≤ length ∧ length < MAX_FRAME) then
        return .fails (frameError "auth_sha1_v4"
          ("length " ++ toString length ++ " is out of range")) recvId
      else if recvBuf.length < length then return .waits
      else do
        let frame ← range? recvBuf 0 length
        openSha1 sums recvId frame

/-- A turn of the loop of `unwrap_aes128` from where the frame is there. -/
def openAes128 (sums : Sums) (userKey : List Byte) (sha1 : Bool) (recvId : BitVec 32)
    (frame : List Byte) : Option FoundFrame := do
  let macKey := userKey ++ toLeBytes 4 recvId
  let head ← range? frame 0 2
  let headMac ← range? frame 2 4
  if hmacTruncated (sums.hmac sha1) macKey head 2 ≠ headMac then
    return .fails (frameError "auth_aes128" "failed its length MAC") recvId
  else do
    let stop ← checkedSub frame.length 4
    let body ← range? frame 0 stop
    let tailMac ← range? frame stop frame.length
    if hmacTruncated (sums.hmac sha1) macKey body 4 ≠ tailMac then
      return .fails (frameError "auth_aes128" "failed its MAC") recvId
    else openPayload "auth_aes128" ofLeBytes (recvId + 1) recvId frame stop

/-- A turn of the loop of `unwrap_aes128`. -/
def findAes128 (sums : Sums) (userKey : List Byte) (sha1 : Bool) (recvId : BitVec 32)
    (recvBuf : List Byte) : Option FoundFrame :=
  if recvBuf.length < 4 then some .waits
  else do
    let head ← range? recvBuf 0 2
    let length := ofLeBytes head
    if ¬(7 ≤ length ∧ length < MAX_FRAME) then
      return .fails (frameError "auth_aes128"
        ("length " ++ toString length ++ " is out of range")) recvId
    else if recvBuf.length < length then return .waits
    else do
      let frame ← range? recvBuf 0 length
      openAes128 sums userKey sha1 recvId frame

/-- What one call of `unwrap` gives: whether it succeeded, what it appended and
the state. -/
structure Unwrapped where
  ended : Except Error Unit
  out : List Byte
  state : SsrProtocolState

namespace SsrProtocolState

/-- An error when too much is waiting. -/
def guardBuffer (state : SsrProtocolState) : Except Error Unit :=
  if state.recvBuf.length > MAX_PENDING then
    .error (.protocol "SSR peer sent a partial frame larger than the buffer cap")
  else .ok ()

/-- The loop of `unwrap_sha1` and of `unwrap_aes128`, and what follows it. -/
def unwrapWith (find : BitVec 32 → List Byte → Option FoundFrame) (state : SsrProtocolState)
    (buf : List Byte) : Option Unwrapped :=
  let recvBuf := state.recvBuf ++ buf
  (deframe find (recvBuf.length + 1) state.recvId recvBuf).map fun result =>
    let state := { state with recvBuf := result.pending, recvId := result.state }
    match result.ended with
    | .error error => ⟨.error error, result.items.flatten, state⟩
    | .ok () => ⟨state.guardBuffer, result.items.flatten, state⟩

/-- The payloads of what the peer sent. -/
def unwrap (sums : Sums) (state : SsrProtocolState) (buf : List Byte) : Option Unwrapped :=
  match state.protocol with
  | .origin => some ⟨.ok (), buf, state⟩
  | .authSha1V4 => state.unwrapWith (findSha1 sums) buf
  | .authAes128 sha1 => state.unwrapWith (findAes128 sums state.userKey sha1) buf

/-- Calls of `unwrap`, one after another, up to the first that fails. -/
def unwrapAll (sums : Sums) (state : SsrProtocolState) : List (List Byte) → Option Unwrapped
  | [] => some ⟨.ok (), [], state⟩
  | chunk :: chunks => do
      let first ← state.unwrap sums chunk
      match first.ended with
      | .error _ => return first
      | .ok () => do
          let later ← first.state.unwrapAll sums chunks
          return { later with out := first.out ++ later.out }

end SsrProtocolState

end Corduit.Engine.Outbound.Ssr
