import Corduit.Protocol.Quic.Stream.Core

/-!
# The bodies of handshake messages

Transport parameters and extensions are lists of entries with a length each.
The parsers take one entry after the other from the front of the bytes; the
bound of a loop is the number of bytes, and every entry has at least one.
-/

namespace Corduit.Protocol.Quic

open Word

/-- `TLS_AES_128_GCM_SHA256`. -/
def SUITE_AES_128 : Nat := 0x1301
/-- `TLS_AES_256_GCM_SHA384`. -/
def SUITE_AES_256 : Nat := 0x1302
/-- `TLS_CHACHA20_POLY1305_SHA256`. -/
def SUITE_CHACHA : Nat := 0x1303

/-- `application_layer_protocol_negotiation`. -/
def EXT_ALPN : Nat := 16
/-- `key_share`. -/
def EXT_KEY_SHARE : Nat := 51
/-- `quic_transport_parameters`. -/
def EXT_QUIC_TP : Nat := 0x39

/-- The random of a HelloRetryRequest. -/
def HRR_RANDOM : List Byte :=
  [0xcf, 0x21, 0xad, 0x74, 0xe5, 0x9a, 0x61, 0x11, 0xbe, 0x1d, 0x8c, 0x02, 0x1e, 0x65, 0xb8, 0x91,
    0xc2, 0xa2, 0x11, 0x16, 0x7a, 0xbb, 0x8c, 0x5e, 0x07, 0x9e, 0x09, 0xe2, 0xc8, 0xa8, 0x33, 0x9c]

/-- The sentinel of a server that falls back to TLS 1.2. -/
def DOWNGRADE_TLS12 : List Byte :=
  [0x44, 0x4f, 0x57, 0x4e, 0x47, 0x52, 0x44, 0x00]

/-- The hash length of a cipher suite. -/
def suiteHashLen (suite : Nat) : Nat :=
  if suite = SUITE_AES_256 then 48 else 32

/-- The parameters that the client looks at. -/
structure TransportParameters where
  initialMaxData : Nat := 0
  initialMaxStreamDataBidiLocal : Nat := 0
  initialMaxStreamDataBidiRemote : Nat := 0
  initialMaxStreamDataUni : Nat := 0
  initialMaxStreamsBidi : Nat := 0
  initialMaxStreamsUni : Nat := 0
  maxUdpPayloadSize : Nat := 0
  ackDelayExponent : Nat := 0
  maxAckDelay : Nat := 0
  initialSourceConnectionId : List Byte := []
  disableActiveMigration : Bool := false
  deriving DecidableEq, Repr

/-- A variable-length integer and the bytes behind it. -/
def readVarint : List Byte → Except QuicError (Nat × List Byte)
  | [] => .error (.protocol "truncated varint")
  | first :: rest =>
      let size := 2 ^ (first >>> 6).toNat
      if rest.length + 1 < size then
        .error (.protocol "truncated varint")
      else
        .ok (ofBeBytes ((first &&& 0x3f) :: rest.take (size - 1)), rest.drop (size - 1))

/-- The bytes as a number, the length code among them. -/
def parseTpU64 (value : List Byte) : Except QuicError Nat :=
  if value.length > 8 then
    .error (.protocol "transport parameter value too long")
  else
    .ok (ofBeBytes value)

/-- One transport parameter; unknown ones are ignored. -/
def TransportParameters.set (tp : TransportParameters) (id : Nat) (value : List Byte) :
    Except QuicError TransportParameters :=
  match id with
  | 0x04 => do return { tp with initialMaxData := ← parseTpU64 value }
  | 0x05 => do return { tp with initialMaxStreamDataBidiLocal := ← parseTpU64 value }
  | 0x06 => do return { tp with initialMaxStreamDataBidiRemote := ← parseTpU64 value }
  | 0x07 => do return { tp with initialMaxStreamDataUni := ← parseTpU64 value }
  | 0x08 => do return { tp with initialMaxStreamsBidi := ← parseTpU64 value }
  | 0x09 => do return { tp with initialMaxStreamsUni := ← parseTpU64 value }
  | 0x03 => do return { tp with maxUdpPayloadSize := ← parseTpU64 value }
  | 0x0a => do return { tp with ackDelayExponent := ← parseTpU64 value }
  | 0x0b => do return { tp with maxAckDelay := ← parseTpU64 value }
  | 0x0c => return { tp with disableActiveMigration := true }
  | 0x0f => return { tp with initialSourceConnectionId := value }
  | _ => return tp

/-- Entries are filed until none is left. -/
def parseTpFrom : (bound : Nat) → TransportParameters → List Byte →
    Except QuicError TransportParameters
  | 0, tp, _ => .ok tp
  | bound + 1, tp, data =>
      if data.isEmpty then
        .ok tp
      else do
        let (id, data) ← readVarint data
        let (len, data) ← readVarint data
        if data.length < len then
          .error (.protocol "truncated transport parameter")
        else
          let tp ← tp.set id (data.take len)
          parseTpFrom bound tp (data.drop len)

/-- The parameters of an extension. -/
def parseTp (data : List Byte) : Except QuicError TransportParameters :=
  parseTpFrom data.length {} data

/-- Types and data, until nothing is left. -/
def parseExtensionsFrom : (bound : Nat) → List (Nat × List Byte) → List Byte →
    Except QuicError (List (Nat × List Byte))
  | 0, found, _ => .ok found
  | bound + 1, found, data =>
      if data.isEmpty then
        .ok found
      else if data.length < 4 then
        .error (.protocol "truncated extension")
      else
        let extType := ofBeBytes (slice data 0 2)
        let len := ofBeBytes (slice data 2 2)
        let rest := data.drop 4
        if rest.length < len then
          .error (.protocol "truncated extension data")
        else if found.any (fun entry => entry.1 = extType) then
          .error (.protocol "duplicate TLS extension")
        else
          parseExtensionsFrom bound (found ++ [(extType, rest.take len)]) (rest.drop len)

/-- The extensions at the front of the bytes. -/
def parseExtensions (data : List Byte) : Except QuicError (List (Nat × List Byte)) :=
  if data.length < 2 then
    .error (.protocol "truncated extensions")
  else
    let total := ofBeBytes (slice data 0 2)
    if (data.drop 2).length < total then
      .error (.protocol "truncated extensions")
    else
      parseExtensionsFrom total [] (slice data 2 total)

/-- The last protocol name of a list. -/
def lastAlpn : (bound : Nat) → Option (List Byte) → List Byte →
    Except QuicError (Option (List Byte))
  | 0, chosen, _ => .ok chosen
  | _ + 1, chosen, [] => .ok chosen
  | bound + 1, _, len :: rest =>
      if rest.length < len.toNat then
        .error (.protocol "truncated ALPN entry")
      else
        lastAlpn bound (some (rest.take len.toNat)) (rest.drop len.toNat)

/-- The protocol that was chosen. -/
def parseAlpn (data : List Byte) : Except QuicError (Option (List Byte)) :=
  if data.length < 2 then
    .error (.protocol "truncated ALPN")
  else if data.length < 2 + ofBeBytes (slice data 0 2) then
    .error (.protocol "truncated ALPN")
  else
    lastAlpn data.length none (data.drop 2)

/-- The format `0x{:04x}`. -/
def hex4 (value : Nat) : String :=
  "0x" ++ String.ofList (List.leftpad 4 '0' (Nat.toDigits 16 value))

/-- The cipher suite and the key share of a ServerHello. -/
def parseServerHello (body : List Byte) : Except QuicError (Nat × List Byte) :=
  let random := slice body 2 32
  let sidLen := (body.getD 34 0).toNat
  if body.length < 35 then
    .error (.protocol "truncated ServerHello")
  else if random = HRR_RANDOM then
    .error (.protocol "HelloRetryRequest unsupported (only X25519 offered)")
  else if random.drop 24 = DOWNGRADE_TLS12 then
    .error (.protocol "server signals TLS 1.2 downgrade; rejecting")
  else if body.length < 35 + sidLen + 3 then
    .error (.protocol "truncated ServerHello")
  else
    let suite := ofBeBytes (slice body (35 + sidLen) 2)
    if suite ≠ SUITE_AES_128 ∧ suite ≠ SUITE_AES_256 ∧ suite ≠ SUITE_CHACHA then
      .error (.protocol ("server selected unsupported cipher suite " ++ hex4 suite))
    else if body.getD (37 + sidLen) 0 ≠ 0 then
      .error (.protocol "server selected a compression method")
    else do
      let extensions ← parseExtensions (body.drop (38 + sidLen))
      match extensions.find? (fun entry => entry.1 = EXT_KEY_SHARE) with
      | none => .error (.protocol "ServerHello missing key_share")
      | some (_, share) =>
          let keyLen := ofBeBytes (slice share 2 2)
          if share.length < 34 ∨ slice share 0 2 ≠ [0x00, 0x1d] then
            .error (.protocol "ServerHello key_share is not X25519")
          else if share.length < 4 + keyLen ∨ keyLen ≠ 32 then
            .error (.protocol "invalid ServerHello key_share")
          else
            .ok (suite, slice share 4 keyLen)

/-- The entries, one by one. -/
def parseCertificatesFrom : (bound : Nat) → List (List Byte) → List Byte →
    Except QuicError (List (List Byte))
  | 0, chain, _ => .ok chain
  | bound + 1, chain, data =>
      if data.isEmpty then
        .ok chain
      else if data.length < 3 then
        .error (.protocol "truncated certificate entry")
      else
        let certLen := ofBeBytes (slice data 0 3)
        let rest := data.drop 3
        if rest.length < certLen then
          .error (.protocol "truncated certificate data")
        else
          let behind := rest.drop certLen
          let extLen := ofBeBytes (slice behind 0 2)
          if behind.length < 2 then
            .error (.protocol "truncated certificate extensions")
          else if behind.length < 2 + extLen then
            .error (.protocol "truncated certificate extensions")
          else
            parseCertificatesFrom bound (chain ++ [rest.take certLen]) (behind.drop (2 + extLen))

/-- The certificates of a Certificate message, the leaf first. -/
def parseCertificates : List Byte → Except QuicError (List Byte × List (List Byte))
  | [] => .error (.protocol "truncated Certificate")
  | contextLen :: rest =>
      let behind := rest.drop contextLen.toNat
      let listLen := ofBeBytes (slice behind 0 3)
      if rest.length < contextLen.toNat then
        .error (.protocol "truncated Certificate")
      else if behind.length < 3 then
        .error (.protocol "truncated Certificate")
      else if behind.length < 3 + listLen then
        .error (.protocol "truncated Certificate")
      else do
        match ← parseCertificatesFrom listLen [] (slice behind 3 listLen) with
        | [] => .error (.protocol "empty certificate chain")
        | leaf :: others => .ok (leaf, leaf :: others)

/-- The scheme and the signature of a CertificateVerify message. -/
def parseCertificateVerify (body : List Byte) : Except QuicError (Nat × List Byte) :=
  let sigLen := ofBeBytes (slice body 2 2)
  if body.length < 4 then
    .error (.protocol "truncated CertificateVerify")
  else if body.length < 4 + sigLen then
    .error (.protocol "truncated CertificateVerify signature")
  else
    .ok (ofBeBytes (slice body 0 2), slice body 4 sigLen)

end Corduit.Protocol.Quic
