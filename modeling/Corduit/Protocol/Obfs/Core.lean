import Corduit.Collection.Segments
import Corduit.Text.Utf8
import Corduit.Transport.Scratch
import Corduit.Transport.Session

/-!
# The fabricated TLS connection

`TlsObfsStream` leads with a fabricated client hello that carries the first
bytes in its session ticket, and puts everything later into records.  Its
reader skips the peer's fabricated hello by length and then reads records,
with a count of the bytes to skip, a buffer for the length and a count of the
payload that is still owed.
-/

namespace Corduit.Protocol.Obfs

open Collection Text Transport Word

/-- `MAX_OBFS_HOST_LEN`. -/
def maxObfsHostLen : Nat :=
  255

/-- Blanks, controls and DEL end a line. -/
def hasLineBreakingByte (value : String) : Bool :=
  (asBytes value).any fun byte => byte ≤ 0x20#8 || byte = 0x7f#8

/-- `check_field` succeeds. -/
def checkField (value : String) (max : Nat) : Bool :=
  !((asBytes value).isEmpty || max < (asBytes value).length || hasLineBreakingByte value)

/-- `validate_obfs_host` succeeds. -/
def validateObfsHost (host : String) : Bool :=
  checkField host maxObfsHostLen

/-- `TLS_OBFS_CLIENT_HELLO_PAYLOAD_LEN`. -/
def tlsObfsClientHelloPayloadLen : Nat :=
  0x400

/-- `TLS_OBFS_RECORD_PAYLOAD_LEN`. -/
def tlsObfsRecordPayloadLen : Nat :=
  0x4000

/-- `TLS_OBFS_SERVER_HELLO_PREFIX`. -/
def tlsObfsServerHelloPrefix : Nat :=
  0x69

/-- `TLS_OBFS_RECORD_PREFIX`. -/
def tlsObfsRecordPrefix : Nat :=
  3

/-- `TLS_OBFS_CLIENT_RECORD_OVERHEAD`. -/
def tlsObfsClientRecordOverhead : Nat :=
  0xd4

/-- `TLS_OBFS_CLIENT_HANDSHAKE_OVERHEAD`. -/
def tlsObfsClientHandshakeOverhead : Nat :=
  0xd0

/-- `TLS_OBFS_CLIENT_EXTENSIONS_OVERHEAD`. -/
def tlsObfsClientExtensionsOverhead : Nat :=
  0x4f

/-- `TLS_OBFS_CIPHER_SUITES`. -/
def tlsObfsCipherSuites : List Byte := [
  0xc0, 0x2c, 0xc0, 0x30, 0x00, 0x9f, 0xcc, 0xa9, 0xcc, 0xa8, 0xcc, 0xaa, 0xc0, 0x2b, 0xc0, 0x2f,
  0x00, 0x9e, 0xc0, 0x24, 0xc0, 0x28, 0x00, 0x6b, 0xc0, 0x23, 0xc0, 0x27, 0x00, 0x67, 0xc0, 0x0a,
  0xc0, 0x14, 0x00, 0x39, 0xc0, 0x09, 0xc0, 0x13, 0x00, 0x33, 0x00, 0x9d, 0x00, 0x9c, 0x00, 0x3d,
  0x00, 0x3c, 0x00, 0x35, 0x00, 0x2f, 0x00, 0xff]

/-- `TLS_OBFS_EXTENSION_TRAILER`. -/
def tlsObfsExtensionTrailer : List Byte := [
  0x00, 0x0b, 0x00, 0x04, 0x03, 0x01, 0x00, 0x02,
  0x00, 0x0a, 0x00, 0x0a, 0x00, 0x08, 0x00, 0x1d, 0x00, 0x17, 0x00, 0x19, 0x00, 0x18,
  0x00, 0x0d, 0x00, 0x20, 0x00, 0x1e, 0x06, 0x01, 0x06, 0x02, 0x06, 0x03, 0x05, 0x01, 0x05, 0x02,
  0x05, 0x03, 0x04, 0x01, 0x04, 0x02, 0x04, 0x03, 0x03, 0x01, 0x03, 0x02, 0x03, 0x03, 0x02, 0x01,
  0x02, 0x02, 0x02, 0x03,
  0x00, 0x16, 0x00, 0x00,
  0x00, 0x17, 0x00, 0x00]

/-- A stream that looks like TLS. -/
structure TlsObfsStream where
  incoming : Incoming
  outgoing : Outgoing
  host : String
  clientHelloSent : Bool
  skipRemaining : Nat
  lengthBytes : Scratch
  payloadRemaining : Nat
  firstRecord : Bool

/-- What a connection draws for its fabricated hello. -/
structure Draw where
  randomBytes : Octets 28
  sessionId : Octets 32
  unixSeconds : BitVec 32

/-- A length as two bytes, `(length as u16).to_be_bytes()`. -/
def u16Bytes (length : Nat) : List Byte :=
  toBeBytes 2 (BitVec.ofNat 16 length)

/-- The type and the version of an application-data record. -/
def recordPrefix : List Byte :=
  [0x17, 0x03, 0x03]

/-- A record with its payload. -/
def record (payload : List Byte) : List Byte :=
  recordPrefix ++ u16Bytes payload.length ++ payload

/-- `TlsObfsStream::append_records`: what is appended. -/
def appendRecords (payload : List Byte) : List Byte :=
  (chunks tlsObfsRecordPayloadLen payload).flatMap record

namespace TlsObfsStream

/-- `TlsObfsStream::new`, for a host that `validate_obfs_host` accepts. -/
def new (incoming : Incoming) (outgoing : Outgoing) (host : String) : Option TlsObfsStream :=
  if validateObfsHost host then
    some ⟨incoming, outgoing, host, false, tlsObfsServerHelloPrefix, Scratch.zeroed 2, 0, true⟩
  else none

/-- A hello with the first payload as its ticket. -/
def clientHello (stream : TlsObfsStream) (draw : Draw) (buf : List Byte) : List Byte :=
  let payloadLen := min buf.length tlsObfsClientHelloPayloadLen
  let payload := buf.take payloadLen
  let host := asBytes stream.host
  [0x16, 0x03, 0x01] ++
    u16Bytes (tlsObfsClientRecordOverhead + host.length + payload.length) ++
    [0x01, 0x00] ++
    u16Bytes (tlsObfsClientHandshakeOverhead + host.length + payload.length) ++
    [0x03, 0x03] ++ toBeBytes 4 draw.unixSeconds ++ draw.randomBytes.bytes ++
    [0x20] ++ draw.sessionId.bytes ++
    u16Bytes tlsObfsCipherSuites.length ++ tlsObfsCipherSuites ++
    [0x01, 0x00] ++
    u16Bytes (tlsObfsClientExtensionsOverhead + host.length + payload.length) ++
    u16Bytes 0x0023 ++ u16Bytes payload.length ++ payload ++
    u16Bytes 0x0000 ++ u16Bytes (host.length + 5) ++ u16Bytes (host.length + 3) ++ [0x00] ++
    u16Bytes host.length ++ host ++ tlsObfsExtensionTrailer ++
    appendRecords (buf.drop payloadLen)

/-- `Write::write`. -/
def write (stream : TlsObfsStream) (draw : Draw) (buf : List Byte) :
    Except IoError Nat × TlsObfsStream :=
  if !stream.clientHelloSent then
    let (result, outgoing) := stream.outgoing.writeAll (stream.clientHello draw buf)
    (result.map fun _ => buf.length,
      { stream with clientHelloSent := true, outgoing := outgoing })
  else if buf = [] then (.ok 0, stream)
  else
    let (result, outgoing) := stream.outgoing.writeAll (appendRecords buf)
    (result.map fun _ => buf.length, { stream with outgoing := outgoing })

/-- One iteration of `Read::read`. -/
def turn (room : Nat) (stream : TlsObfsStream) : Turn TlsObfsStream Answer :=
  if 0 < stream.payloadRemaining then
    match stream.incoming.read (min room stream.payloadRemaining) with
    | (.error error, incoming) => .returns (.error error) { stream with incoming := incoming }
    | (.ok [], incoming) =>
        .returns (.error ⟨.unexpectedEof, "obfs tls: the peer closed inside a record"⟩)
          { stream with incoming := incoming }
    | (.ok bytes, incoming) =>
        .returns (.ok bytes)
          { stream with
            incoming := incoming
            payloadRemaining := stream.payloadRemaining - bytes.length }
  else if 0 < stream.skipRemaining then
    match stream.incoming.read (min stream.skipRemaining 64) with
    | (.error error, incoming) => .returns (.error error) { stream with incoming := incoming }
    | (.ok [], incoming) => .returns (.ok []) { stream with incoming := incoming }
    | (.ok bytes, incoming) =>
        .again
          { stream with
            incoming := incoming
            skipRemaining := stream.skipRemaining - bytes.length }
  else if stream.lengthBytes.filled < stream.lengthBytes.bytes.length then
    match stream.incoming.read
        (stream.lengthBytes.bytes.length - stream.lengthBytes.filled) with
    | (.error error, incoming) => .returns (.error error) { stream with incoming := incoming }
    | (.ok [], incoming) =>
        if stream.lengthBytes.filled = 0 then
          .returns (.ok []) { stream with incoming := incoming }
        else
          .returns (.error ⟨.unexpectedEof, "obfs tls: the peer closed inside a record length"⟩)
            { stream with incoming := incoming }
    | (.ok bytes, incoming) =>
        .again
          { stream with
            incoming := incoming
            lengthBytes := stream.lengthBytes.extend bytes }
  else
    let length := ofBeBytes stream.lengthBytes.bytes
    let stream' :=
      { stream with
        lengthBytes := ⟨stream.lengthBytes.bytes, 0⟩
        firstRecord := false
        skipRemaining := if stream.firstRecord then tlsObfsRecordPrefix else stream.skipRemaining }
    if length = 0 then .again stream' else .again { stream' with payloadRemaining := length }

/-- Every iteration that goes around again uses up bytes or a poll, or empties
the buffer of the length. -/
def effort (stream : TlsObfsStream) : Nat :=
  2 * stream.incoming.wire.length + stream.incoming.polls.length + stream.lengthBytes.filled

/-- `Read::read` with a buffer of `room` bytes. -/
def read (stream : TlsObfsStream) (room : Nat) : Option (Answer × TlsObfsStream) :=
  if room = 0 then some (.ok [], stream)
  else loop (turn room) (stream.effort + 1) stream

end TlsObfsStream

end Corduit.Protocol.Obfs
