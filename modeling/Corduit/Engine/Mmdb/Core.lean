import Corduit.Netstack.Packet.Core
import Corduit.Text.Utf8
import Corduit.Word.Checked

/-!
# The MMDB reader

A database is a search tree over the bits of addresses, a section of data and a map
of metadata at the end.  A field of data is a control byte with its type and size,
and its payload; pointers lead to other fields, maps and arrays hold them.  The
arithmetic is that of the source, with its overflow checks.
-/

namespace Corduit.Engine.Mmdb

open Netstack Text Transition Word

/-- A `Vec<u8>`, which is never longer than `isize::MAX`. -/
structure Blob where
  bytes : List Byte
  short : bytes.length < 2 ^ 63

/-- What the reader uses of the metadata. -/
structure Metadata where
  ipVersion : BitVec 16
  recordSize : BitVec 16
  nodeCount : BitVec 32
  searchTreeSize : BitVec 32
  nodeByteSize : BitVec 32
deriving DecidableEq

/-- `DataValue`, with the bits of a float. -/
inductive DataValue where
  | map (entries : List (String × DataValue))
  | array (items : List DataValue)
  | str (text : String)
  | bytes (bytes : List Byte)
  | u16 (value : BitVec 16)
  | u32 (value : BitVec 32)
  | u64 (value : BitVec 64)
  | f64 (bits : BitVec 64)
  | bool (value : Bool)
  | null

/-- The mark in front of the metadata. -/
def MAGIC : List Byte := [0xAB, 0xCD, 0xEF] ++ ascii "MaxMind.com"

/-- The zeros in front of the data. -/
def DATA_SECTION_SEPARATOR : Nat := 16

/-- How far from the end the mark may be. -/
def METADATA_SEARCH_WINDOW : Nat := 128 * 1024

/-- The deepest nesting. -/
def MAX_DEPTH : Nat := 128

/-- The most values of a decode. -/
def MAX_DECODED_VALUES : Nat := 65536

/-- The most entries of a container. -/
def MAX_CONTAINER_ENTRIES : Nat := 65536

/-- The budgets of a decode. -/
structure DecodeState where
  depth : Nat
  values : Nat
deriving DecidableEq

/-- `Option`, where the computation may also panic. -/
abbrev Try (α : Type) := Except (Halt Unit) α

/-- `return None`. -/
def missing {α : Type} : Try α :=
  .error (.fails ())

/-- `bytes.get(place)?`. -/
def get (bytes : List Byte) (place : Nat) : Try Byte :=
  Checked.okOr () bytes[place]?

/-- A pointer of one of four classes. -/
def readPointer (sizeBits : Byte) (payload : List Byte) : Try (Nat × Nat) :=
  let high := (sizeBits &&& 0x07).toNat
  match (sizeBits >>> 3).toNat with
  | 0 => do
      let first ← get payload 0
      return (high <<< 8 ||| first.toNat, 1)
  | 1 => do
      let first ← get payload 0
      let second ← get payload 1
      let value ← Checked.add 64 (high <<< 16 ||| (first.toNat <<< 8 ||| second.toNat)) 2048
      return (value, 2)
  | 2 => do
      let first ← get payload 0
      let second ← get payload 1
      let third ← get payload 2
      let word := first.toNat <<< 16 ||| second.toNat <<< 8 ||| third.toNat
      let value ← Checked.add 64 (high <<< 24 ||| word) 526336
      return (value, 3)
  | _ =>
      if 4 ≤ payload.length then .ok (ofBeBytes (payload.take 4), 4) else missing

/-- `MmdbReader::read_size`: the size and the position behind it. -/
def readSize (data : Blob) (sizeBits : Byte) (pos : Nat) : Try (Nat × Nat) :=
  match sizeBits.toNat with
  | 29 => do
      let first ← get data.bytes pos
      let pos ← Checked.add 64 pos 1
      return (29 + first.toNat, pos)
  | 30 => do
      let high ← get data.bytes pos
      let second ← Checked.add 64 pos 1
      let low ← get data.bytes second
      let pos ← Checked.add 64 pos 2
      return (285 + high.toNat <<< 8 + low.toNat, pos)
  | 31 => do
      let first ← get data.bytes pos
      let second ← Checked.add 64 pos 1
      let middle ← get data.bytes second
      let third ← Checked.add 64 pos 2
      let last ← get data.bytes third
      let pos ← Checked.add 64 pos 3
      return (65821 + first.toNat <<< 16 + middle.toNat <<< 8 + last.toNat, pos)
  | size => if size ≤ 28 then .ok (size, pos) else missing

/-- `be_uint`, as the number that it spells. -/
def beUint (width : Nat) (payload : List Byte) : Try (BitVec (8 * width)) :=
  if width < payload.length then missing else .ok (BitVec.ofNat _ (ofBeBytes payload))

/-- The value of a payload whose type is none of those read before. -/
def scalar (ty : Nat) (payload : List Byte) : Try DataValue :=
  match ty with
  | 2 => do return .str (← Checked.okOr () (fromUtf8 payload))
  | 3 => do return .f64 (← beUint 8 payload)
  | 4 => .ok (.bytes payload)
  | 5 => do return .u16 (← beUint 2 payload)
  | 6 => do return .u32 (← beUint 4 payload)
  | 9 => do return .u64 (← beUint 8 payload)
  | _ => .ok .null

/-- What is behind a position, for `get(pos..)?`. -/
def rest (data : Blob) (pos : Nat) : Try (List Byte) :=
  if pos ≤ data.bytes.length then .ok (data.bytes.drop pos) else missing

/-- The type and the size bits of a field, and the position behind its type. -/
def fieldType (data : Blob) (offset : Nat) : Try (Nat × Byte × Nat) := do
  let control ← get data.bytes offset
  let pos ← Checked.add 64 offset 1
  if (control >>> 5).toNat = 0 then
    let ext ← get data.bytes pos
    let pos ← Checked.add 64 pos 1
    let ty ← Checked.add 8 ext.toNat 7
    return (ty, control &&& 0x1F, pos)
  else
    return ((control >>> 5).toNat, control &&& 0x1F, pos)

/-- The field that a pointer leads to, and the position behind the pointer. -/
def pointerTarget (data : Blob) (ptrBase depth : Nat) (sizeBits : Byte) (pos : Nat) :
    Try (Nat × Nat) := do
  let payload ← rest data pos
  let (value, payloadLen) ← readPointer sizeBits payload
  if depth ≥ MAX_DEPTH then missing
  else if ptrBase + value > usizeMax then missing
  else if ptrBase + value ≥ data.bytes.length then missing
  else return (ptrBase + value, payloadLen)

/-- The value of a field with its payload in place. -/
def payloadValue (data : Blob) (ty pos size : Nat) : Try (DataValue × Nat) := do
  let stop ← Checked.add 64 pos size
  let payload ← Checked.okOr () (range? data.bytes pos stop)
  let value ← scalar ty payload
  return (value, stop)

/-- What a decode returns, and the budgets that it leaves. -/
abbrev Decoded (α : Type) := Try α × DecodeState

/-- The function that decodes the fields in a field. -/
abbrev Reads := Nat → DecodeState → Decoded (DataValue × Nat)

/-- The loop over the entries of a map. -/
def readEntries (read : Reads) : (count p : Nat) → DecodeState →
    Decoded (List (String × DataValue) × Nat)
  | 0, p, state => (.ok ([], p), state)
  | count + 1, p, state =>
      match read p state with
      | (.error halt, state) => (.error halt, state)
      | (.ok (.str key, p), state) =>
          match read p state with
          | (.error halt, state) => (.error halt, state)
          | (.ok (value, p), state) =>
              match readEntries read count p state with
              | (.error halt, state) => (.error halt, state)
              | (.ok (entries, p), state) => (.ok ((key, value) :: entries, p), state)
      | (.ok _, state) => (missing, state)

/-- The loop over the items of an array. -/
def readItems (read : Reads) : (count p : Nat) → DecodeState →
    Decoded (List DataValue × Nat)
  | 0, p, state => (.ok ([], p), state)
  | count + 1, p, state =>
      match read p state with
      | (.error halt, state) => (.error halt, state)
      | (.ok (value, p), state) =>
          match readItems read count p state with
          | (.error halt, state) => (.error halt, state)
          | (.ok (items, p), state) => (.ok (value :: items, p), state)

/-- `state.depth -= 1`. -/
def ascend (state : DecodeState) : Try DecodeState := do
  let depth ← Checked.sub state.depth 1
  return { state with depth := depth }

/-- A container of some size, one level deeper. -/
def container {α : Type} (size : Nat) (state : DecodeState)
    (read : DecodeState → Decoded (α × Nat)) (make : α → DataValue) : Decoded (DataValue × Nat) :=
  if size > MAX_CONTAINER_ENTRIES ∨ state.depth ≥ MAX_DEPTH then
    (missing, state)
  else
    match read { state with depth := state.depth + 1 } with
    | (.error halt, state) => (.error halt, state)
    | (.ok (content, p), state) =>
        match ascend state with
        | .error halt => (.error halt, state)
        | .ok state => (.ok (make content, p), state)

/-- `MmdbReader::read_value`, with `read` for the fields in the field. -/
def readField (data : Blob) (ptrBase : Nat) (read : Reads) : Reads := fun offset state =>
  if state.values ≥ MAX_DECODED_VALUES then
    (missing, state)
  else
    let state := { state with values := state.values + 1 }
    match fieldType data offset with
    | .error halt => (.error halt, state)
    | .ok (ty, sizeBits, pos) =>
        if ty = 1 then
          match pointerTarget data ptrBase state.depth sizeBits pos with
          | .error halt => (.error halt, state)
          | .ok (target, payloadLen) =>
              match read target { state with depth := state.depth + 1 } with
              | (resolved, state) =>
                  match ascend state with
                  | .error halt => (.error halt, state)
                  | .ok state =>
                      (resolved.bind fun (value, _) =>
                        (Checked.add 64 pos payloadLen).map (value, ·), state)
        else
          match readSize data sizeBits pos with
          | .error halt => (.error halt, state)
          | .ok (size, pos) =>
              if ty = 14 then
                (.ok (.bool (size = 1), pos), state)
              else if ty = 7 then
                container size state (readEntries read size pos) .map
              else if ty = 11 then
                container size state (readItems read size pos) .array
              else
                (payloadValue data ty pos size, state)

/-- `MmdbReader::read_value`, with a bound for its nesting. -/
def readValue (data : Blob) (ptrBase : Nat) : (levels : Nat) → Reads
  | 0 => fun _ state => (.error .unending, state)
  | levels + 1 => readField data ptrBase (readValue data ptrBase levels)

/-- A decode with fresh budgets; no deeper nesting than `MAX_DEPTH` below the field
comes to pass. -/
def decode (data : Blob) (offset ptrBase : Nat) : Decoded (DataValue × Nat) :=
  readValue data ptrBase (MAX_DEPTH + 1) offset ⟨0, 0⟩

/-- A database that was opened. -/
structure MmdbReader where
  data : Blob
  info : Metadata
  dataStart : Nat

/-- The value of the first entry with a key. -/
def lookupKey (key : String) (entries : List (String × DataValue)) : Option DataValue :=
  (entries.find? fun entry => entry.1 = key).map Prod.snd

/-- `MmdbReader::u16_of`. -/
def u16Of : Option DataValue → Option (BitVec 16)
  | some (.u16 value) => some value
  | _ => none

/-- `MmdbReader::u32_of`. -/
def u32Of : Option DataValue → Option (BitVec 32)
  | some (.u32 value) => some value
  | _ => none

/-- The place of the last marker in the bytes. -/
def lastMarker (bytes : List Byte) : Option Nat :=
  (List.range (bytes.length + 1 - MAGIC.length)).reverse.find? fun place =>
    slice bytes place MAGIC.length = MAGIC

/-- The place of the metadata, for `MmdbReader::open`. -/
def metadataStart (data : Blob) : Except (Halt String) Nat := do
  let searchFrom := data.bytes.length - METADATA_SEARCH_WINDOW
  let window ← Checked.range data.bytes searchFrom data.bytes.length
  let offset ← Checked.okOr "MMDB: metadata marker not found" (lastMarker window)
  let marker ← Checked.add 64 searchFrom offset
  Checked.add 64 marker MAGIC.length

/-- The metadata and the start of the data section, out of the map of the metadata. -/
def readMetadata (metaStart : Nat) (entries : List (String × DataValue)) :
    Except (Halt String) (Metadata × Nat) := do
  let ipVersion := (u16Of (lookupKey "ip_version" entries)).getD 0
  let recordSize := (u16Of (lookupKey "record_size" entries)).getD 0
  let nodeCount := (u32Of (lookupKey "node_count" entries)).getD 0
  if ipVersion ≠ 4 ∧ ipVersion ≠ 6 then
    .error (.fails ("MMDB: unsupported ip_version " ++ toString ipVersion.toNat))
  else if recordSize ≠ 24 ∧ recordSize ≠ 28 ∧ recordSize ≠ 32 then
    .error (.fails ("MMDB: unsupported record_size " ++ toString recordSize.toNat))
  else
    let nodeByteSize := recordSize.toNat * 2 / 8
    if nodeCount.toNat * nodeByteSize ≥ 2 ^ 32 then
      .error (.fails "MMDB: tree overflow")
    else
      let searchTreeSize := nodeCount.toNat * nodeByteSize
      let dataStart ← Checked.add 64 searchTreeSize DATA_SECTION_SEPARATOR
      if dataStart > metaStart then
        .error (.fails "MMDB: search tree overlaps metadata")
      else
        return (⟨ipVersion, recordSize, nodeCount, BitVec.ofNat 32 searchTreeSize,
          BitVec.ofNat 32 nodeByteSize⟩, dataStart)

/-- What `MmdbReader::open` makes of the decoded metadata. -/
def openWith (data : Blob) (metaStart : Nat) (decoded : Try (DataValue × Nat)) :
    Except (Halt String) MmdbReader :=
  match decoded with
  | .error (.fails _) => .error (.fails "MMDB: metadata is corrupt")
  | .error .panics => .error .panics
  | .error .unending => .error .unending
  | .ok (.map entries, _) =>
      (readMetadata metaStart entries).map fun (info, dataStart) => ⟨data, info, dataStart⟩
  | .ok _ => .error (.fails "MMDB: metadata is not a map")

/-- `MmdbReader::open`. -/
def openReader (data : Blob) : Except (Halt String) MmdbReader :=
  if data.bytes.length < 28 then
    .error (.fails "MMDB: file too small")
  else do
    let metaStart ← metadataStart data
    openWith data metaStart (decode data metaStart metaStart).1

namespace MmdbReader

/-- A byte behind the start of a node. -/
def nodeByte (reader : MmdbReader) (base place : Nat) : Try (BitVec 32) := do
  let place ← Checked.add 64 base place
  return (← get reader.data.bytes place).setWidth 32

/-- One of the two records of a node. -/
def readRecord (reader : MmdbReader) (node : BitVec 32) (bit : Bool) : Try (BitVec 32) :=
  let base := node.toNat * reader.info.nodeByteSize.toNat
  if base > usizeMax then missing
  else
    match reader.info.recordSize.toNat with
    | 24 => do
        let b0 ← reader.nodeByte base (if bit then 3 else 0)
        let b1 ← reader.nodeByte base (if bit then 4 else 1)
        let b2 ← reader.nodeByte base (if bit then 5 else 2)
        return b0 <<< 16 ||| b1 <<< 8 ||| b2
    | 28 => do
        let mid ← reader.nodeByte base 3
        let b0 ← reader.nodeByte base (if bit then 4 else 0)
        let b1 ← reader.nodeByte base (if bit then 5 else 1)
        let b2 ← reader.nodeByte base (if bit then 6 else 2)
        return (if bit then mid &&& 0x0F else mid >>> 4) <<< 24 ||| b0 <<< 16 ||| b1 <<< 8 ||| b2
    | 32 => do
        let b0 ← reader.nodeByte base (if bit then 4 else 0)
        let b1 ← reader.nodeByte base (if bit then 5 else 1)
        let b2 ← reader.nodeByte base (if bit then 6 else 2)
        let b3 ← reader.nodeByte base (if bit then 7 else 3)
        return b0 <<< 24 ||| b1 <<< 16 ||| b2 <<< 8 ||| b3
    | _ => missing

/-- `MmdbReader::lookup_bits`, from a node on. -/
def lookupBits (reader : MmdbReader) : List Bool → BitVec 32 → Try Nat
  | [], _ => missing
  | bit :: bits, node => do
      let record ← reader.readRecord node bit
      if record.toNat < reader.info.nodeCount.toNat then reader.lookupBits bits record
      else if reader.info.nodeCount.toNat < record.toNat then
        Checked.add 64 (record.toNat - reader.info.nodeCount.toNat)
          reader.info.searchTreeSize.toNat
      else missing

/-- The bits of bytes, the most significant of each first. -/
def bitsOf (bytes : List Byte) : List Bool :=
  bytes.flatMap fun byte => (List.range 8).reverse.map byte.getLsbD

/-- The data offset of an address. -/
def lookup (reader : MmdbReader) : IpAddr → Try Nat
  | .v4 addr =>
      if reader.info.ipVersion = 4 then reader.lookupBits (bitsOf (toBeBytes 4 addr)) 0
      else
        reader.lookupBits
          (bitsOf (List.replicate 10 0 ++ [0xFF, 0xFF] ++ toBeBytes 4 addr)) 0
  | .v6 addr =>
      if reader.info.ipVersion = 6 then reader.lookupBits (bitsOf (toBeBytes 16 addr)) 0
      else missing

end MmdbReader

/-- The longest country code. -/
def MAX_COUNTRY_CODE_LEN : Nat := 16

/-- A country code. -/
structure CountryCode where
  bytes : Octets MAX_COUNTRY_CODE_LEN
  len : Byte
deriving DecidableEq

/-- `u8::is_ascii_alphabetic`. -/
def isAsciiAlphabetic (byte : Byte) : Bool :=
  (0x41 ≤ byte.toNat ∧ byte.toNat ≤ 0x5A) ∨ (0x61 ≤ byte.toNat ∧ byte.toNat ≤ 0x7A)

/-- `u8::to_ascii_uppercase`. -/
def toAsciiUppercase (byte : Byte) : Byte :=
  if 0x61 ≤ byte.toNat ∧ byte.toNat ≤ 0x7A then byte - 0x20 else byte

/-- Two letters or more, in capitals. -/
def CountryCode.fromBytes (bytes : List Byte) : Option CountryCode :=
  if bytes.length < 2 ∨ bytes.length > MAX_COUNTRY_CODE_LEN then none
  else if bytes.all isAsciiAlphabetic then
    some ⟨Octets.written _ (bytes.map toAsciiUppercase), BitVec.ofNat 8 bytes.length⟩
  else none

/-- The code in a decoded record. -/
def countryOf (value : DataValue) : Option CountryCode :=
  match value with
  | .map entries =>
      match lookupKey "country" entries with
      | some (.map country) =>
          match lookupKey "iso_code" country with
          | some (.str code) => CountryCode.fromBytes (asBytes code)
          | _ => none
      | _ => none
  | _ => none

/-- The country of an address. -/
def MmdbReader.lookupCountry (reader : MmdbReader) (ip : IpAddr) : Try CountryCode := do
  let dataOff ← reader.lookup ip
  let (value, _) ← (decode reader.data dataOff reader.dataStart).1
  Checked.okOr () (countryOf value)

end Corduit.Engine.Mmdb
