import Corduit.Netstack.Packet.Core
import Corduit.Text.Utf8

/-!
# SOCKS addresses

The address that precedes the payload of the proxy protocols: a type byte, the
host and the port.  Two encoders append it to a buffer and three decoders read
it from a slice or a stream.

A growing buffer is the list of bytes written so far; a `&[u8]` cursor and a
reader are the bytes that are left.  The reads of a cursor are guarded by a
length check right before them, so they are the slices they copy.
-/

namespace Corduit.Protocol

open Netstack Text Word

/-- The errors that the codec returns. -/
inductive ProtocolError where
  | io (message : String)
  | protocol (message : String)
  | addressParse (message : String)
  | unsupportedAddressType (value : Byte)
  | bufferTooSmall
  deriving DecidableEq, Repr

/-- The kinds of addresses. -/
inductive AddressType where
  | ipv4
  | domain
  | ipv6
  deriving DecidableEq, Repr

namespace AddressType

/-- The byte of a kind. -/
def toByte : AddressType → Byte
  | ipv4 => 0x01
  | domain => 0x03
  | ipv6 => 0x04

/-- The kind of a byte. -/
def tryFrom (value : Byte) : Except ProtocolError AddressType :=
  if value = 0x01 then .ok ipv4
  else if value = 0x03 then .ok domain
  else if value = 0x04 then .ok ipv6
  else .error (.unsupportedAddressType value)

end AddressType

/-- An address of the protocol. -/
inductive Address where
  | domain (domain : String) (port : BitVec 16)
  | ipv4 (ip : Ipv4Addr) (port : BitVec 16)
  | ipv6 (ip : Ipv6Addr) (port : BitVec 16)
  deriving DecidableEq, Repr

/-- The borrowed form of an address. -/
inductive AddressRef where
  | domain (domain : String) (port : BitVec 16)
  | ipv4 (ip : Ipv4Addr) (port : BitVec 16)
  | ipv6 (ip : Ipv6Addr) (port : BitVec 16)
  deriving DecidableEq, Repr

/-- An address of a fixed width from its octets. -/
def ofOctets {w : Nat} (octets : List Byte) : BitVec w :=
  BitVec.ofNat w (ofBeBytes octets)

/-- `Buf::copy_to_slice`: the next bytes, and what is left behind them. -/
def copyToSlice (buf : List Byte) (count : Nat) : List Byte × List Byte :=
  (buf.take count, buf.drop count)

/-- `Buf::get_u16`. -/
def getU16 (buf : List Byte) : BitVec 16 × List Byte :=
  let (bytes, rest) := copyToSlice buf 2
  (ofOctets bytes, rest)

/-- `Read::read_exact`, with the error turned into its text. -/
def readExact (reader : List Byte) (count : Nat) : Except ProtocolError (List Byte × List Byte) :=
  if reader.length < count then .error (.io "failed to fill whole buffer")
  else .ok (copyToSlice reader count)

namespace Address

/-- The bytes that it takes. -/
def serializedLen : Address → Nat
  | ipv4 .. => 7
  | ipv6 .. => 19
  | domain name _ => 4 + (asBytes name).length

/-- The error of both encoders for a domain of too many bytes. -/
def tooLong (count : Nat) : ProtocolError :=
  .protocol ("domain name is " ++ toString count ++ " bytes, exceeding the 255-byte wire limit")

/-- The result, and the buffer after the call. -/
def writeTo (address : Address) (buf : List Byte) : Except ProtocolError Unit × List Byte :=
  match address with
  | ipv4 ip port =>
      let buf := buf ++ [AddressType.ipv4.toByte]
      let buf := buf ++ toBeBytes 4 ip
      let buf := buf ++ toBeBytes 2 port
      (.ok (), buf)
  | ipv6 ip port =>
      let buf := buf ++ [AddressType.ipv6.toByte]
      let buf := buf ++ toBeBytes 16 ip
      let buf := buf ++ toBeBytes 2 port
      (.ok (), buf)
  | domain name port =>
      let domainBytes := asBytes name
      if domainBytes.length > 255 then
        (.error (tooLong domainBytes.length), buf)
      else
        let buf := buf ++ [AddressType.domain.toByte]
        let buf := buf ++ [BitVec.ofNat 8 domainBytes.length]
        let buf := buf ++ domainBytes
        let buf := buf ++ toBeBytes 2 port
        (.ok (), buf)

/-- The result, and the vector after the call. -/
def writeToVec (address : Address) (buf : List Byte) : Except ProtocolError Unit × List Byte :=
  match address with
  | ipv4 ip port =>
      (.ok (), buf ++ [AddressType.ipv4.toByte] ++ toBeBytes 4 ip ++ toBeBytes 2 port)
  | ipv6 ip port =>
      (.ok (), buf ++ [AddressType.ipv6.toByte] ++ toBeBytes 16 ip ++ toBeBytes 2 port)
  | domain name port =>
      let domainBytes := asBytes name
      if domainBytes.length > 255 then
        (.error (tooLong domainBytes.length), buf)
      else
        (.ok (), buf ++ [AddressType.domain.toByte] ++ [BitVec.ofNat 8 domainBytes.length] ++
          domainBytes ++ toBeBytes 2 port)

/-- The bytes of an address. -/
def toBytes (address : Address) : Except ProtocolError (List Byte) :=
  let (result, buf) := address.writeTo []
  result.map fun _ => buf

end Address

namespace AddressRef

/-- The address at the front, and what is behind it. -/
def parseBuf (buf : List Byte) : Except ProtocolError (AddressRef × List Byte) :=
  match buf with
  | [] => .error .bufferTooSmall
  | kind :: buf => do
      match ← AddressType.tryFrom kind with
      | .ipv4 =>
          if buf.length < 6 then
            .error .bufferTooSmall
          else
            let (ip, buf) := copyToSlice buf 4
            let (port, buf) := getU16 buf
            .ok (ipv4 (ofOctets ip) port, buf)
      | .ipv6 =>
          if buf.length < 18 then
            .error .bufferTooSmall
          else
            let (ip, buf) := copyToSlice buf 16
            let (port, buf) := getU16 buf
            .ok (ipv6 (ofOctets ip) port, buf)
      | .domain =>
          match buf with
          | [] => .error .bufferTooSmall
          | len :: buf =>
              if buf.length < len.toNat + 2 then
                .error .bufferTooSmall
              else
                match fromUtf8 (buf.take len.toNat) with
                | none => .error (.addressParse "Invalid UTF-8 domain")
                | some text =>
                    let (port, buf) := getU16 (buf.drop len.toNat)
                    .ok (domain text port, buf)

/-- The address at the front, and its length. -/
def parse (buf : List Byte) : Except ProtocolError (AddressRef × Nat) := do
  let (address, rest) ← parseBuf buf
  return (address, buf.length - rest.length)

/-- A copy of what was borrowed. -/
def toOwned : AddressRef → Address
  | domain text port => .domain text port
  | ipv4 ip port => .ipv4 ip port
  | ipv6 ip port => .ipv6 ip port

end AddressRef

namespace Address

/-- An address and its length. -/
def readFrom (buf : List Byte) : Except ProtocolError (Address × Nat) := do
  let (address, consumed) ← AddressRef.parse buf
  return (address.toOwned, consumed)

/-- The address at the front, and what is behind it. -/
def parseFromBuf (buf : List Byte) : Except ProtocolError (Address × List Byte) :=
  match buf with
  | [] => .error .bufferTooSmall
  | kind :: buf => do
      match ← AddressType.tryFrom kind with
      | .ipv4 =>
          if buf.length < 6 then
            .error .bufferTooSmall
          else
            let (ip, buf) := copyToSlice buf 4
            let (port, buf) := getU16 buf
            .ok (ipv4 (ofOctets ip) port, buf)
      | .ipv6 =>
          if buf.length < 18 then
            .error .bufferTooSmall
          else
            let (ip, buf) := copyToSlice buf 16
            let (port, buf) := getU16 buf
            .ok (ipv6 (ofOctets ip) port, buf)
      | .domain =>
          match buf with
          | [] => .error .bufferTooSmall
          | len :: buf =>
              if buf.length < len.toNat + 2 then
                .error .bufferTooSmall
              else
                let (bytes, buf) := copyToSlice buf len.toNat
                match fromUtf8 bytes with
                | none => .error (.addressParse "Invalid UTF-8 domain")
                | some text =>
                    let (port, buf) := getU16 buf
                    .ok (domain text port, buf)

/-- The address at the front. -/
def fromBytes (data : List Byte) : Except ProtocolError Address := do
  let (address, _) ← parseFromBuf data
  return address

/-- The address, and what the reader still holds. -/
def readFromReader (reader : List Byte) : Except ProtocolError (Address × List Byte) := do
  let (one, reader) ← readExact reader 1
  match ← AddressType.tryFrom (one.headD 0) with
  | .ipv4 =>
      let (ip, reader) ← readExact reader 4
      let (port, reader) ← readExact reader 2
      return (ipv4 (ofOctets ip) (ofOctets port), reader)
  | .ipv6 =>
      let (ip, reader) ← readExact reader 16
      let (port, reader) ← readExact reader 2
      return (ipv6 (ofOctets ip) (ofOctets port), reader)
  | .domain =>
      let (one, reader) ← readExact reader 1
      let (bytes, reader) ← readExact reader (one.headD 0).toNat
      match fromUtf8 bytes with
      | none => .error (.addressParse "Invalid UTF-8 domain")
      | some text =>
          let (port, reader) ← readExact reader 2
          return (domain text (ofOctets port), reader)

end Address

/-!
# The address codec

The bytes of an address on the wire, stated once.  Both encoders append them,
and each decoder succeeds exactly on byte strings that begin with them: the
agreement of the decoders and both round trips follow.
-/

open Transition

namespace Address

/-- The length of a domain fits its byte. -/
def Encodable : Address → Prop
  | domain name _ => (asBytes name).length ≤ 255
  | ipv4 .. | ipv6 .. => True

instance (address : Address) : Decidable address.Encodable :=
  match address with
  | domain name _ => inferInstanceAs (Decidable ((asBytes name).length ≤ 255))
  | ipv4 .. | ipv6 .. => inferInstanceAs (Decidable True)

/-- The bytes of an address on the wire. -/
def wire : Address → List Byte
  | domain name port =>
      AddressType.domain.toByte :: BitVec.ofNat 8 (asBytes name).length ::
        (asBytes name ++ toBeBytes 2 port)
  | ipv4 ip port => AddressType.ipv4.toByte :: (toBeBytes 4 ip ++ toBeBytes 2 port)
  | ipv6 ip port => AddressType.ipv6.toByte :: (toBeBytes 16 ip ++ toBeBytes 2 port)

variable {address : Address} {bytes buf rest reader host : List Byte}

theorem length_wire (address : Address) : address.wire.length = address.serializedLen := by
  cases address with
  | domain name port => simp [wire, serializedLen]; omega
  | ipv4 ip port => simp [wire, serializedLen]
  | ipv6 ip port => simp [wire, serializedLen]

theorem writeTo_of_encodable (encodable : address.Encodable) (buf : List Byte) :
    address.writeTo buf = (.ok (), buf ++ address.wire) := by
  cases address with
  | domain name port =>
      have short : ¬ 255 < (asBytes name).length := Nat.not_lt.mpr encodable
      simp [writeTo, wire, short]
  | ipv4 ip port => simp [writeTo, wire]
  | ipv6 ip port => simp [writeTo, wire]

theorem writeTo_of_not_encodable (tooBig : ¬ address.Encodable) :
    ∃ error, ∀ buf, address.writeTo buf = (.error error, buf) := by
  cases address with
  | domain name port =>
      have long : 255 < (asBytes name).length := Nat.lt_of_not_le tooBig
      exact ⟨tooLong (asBytes name).length, fun buf => by simp [writeTo, long]⟩
  | ipv4 ip port => exact absurd trivial tooBig
  | ipv6 ip port => exact absurd trivial tooBig

theorem writeToVec_eq (address : Address) (buf : List Byte) :
    address.writeToVec buf = address.writeTo buf := by
  cases address <;> rfl

theorem toBytes_eq_ok_iff : address.toBytes = .ok bytes ↔ address.Encodable ∧ bytes = address.wire := by
  unfold toBytes
  by_cases encodable : address.Encodable
  · rw [writeTo_of_encodable encodable]
    simp [encodable, Except.map, eq_comm]
  · rcases writeTo_of_not_encodable encodable with ⟨error, failed⟩
    rw [failed]
    simp [encodable, Except.map]

theorem ofOctets_eq_iff {w : Nat} {value : BitVec w} (wide : 256 ^ bytes.length = 2 ^ w) :
    ofOctets bytes = value ↔ bytes = toBeBytes bytes.length value := by
  constructor
  · rintro rfl
    exact (toBeBytes_ofBeBytes wide.le).symm
  · intro spelled
    rw [spelled]
    exact ofNat_ofBeBytes value wide.ge

variable {count : Nat} {α : Type} {result : α}

theorem copyToSlice_eq_iff (enough : count ≤ buf.length) :
    copyToSlice buf count = (bytes, rest) ↔ bytes.length = count ∧ buf = bytes ++ rest := by
  constructor
  · intro copied
    rcases Prod.mk.inj copied with ⟨rfl, rfl⟩
    exact ⟨List.length_take_of_le enough, (List.take_append_drop count buf).symm⟩
  · rintro ⟨rfl, rfl⟩
    exact Prod.ext (List.take_left' rfl) (List.drop_left' rfl)

theorem getU16_eq_iff {port : BitVec 16} (enough : 2 ≤ buf.length) :
    getU16 buf = (port, rest) ↔ buf = toBeBytes 2 port ++ rest := by
  have two : (buf.take 2).length = 2 := List.length_take_of_le enough
  have number := @ofOctets_eq_iff (buf.take 2) 16 port (by rw [two]; rfl)
  rw [two] at number
  constructor
  · intro read
    rcases Prod.mk.inj read with ⟨spelled, rfl⟩
    rw [← number.mp spelled, List.take_append_drop]
  · rintro rfl
    exact Prod.ext (number.mpr (List.take_left' (by simp))) (List.drop_left' (by simp))

theorem host_port_iff {port : BitVec 16} :
    count + 2 ≤ buf.length ∧ buf.take count = host ∧ getU16 (buf.drop count) = (port, rest) ↔
      host.length = count ∧ buf = host ++ toBeBytes 2 port ++ rest := by
  constructor
  · rintro ⟨enough, rfl, read⟩
    have behind : 2 ≤ (buf.drop count).length := by rw [List.length_drop]; omega
    refine ⟨List.length_take_of_le (by omega), ?_⟩
    rw [List.append_assoc, ← (getU16_eq_iff behind).mp read, List.take_append_drop]
  · rintro ⟨rfl, rfl⟩
    have tail : (host ++ toBeBytes 2 port ++ rest).drop host.length = toBeBytes 2 port ++ rest := by
      rw [List.append_assoc, List.drop_left' rfl]
    refine ⟨by simp, ?_, ?_⟩
    · rw [List.append_assoc, List.take_left' rfl]
    · rw [tail]
      exact (getU16_eq_iff (by simp)).mpr rfl

theorem readExact_eq_ok_iff :
    readExact reader count = .ok (bytes, rest) ↔ bytes.length = count ∧ reader = bytes ++ rest := by
  unfold readExact
  split
  · rename_i short
    apply iff_of_false (fun impossible => by cases impossible)
    rintro ⟨rfl, rfl⟩
    simp at short
  · rename_i enough
    rw [Except.ok.injEq]
    exact copyToSlice_eq_iff (Nat.le_of_not_lt enough)

theorem tryFrom_eq_ok_iff {kind : Byte} {type : AddressType} :
    AddressType.tryFrom kind = .ok type ↔ kind = type.toByte := by
  unfold AddressType.tryFrom
  constructor
  · intro accepted
    split_ifs at accepted <;> cases accepted <;> assumption
  · rintro rfl
    cases type <;> rfl

theorem length_eq_toNat_iff {len : Byte} :
    count = len.toNat ↔ count ≤ 255 ∧ len = BitVec.ofNat 8 count := by
  constructor
  · rintro rfl
    exact ⟨Nat.le_of_lt_succ len.isLt, by simp⟩
  · rintro ⟨fits, rfl⟩
    rw [BitVec.toNat_ofNat, Nat.mod_eq_of_lt (Nat.lt_succ_of_le fits)]

theorem literal_eq_ok_iff {w count : Nat} {error : ProtocolError} {make : BitVec w → BitVec 16 → α}
    (wide : 256 ^ count = 2 ^ w) :
    ((if buf.length < count + 2 then .error error else
        .ok (make (ofOctets (buf.take count)) (getU16 (buf.drop count)).1,
          (getU16 (buf.drop count)).2)) : Except ProtocolError (α × List Byte)) =
        .ok (result, rest) ↔
      ∃ ip port, result = make ip port ∧ buf = toBeBytes count ip ++ toBeBytes 2 port ++ rest := by
  constructor
  · intro decoded
    split at decoded
    · cases decoded
    · rename_i enough
      have enough := Nat.le_of_not_lt enough
      rcases Prod.mk.inj (Except.ok.inj decoded) with ⟨rfl, rfl⟩
      obtain ⟨length_eq, split⟩ := host_port_iff.mp
        ⟨enough, rfl, (Prod.eta (getU16 (buf.drop count))).symm⟩
      refine ⟨_, _, rfl, ?_⟩
      have octets := (ofOctets_eq_iff (by rw [length_eq, wide])).mp
        (rfl : ofOctets (buf.take count) = (_ : BitVec w))
      rw [length_eq] at octets
      rwa [← octets]
  · rintro ⟨ip, port, rfl, split⟩
    rcases host_port_iff.mpr ⟨length_toBeBytes count ip, split⟩ with ⟨enough, taken, read⟩
    have octets : ofOctets (toBeBytes count ip) = ip := ofNat_ofBeBytes ip wide.ge
    rw [if_neg (Nat.not_lt.mpr enough), taken, read, octets]

theorem named_eq_ok_iff {len : Byte} {make : String → BitVec 16 → α} :
    ((if buf.length < len.toNat + 2 then .error .bufferTooSmall else
        match fromUtf8 (buf.take len.toNat) with
        | none => .error (.addressParse "Invalid UTF-8 domain")
        | some name => .ok (make name (getU16 (buf.drop len.toNat)).1,
            (getU16 (buf.drop len.toNat)).2)) : Except ProtocolError (α × List Byte)) =
        .ok (result, rest) ↔
      ∃ name port, result = make name port ∧ (asBytes name).length = len.toNat ∧
        buf = asBytes name ++ toBeBytes 2 port ++ rest := by
  constructor
  · intro decoded
    split at decoded
    · cases decoded
    · rename_i enough
      split at decoded
      · cases decoded
      · rename_i name accepted
        rcases Prod.mk.inj (Except.ok.inj decoded) with ⟨rfl, rfl⟩
        have spelled := fromUtf8_eq_some_iff.mp accepted
        exact ⟨name, _, rfl, host_port_iff.mp ⟨Nat.le_of_not_lt enough, spelled.symm,
          (Prod.eta (getU16 (buf.drop len.toNat))).symm⟩⟩
  · rintro ⟨name, port, rfl, length_eq, split⟩
    rcases host_port_iff.mpr ⟨length_eq, split⟩ with ⟨enough, taken, read⟩
    rw [if_neg (Nat.not_lt.mpr enough), taken, fromUtf8_eq_some_iff.mpr rfl, read]

theorem parseBuf_eq_ok_iff {view : AddressRef} :
    AddressRef.parseBuf buf = .ok (view, rest) ↔
      view.toOwned.Encodable ∧ buf = view.toOwned.wire ++ rest := by
  cases buf with
  | nil =>
      apply iff_of_false (fun impossible => by cases impossible)
      rintro ⟨_, impossible⟩
      cases view <;> cases impossible
  | cons kind buf =>
      simp only [AddressRef.parseBuf, bind_eq_ok_iff, tryFrom_eq_ok_iff]
      constructor
      · rintro ⟨type, rfl, decoded⟩
        cases type with
        | ipv4 =>
            rcases (literal_eq_ok_iff (by decide)).mp decoded with ⟨ip, port, rfl, rfl⟩
            exact ⟨trivial, rfl⟩
        | ipv6 =>
            rcases (literal_eq_ok_iff (by decide)).mp decoded with ⟨ip, port, rfl, rfl⟩
            exact ⟨trivial, rfl⟩
        | domain =>
            cases buf with
            | nil => cases decoded
            | cons len buf =>
                rcases named_eq_ok_iff.mp decoded with ⟨name, port, rfl, length_eq, rfl⟩
                rcases length_eq_toNat_iff.mp length_eq with ⟨fits, rfl⟩
                exact ⟨fits, rfl⟩
      · rintro ⟨fits, spelled⟩
        cases view with
        | ipv4 ip port =>
            rcases List.cons.inj spelled with ⟨rfl, rfl⟩
            exact ⟨.ipv4, rfl, (literal_eq_ok_iff (by decide)).mpr ⟨ip, port, rfl, rfl⟩⟩
        | ipv6 ip port =>
            rcases List.cons.inj spelled with ⟨rfl, rfl⟩
            exact ⟨.ipv6, rfl, (literal_eq_ok_iff (by decide)).mpr ⟨ip, port, rfl, rfl⟩⟩
        | domain name port =>
            rcases List.cons.inj spelled with ⟨rfl, rfl⟩
            refine ⟨.domain, rfl, named_eq_ok_iff.mpr ⟨name, port, rfl, ?_, rfl⟩⟩
            exact length_eq_toNat_iff.mpr ⟨fits, rfl⟩

theorem parseFromBuf_eq (buf : List Byte) :
    parseFromBuf buf =
      (AddressRef.parseBuf buf).map fun parsed => (parsed.1.toOwned, parsed.2) := by
  cases buf with
  | nil => rfl
  | cons kind buf =>
      simp only [parseFromBuf, AddressRef.parseBuf]
      cases AddressType.tryFrom kind with
      | error error => rfl
      | ok type =>
          cases type with
          | ipv4 =>
              dsimp only [bind, Except.bind]
              split <;> rfl
          | ipv6 =>
              dsimp only [bind, Except.bind]
              split <;> rfl
          | domain =>
              cases buf with
              | nil => rfl
              | cons len buf =>
                  dsimp only [bind, Except.bind, copyToSlice]
                  split
                  · rfl
                  · cases fromUtf8 (buf.take len.toNat) <;> rfl

theorem parseFromBuf_eq_ok_iff :
    parseFromBuf buf = .ok (address, rest) ↔ address.Encodable ∧ buf = address.wire ++ rest := by
  rw [parseFromBuf_eq]
  constructor
  · intro decoded
    cases parsed : AddressRef.parseBuf buf with
    | error error =>
        rw [parsed] at decoded
        cases decoded
    | ok view =>
        rw [parsed] at decoded
        rcases Prod.mk.inj (Except.ok.inj decoded) with ⟨rfl, rfl⟩
        exact parseBuf_eq_ok_iff.mp parsed
  · intro spelled
    obtain ⟨view, rfl⟩ : ∃ view : AddressRef, view.toOwned = address := by
      cases address with
      | domain name port => exact ⟨.domain name port, rfl⟩
      | ipv4 ip port => exact ⟨.ipv4 ip port, rfl⟩
      | ipv6 ip port => exact ⟨.ipv6 ip port, rfl⟩
    rw [parseBuf_eq_ok_iff.mpr spelled]
    rfl

theorem readFrom_eq_ok_iff :
    readFrom buf = .ok (address, count) ↔
      ∃ rest, parseFromBuf buf = .ok (address, rest) ∧ count = address.wire.length := by
  have measure : ∀ {view rest}, AddressRef.parseBuf buf = .ok (view, rest) →
      buf.length - rest.length = view.toOwned.wire.length := by
    intro view rest parsed
    rw [(parseBuf_eq_ok_iff.mp parsed).2, List.length_append, Nat.add_sub_cancel]
  rw [parseFromBuf_eq]
  unfold readFrom AddressRef.parse
  cases parsed : AddressRef.parseBuf buf with
  | error error => simp [bind, Except.bind, Except.map]
  | ok result =>
      rcases result with ⟨view, rest⟩
      simp only [bind, Except.bind, Except.map, pure, Except.pure, Except.ok.injEq, Prod.mk.injEq,
        measure parsed]
      constructor
      · rintro ⟨rfl, rfl⟩
        exact ⟨rest, ⟨rfl, rfl⟩, rfl⟩
      · rintro ⟨_, ⟨rfl, rfl⟩, rfl⟩
        exact ⟨rfl, rfl⟩

theorem readExact_one_iff :
    readExact reader 1 = .ok (bytes, rest) ↔ ∃ byte, bytes = [byte] ∧ reader = byte :: rest := by
  rw [readExact_eq_ok_iff, List.length_eq_one_iff]
  constructor
  · rintro ⟨⟨byte, rfl⟩, rfl⟩
    exact ⟨byte, rfl, rfl⟩
  · rintro ⟨byte, rfl, rfl⟩
    exact ⟨⟨byte, rfl⟩, rfl⟩

theorem readNumber_iff {w count : Nat} {value : BitVec w} (wide : 256 ^ count = 2 ^ w) :
    (∃ bytes, readExact reader count = .ok (bytes, rest) ∧ ofOctets bytes = value) ↔
      reader = toBeBytes count value ++ rest := by
  constructor
  · rintro ⟨bytes, read, number⟩
    rcases readExact_eq_ok_iff.mp read with ⟨rfl, rfl⟩
    rw [← (ofOctets_eq_iff wide).mp number]
  · rintro rfl
    exact ⟨_, readExact_eq_ok_iff.mpr ⟨length_toBeBytes count value, rfl⟩,
      ofNat_ofBeBytes value wide.ge⟩

theorem readPort_eq_ok_iff {make : BitVec 16 → α} :
    ((do
        let (port, reader) ← readExact reader 2
        return (make (ofOctets port), reader)) : Except ProtocolError (α × List Byte)) =
        .ok (result, rest) ↔
      ∃ port, result = make port ∧ reader = toBeBytes 2 port ++ rest := by
  have wide : 256 ^ 2 = 2 ^ 16 := rfl
  simp only [bind_eq_ok_iff, Prod.exists]
  constructor
  · rintro ⟨bytes, _, read, ⟨⟩⟩
    exact ⟨ofOctets bytes, rfl, (readNumber_iff wide).mp ⟨bytes, read, rfl⟩⟩
  · rintro ⟨port, rfl, spelled⟩
    rcases (readNumber_iff wide).mpr spelled with ⟨bytes, read, rfl⟩
    exact ⟨bytes, rest, read, rfl⟩

theorem readLiteral_eq_ok_iff {w count : Nat} {make : BitVec w → BitVec 16 → α}
    (wide : 256 ^ count = 2 ^ w) :
    ((do
        let (ip, reader) ← readExact reader count
        let (port, reader) ← readExact reader 2
        return (make (ofOctets ip) (ofOctets port), reader)) :
          Except ProtocolError (α × List Byte)) = .ok (result, rest) ↔
      ∃ ip port, result = make ip port ∧
        reader = toBeBytes count ip ++ (toBeBytes 2 port ++ rest) := by
  rw [bind_eq_ok_iff]
  constructor
  · rintro ⟨⟨bytes, middle⟩, read, decoded⟩
    rcases readPort_eq_ok_iff.mp decoded with ⟨port, rfl, rfl⟩
    exact ⟨ofOctets bytes, port, rfl, (readNumber_iff wide).mp ⟨bytes, read, rfl⟩⟩
  · rintro ⟨ip, port, rfl, spelled⟩
    rcases (readNumber_iff wide).mpr spelled with ⟨bytes, read, rfl⟩
    exact ⟨(bytes, _), read, readPort_eq_ok_iff.mpr ⟨port, rfl, rfl⟩⟩

theorem readFromReader_eq_ok_iff :
    readFromReader reader = .ok (address, rest) ↔
      address.Encodable ∧ reader = address.wire ++ rest := by
  unfold readFromReader
  rw [bind_eq_ok_iff]
  constructor
  · rintro ⟨⟨one, tail⟩, first, whole⟩
    rcases readExact_one_iff.mp first with ⟨kind, rfl, rfl⟩
    rcases bind_eq_ok_iff.mp whole with ⟨type, accepted, decoded⟩
    clear whole
    obtain rfl : kind = type.toByte := tryFrom_eq_ok_iff.mp accepted
    cases type with
    | ipv4 =>
        rcases (readLiteral_eq_ok_iff (by decide)).mp decoded with ⟨ip, port, rfl, rfl⟩
        exact ⟨trivial, by simp [wire]⟩
    | ipv6 =>
        rcases (readLiteral_eq_ok_iff (by decide)).mp decoded with ⟨ip, port, rfl, rfl⟩
        exact ⟨trivial, by simp [wire]⟩
    | domain =>
        rcases bind_eq_ok_iff.mp decoded with ⟨⟨one, tail⟩, second, named⟩
        rcases readExact_one_iff.mp second with ⟨len, rfl, rfl⟩
        rcases bind_eq_ok_iff.mp named with ⟨⟨bytes, tail⟩, read, ported⟩
        rcases readExact_eq_ok_iff.mp read with ⟨length_eq, rfl⟩
        dsimp only at ported
        split at ported
        · cases ported
        · rename_i name valid
          obtain rfl := fromUtf8_eq_some_iff.mp valid
          rcases readPort_eq_ok_iff.mp ported with ⟨port, rfl, rfl⟩
          rcases length_eq_toNat_iff.mp length_eq with ⟨fits, len_eq⟩
          refine ⟨fits, ?_⟩
          simp only [wire, List.cons_append, List.append_assoc, ← len_eq]
          rfl
  · rintro ⟨fits, rfl⟩
    cases address with
    | ipv4 ip port =>
        refine ⟨(_, _), readExact_one_iff.mpr ⟨_, rfl, rfl⟩, bind_eq_ok_iff.mpr ⟨.ipv4, rfl, ?_⟩⟩
        exact (readLiteral_eq_ok_iff (by decide)).mpr ⟨ip, port, rfl, List.append_assoc ..⟩
    | ipv6 ip port =>
        refine ⟨(_, _), readExact_one_iff.mpr ⟨_, rfl, rfl⟩, bind_eq_ok_iff.mpr ⟨.ipv6, rfl, ?_⟩⟩
        exact (readLiteral_eq_ok_iff (by decide)).mpr ⟨ip, port, rfl, List.append_assoc ..⟩
    | domain name port =>
        refine ⟨(_, _), readExact_one_iff.mpr ⟨_, rfl, rfl⟩, bind_eq_ok_iff.mpr ⟨.domain, rfl, ?_⟩⟩
        refine bind_eq_ok_iff.mpr ⟨(_, _), readExact_one_iff.mpr ⟨_, rfl, rfl⟩, ?_⟩
        refine bind_eq_ok_iff.mpr ⟨(asBytes name, toBeBytes 2 port ++ rest), ?_, ?_⟩
        · exact readExact_eq_ok_iff.mpr
            ⟨length_eq_toNat_iff.mpr ⟨fits, rfl⟩, List.append_assoc ..⟩
        · dsimp only
          rw [fromUtf8_eq_some_iff.mpr rfl]
          exact readPort_eq_ok_iff.mpr ⟨port, rfl, rfl⟩

theorem fromBytes_eq_ok_iff :
    fromBytes buf = .ok address ↔ ∃ rest, parseFromBuf buf = .ok (address, rest) := by
  unfold fromBytes
  rw [bind_eq_ok_iff]
  constructor
  · rintro ⟨⟨_, rest⟩, parsed, ⟨⟩⟩
    exact ⟨rest, parsed⟩
  · rintro ⟨rest, parsed⟩
    exact ⟨(address, rest), parsed, rfl⟩

/-- The encoders produce the same bytes, or fail for a long domain before they
write.  The decoders accept the same byte strings with the same address; they
undo the encoders whatever follows, and what they read is what the encoders
write. -/
theorem codec (address : Address) (buf bytes rest : List Byte) (count : Nat) :
    (if address.Encodable then
        ∃ encoded, address.toBytes = .ok encoded ∧ encoded.length = address.serializedLen ∧
          address.writeTo buf = (.ok (), buf ++ encoded) ∧
          address.writeToVec buf = (.ok (), buf ++ encoded) ∧
          readFrom (encoded ++ rest) = .ok (address, encoded.length) ∧
          parseFromBuf (encoded ++ rest) = .ok (address, rest) ∧
          fromBytes (encoded ++ rest) = .ok address ∧
          readFromReader (encoded ++ rest) = .ok (address, rest)
      else
        ∃ error, address.toBytes = .error error ∧ address.writeTo buf = (.error error, buf) ∧
          address.writeToVec buf = (.error error, buf)) ∧
    (readFrom bytes = .ok (address, count) ↔
      count ≤ bytes.length ∧ address.toBytes = .ok (bytes.take count)) ∧
    (fromBytes bytes = .ok address ↔ ∃ count, readFrom bytes = .ok (address, count)) ∧
    (readFromReader bytes = .ok (address, rest) ↔ parseFromBuf bytes = .ok (address, rest)) := by
  refine ⟨?_, ?_, ?_, ?_⟩
  · split
    · rename_i encodable
      have parsed := (@parseFromBuf_eq_ok_iff address (address.wire ++ rest) rest).mpr
        ⟨encodable, rfl⟩
      refine ⟨address.wire, toBytes_eq_ok_iff.mpr ⟨encodable, rfl⟩, length_wire address,
        writeTo_of_encodable encodable buf, ?_, readFrom_eq_ok_iff.mpr ⟨rest, parsed, rfl⟩, parsed,
        fromBytes_eq_ok_iff.mpr ⟨rest, parsed⟩, readFromReader_eq_ok_iff.mpr ⟨encodable, rfl⟩⟩
      rw [writeToVec_eq]
      exact writeTo_of_encodable encodable buf
    · rename_i tooBig
      rcases writeTo_of_not_encodable tooBig with ⟨error, failed⟩
      refine ⟨error, ?_, failed buf, ?_⟩
      · rw [toBytes, failed]
        rfl
      · rw [writeToVec_eq]
        exact failed buf
  · rw [readFrom_eq_ok_iff]
    simp only [parseFromBuf_eq_ok_iff, toBytes_eq_ok_iff]
    constructor
    · rintro ⟨rest, ⟨encodable, rfl⟩, rfl⟩
      exact ⟨by simp, encodable, List.take_left' rfl⟩
    · rintro ⟨inside, encodable, spelled⟩
      refine ⟨bytes.drop count, ⟨encodable, ?_⟩, ?_⟩
      · rw [← spelled, List.take_append_drop]
      · rw [← spelled, List.length_take_of_le inside]
  · simp only [fromBytes_eq_ok_iff, readFrom_eq_ok_iff]
    constructor
    · rintro ⟨rest, parsed⟩
      exact ⟨_, rest, parsed, rfl⟩
    · rintro ⟨_, rest, parsed, _⟩
      exact ⟨rest, parsed⟩
  · rw [readFromReader_eq_ok_iff, parseFromBuf_eq_ok_iff]

end Address

end Corduit.Protocol
