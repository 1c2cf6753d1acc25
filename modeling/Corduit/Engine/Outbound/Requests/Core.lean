import Corduit.Engine.Outbound.Hysteria2.Udp
import Corduit.Engine.Outbound.Snell.Core
import Corduit.Engine.Outbound.Tuic.Udp
import Corduit.Engine.Outbound.Vmess.Core

/-!
# Request headers

How five outbounds tell their server the target of a connection.  Four of them
write a type byte and the host, each with type bytes of its own, and all of them
put the length of a domain into one byte: three refuse a domain that is too long
for it, one casts the length and one cuts the domain.

The header of VMess is the text that it then encrypts.
-/

namespace Corduit.Engine.Outbound

open Engine Netstack Text Word

/-- The host of a target. -/
inductive Host where
  | domain (name : String)
  | ip (addr : IpAddr)
deriving DecidableEq, Repr

namespace TargetAddr

/-- The variant of a target without its port. -/
def named : TargetAddr → Host
  | .domain name _ => .domain name
  | .ip addr => .ip addr.ip

/-- The port of a target. -/
def port : TargetAddr → BitVec 16
  | .domain _ port => port
  | .ip addr => addr.port

/-- The host of a target. -/
def host (text : Hysteria2.IpText) : TargetAddr → String
  | .domain name _ => name
  | .ip ⟨.v4 addr, _⟩ => text.ipv4Text addr
  | .ip ⟨.v6 addr, _⟩ => text.ipv6Text addr

end TargetAddr

/-- The type bytes of a protocol. -/
structure AddressTypes where
  ipv4 : Byte
  domain : Byte
  ipv6 : Byte
  distinct : [ipv4, domain, ipv6].Nodup

/-- A type byte and the host; the length of a domain is cast to a byte. -/
def AddressTypes.write (types : AddressTypes) : Host → List Byte
  | .domain name =>
      types.domain :: BitVec.ofNat 8 (asBytes name).length :: asBytes name
  | .ip (.v4 addr) => types.ipv4 :: toBeBytes 4 addr
  | .ip (.v6 addr) => types.ipv6 :: toBeBytes 16 addr

/-- The same, with an error for a domain of more than 255 bytes. -/
def AddressTypes.writeChecked (types : AddressTypes) : Host → Except Error (List Byte)
  | .domain name =>
      if (asBytes name).length > 255 then .error (.protocol "Domain name too long")
      else .ok (types.write (.domain name))
  | .ip addr => .ok (types.write (.ip addr))

namespace Vmess

/-- The version of VMess. -/
def VMESS_VERSION : Byte :=
  1

/-- A VMess command. -/
inductive VmessCommand where
  | tcp
  | udp
deriving DecidableEq, Repr

/-- The byte of a command. -/
def VmessCommand.toByte : VmessCommand → Byte
  | .tcp => 0x01
  | .udp => 0x02

/-- `VmessAddressType`. -/
def addressTypes : AddressTypes :=
  ⟨0x01, 0x02, 0x03, by decide⟩

/-- `VmessOption::CHUNK_STREAM`. -/
def CHUNK_STREAM : Byte :=
  0x01

/-- The byte of a cipher. -/
def VmessCipher.asByte : VmessCipher → Byte
  | .aes128Gcm | .auto => 0x03
  | .chacha20Poly1305 => 0x04
  | .none => 0x05
  | .zero => 0x06

/-- `VmessHeader`, with the type byte in front of the address. -/
structure VmessHeader where
  version : Byte
  requestBodyIv : Octets 16
  requestBodyKey : Octets 16
  responseHeader : Byte
  option : Byte
  paddingLength : Byte
  security : VmessCipher
  command : VmessCommand
  port : BitVec 16
  address : List Byte

/-- The FNV-1a hash. -/
def fnv1aHash (data : List Byte) : BitVec 32 :=
  data.foldl (fun hash byte => (hash ^^^ byte.setWidth 32) * 0x01000193) 0x811c9dc5

/-- `build_header_plaintext`, with the source of the padding. -/
def buildHeaderPlaintext (header : VmessHeader) (random : Nat → Byte) : List Byte :=
  let headerBuf := [header.version] ++ header.requestBodyIv.bytes ++
    header.requestBodyKey.bytes ++ [header.responseHeader, header.option,
      header.paddingLength <<< 4 ||| header.security.asByte, 0x00, header.command.toByte] ++
    toBeBytes 2 header.port ++ header.address ++
    (List.range header.paddingLength.toNat).map random
  headerBuf ++ toBeBytes 4 (fnv1aHash headerBuf)

/-- What `handshake` draws. -/
structure Draws where
  requestKey : Octets 16
  requestIv : Octets 16
  responseHeaderByte : Byte
  padding : Byte
  paddingBytes : Nat → Byte

/-- The header that `handshake` builds. -/
def requestHeader (cipher : VmessCipher) (cmd : VmessCommand) (draws : Draws)
    (target : TargetAddr) : List Byte :=
  buildHeaderPlaintext {
    version := VMESS_VERSION
    requestBodyIv := draws.requestIv
    requestBodyKey := draws.requestKey
    responseHeader := draws.responseHeaderByte
    option := CHUNK_STREAM
    paddingLength := draws.padding % 16
    security := cipher
    command := cmd
    port := target.port
    address := addressTypes.write target.named } draws.paddingBytes

end Vmess

namespace Vless

/-- The version of VLESS. -/
def VLESS_VERSION : Byte :=
  0x00

/-- A VLESS command. -/
inductive VlessCommand where
  | tcp
  | udp
deriving DecidableEq, Repr

/-- The byte of a command. -/
def VlessCommand.toByte : VlessCommand → Byte
  | .tcp => 0x01
  | .udp => 0x02

/-- The flow of a user. -/
inductive VlessFlow where
  | none
  | xtlsRprxVision
  | xtlsRprxVisionUdp443
deriving DecidableEq, Repr

/-- The name of a flow. -/
def VlessFlow.asStr : VlessFlow → String
  | .none => ""
  | .xtlsRprxVision => "xtls-rprx-vision"
  | .xtlsRprxVisionUdp443 => "xtls-rprx-vision-udp443"

/-- Whether the flow is Vision. -/
def VlessFlow.isVision : VlessFlow → Bool
  | .none => false
  | _ => true

/-- `VlessAddressType`. -/
def addressTypes : AddressTypes :=
  ⟨0x01, 0x02, 0x03, by decide⟩

/-- `write_address_to_buf`. -/
def writeAddressToBuf (target : TargetAddr) : Except Error (List Byte) :=
  addressTypes.writeChecked target.named

/-- The addon with the flow. -/
def buildFlowAddon (flow : String) : List Byte :=
  if flow.isEmpty then []
  else [0x0a, BitVec.ofNat 8 (asBytes flow).length] ++ asBytes flow

/-- The addon of a flow behind its length. -/
def addonBytes (flow : VlessFlow) : List Byte :=
  if flow.isVision then
    BitVec.ofNat 8 (buildFlowAddon flow.asStr).length :: buildFlowAddon flow.asStr
  else [0x00]

/-- What `handshake` sends first. -/
def request (uuid : Octets 16) (flow : VlessFlow) (cmd : VlessCommand) (target : TargetAddr) :
    Except Error (List Byte) :=
  (writeAddressToBuf target).map fun address =>
    [VLESS_VERSION] ++ uuid.bytes ++ addonBytes flow ++ [cmd.toByte] ++ toBeBytes 2 target.port ++
      address

end Vless

namespace Trojan

/-- The end of a line. -/
def CRLF : List Byte :=
  [0x0d, 0x0a]

/-- A Trojan command. -/
inductive TrojanCommand where
  | connect
  | udpAssociate
deriving DecidableEq, Repr

/-- The byte of a command. -/
def TrojanCommand.toByte : TrojanCommand → Byte
  | .connect => 0x01
  | .udpAssociate => 0x03

/-- The type bytes of `write_address_to_buf`. -/
def addressTypes : AddressTypes :=
  ⟨0x01, 0x03, 0x04, by decide⟩

/-- `write_address_to_buf`. -/
def writeAddressToBuf (target : TargetAddr) : Except Error (List Byte) :=
  (addressTypes.writeChecked target.named).map (· ++ toBeBytes 2 target.port)

/-- What `handshake` sends. -/
def request (passwordHash : Octets 56) (cmd : TrojanCommand) (target : TargetAddr) :
    Except Error (List Byte) :=
  (writeAddressToBuf target).map fun address =>
    passwordHash.bytes ++ CRLF ++ [cmd.toByte] ++ address ++ CRLF

end Trojan

namespace Tuic

/-- The command of a connection. -/
def TUIC_CMD_CONNECT : Byte :=
  0x01

/-- The type bytes of `encode_address`. -/
def addressTypes : AddressTypes :=
  ⟨TUIC_ADDR_TYPE_IPV4, TUIC_ADDR_TYPE_DOMAIN, TUIC_ADDR_TYPE_IPV6, by decide⟩

/-- What a new TCP stream sends. -/
def connectRequest (target : TargetAddr) : Except Error (List Byte) :=
  (encodeAddressBytes target).map fun address => [TUIC_VERSION, TUIC_CMD_CONNECT] ++ address

theorem encodeAddressBytes_eq (target : TargetAddr) :
    encodeAddressBytes target =
      (addressTypes.writeChecked target.named).map (· ++ toBeBytes 2 target.port) := by
  rcases target with ⟨name, port⟩ | ⟨addr | addr, port⟩
  · rw [encodeAddressBytes, TargetAddr.named, AddressTypes.writeChecked]
    by_cases long : (asBytes name).length > 255
    · rw [if_pos long, if_pos long]
      rfl
    · rw [if_neg long, if_neg long]
      rfl
  · rfl
  · rfl

end Tuic

namespace Snell

/-- The version of a request. -/
def REQUEST_VERSION : Byte :=
  0x01

/-- The command of a connection, with an id. -/
def COMMAND_CONNECT_V2 : Byte :=
  0x05

/-- `encode_request`: a host of more than 255 bytes is cut. -/
def encodeRequest (text : Hysteria2.IpText) (command : Byte) (clientId : List Byte)
    (target : TargetAddr) : List Byte :=
  let host := asBytes (target.host text)
  let hostLen := if host.length < 256 then host.length else 255
  let clientId := clientId.take (min clientId.length 255)
  [REQUEST_VERSION, command, BitVec.ofNat 8 clientId.length] ++ clientId ++
    [BitVec.ofNat 8 hostLen] ++ host.take hostLen ++ toBeBytes 2 target.port

end Snell

/-!
# What a request header names

The header of a request, read by the layout of its protocol, names the target it
was built for, as long as the length of the host fits in its byte.  Where it does
not, the header names another host or there is none, by whether the outbound
checks the length.
-/

open Protocol

/-- The host at the front of some bytes and what follows it. -/
def AddressTypes.read (types : AddressTypes) : List Byte → Option (Host × List Byte)
  | [] => none
  | kind :: rest =>
      if kind = types.ipv4 then
        (takeExact 4 rest).map fun (octets, rest) => (.ip (.v4 (ofOctets octets)), rest)
      else if kind = types.domain then
        (takePrefixed 1 rest).bind fun (name, rest) =>
          (fromUtf8 name).map fun name => (.domain name, rest)
      else if kind = types.ipv6 then
        (takeExact 16 rest).map fun (octets, rest) => (.ip (.v6 (ofOctets octets)), rest)
      else none

/-- A port at the front of some bytes and what follows it. -/
def takePort (bytes : List Byte) : Option (BitVec 16 × List Byte) :=
  (takeExact 2 bytes).map fun (octets, rest) => (ofOctets octets, rest)

/-- A host with a port. -/
def Host.withPort (host : Host) (port : BitVec 16) : TargetAddr :=
  match host with
  | .domain name => .domain name port
  | .ip addr => .ip ⟨addr, port⟩

/-- A domain has room for its length in a byte. -/
def Host.Short : Host → Prop
  | .domain name => (asBytes name).length ≤ 255
  | .ip _ => True

instance : DecidablePred Host.Short
  | .domain name => inferInstanceAs (Decidable ((asBytes name).length ≤ 255))
  | .ip _ => isTrue trivial

theorem TargetAddr.withPort_named (target : TargetAddr) :
    target.named.withPort target.port = target := by
  cases target <;> rfl

theorem ofOctets_toBeBytes {w count : Nat} (value : BitVec w) (wide : 2 ^ w ≤ 256 ^ count) :
    ofOctets (toBeBytes count value) = value :=
  ofNat_ofBeBytes value wide

theorem takePort_append (port : BitVec 16) (rest : List Byte) :
    takePort (toBeBytes 2 port ++ rest) = some (port, rest) := by
  rw [takePort, takeExact_append (length_toBeBytes 2 port), Option.map_some]
  dsimp only
  rw [ofOctets_toBeBytes port (by decide)]

namespace AddressTypes

variable (types : AddressTypes)

theorem ne : types.domain ≠ types.ipv4 ∧ types.ipv6 ≠ types.ipv4 ∧ types.ipv6 ≠ types.domain := by
  have distinct := types.distinct
  simp only [List.nodup_cons, List.mem_cons, List.not_mem_nil, or_false, not_or] at distinct
  exact ⟨Ne.symm distinct.1.1, Ne.symm distinct.1.2, Ne.symm distinct.2.1⟩

theorem read_domain (rest : List Byte) :
    types.read (types.domain :: rest) = (takePrefixed 1 rest).bind fun (name, rest) =>
      (fromUtf8 name).map fun name => (Host.domain name, rest) := by
  rw [read, if_neg types.ne.1, if_pos rfl]

variable {host : Host}

/-- A short host is read back, with whatever follows it. -/
theorem read_write_append (short : host.Short) (rest : List Byte) :
    types.read (types.write host ++ rest) = some (host, rest) := by
  rcases host with name | addr | addr
  · have one : ofBeBytes [BitVec.ofNat 8 (asBytes name).length] = (asBytes name).length :=
      @ofBeBytes_length 1 8 _ (Nat.lt_succ_of_le short) (Nat.lt_succ_of_le short)
    have taken := @takePrefixed_append 1 [BitVec.ofNat 8 (asBytes name).length] (asBytes name) rfl
      one rest
    rw [write, List.cons_append, List.cons_append, read_domain]
    rw [List.singleton_append] at taken
    rw [taken, Option.bind_some]
    dsimp only
    rw [fromUtf8_eq_some_iff.mpr rfl]
    rfl
  · rw [write, List.cons_append, read, if_pos rfl, takeExact_append (length_toBeBytes 4 addr),
      Option.map_some]
    dsimp only
    rw [ofOctets_toBeBytes addr (by decide)]
  · rw [write, List.cons_append, read, if_neg types.ne.2.1, if_neg types.ne.2.2, if_pos rfl,
      takeExact_append (length_toBeBytes 16 addr), Option.map_some]
    dsimp only
    rw [ofOctets_toBeBytes addr (by decide)]

theorem short_of_read {bytes left : List Byte} (found : types.read bytes = some (host, left)) :
    host.Short := by
  cases host with
  | ip addr => trivial
  | domain name =>
      cases bytes with
      | nil => cases found
      | cons kind rest =>
          rw [read] at found
          split at found
          · rcases Option.map_eq_some_iff.mp found with ⟨_, _, same⟩
            cases same
          · split at found
            · rcases Option.bind_eq_some_iff.mp found with ⟨⟨bytes, left'⟩, taken, decoded⟩
              rcases Option.map_eq_some_iff.mp decoded with ⟨name', spelled, same⟩
              cases same
              rw [Host.Short, fromUtf8_eq_some_iff.mp spelled]
              exact Nat.le_of_lt_succ (length_of_takePrefixed taken)
            · split at found
              · rcases Option.map_eq_some_iff.mp found with ⟨_, _, same⟩
                cases same
              · cases found

theorem writeChecked_eq_ok_iff {bytes : List Byte} :
    types.writeChecked host = .ok bytes ↔ host.Short ∧ bytes = types.write host := by
  rcases host with name | addr
  · rw [writeChecked]
    by_cases long : (asBytes name).length > 255
    · rw [if_pos long]
      refine iff_of_false (fun same => ?_) fun both => absurd both.1 (Nat.not_le_of_lt long)
      cases same
    · rw [if_neg long]
      constructor
      · rintro ⟨⟩
        exact ⟨Nat.le_of_not_lt long, rfl⟩
      · rintro ⟨_, rfl⟩
        rfl
  · constructor
    · rintro ⟨⟩
      exact ⟨trivial, rfl⟩
    · rintro ⟨_, rfl⟩
      rfl

end AddressTypes

/-- The five outbounds, with what their headers hold besides the target. -/
inductive Naming where
  | vmess (cipher : Vmess.VmessCipher) (cmd : Vmess.VmessCommand) (draws : Vmess.Draws)
  | vless (uuid : Octets 16) (flow : Vless.VlessFlow) (cmd : Vless.VlessCommand)
  | trojan (passwordHash : Octets 56) (cmd : Trojan.TrojanCommand)
  | tuic
  | snell (clientId : List Byte)

namespace Naming

variable (text : Hysteria2.IpText)

/-- The request header. -/
def request : Naming → TargetAddr → Except Error (List Byte)
  | vmess cipher cmd draws, target => .ok (Vmess.requestHeader cipher cmd draws target)
  | vless uuid flow cmd, target => Vless.request uuid flow cmd target
  | trojan passwordHash cmd, target => Trojan.request passwordHash cmd target
  | tuic, target => Tuic.connectRequest target
  | snell clientId, target => .ok (Snell.encodeRequest text Snell.COMMAND_CONNECT_V2 clientId target)

/-- A port and then a host. -/
def readPortFirst (types : AddressTypes) (bytes : List Byte) : Option TargetAddr :=
  (takePort bytes).bind fun (port, rest) =>
    (types.read rest).map fun (host, _) => host.withPort port

/-- A host and then a port. -/
def readPortLast (types : AddressTypes) (bytes : List Byte) : Option TargetAddr :=
  (types.read bytes).bind fun (host, rest) =>
    (takePort rest).map fun (port, _) => host.withPort port

/-- A host as text behind its length, and then a port. -/
def readText (bytes : List Byte) : Option (String × BitVec 16) :=
  (takePrefixed 1 bytes).bind fun (host, rest) =>
    (fromUtf8 host).bind fun host => (takePort rest).map fun (port, _) => (host, port)

/-- The header, read by the layout of its protocol, names the target. -/
def Reads : Naming → List Byte → TargetAddr → Prop
  -- A version, the IV, the key and five bytes stand in front of the port.
  | vmess _ _ _, header, target =>
      (takeExact 38 header).bind (fun (_, rest) => readPortFirst Vmess.addressTypes rest) =
        some target
  -- A version and the UUID, the addon behind its length, and the command.
  | vless _ _ _, header, target =>
      ((takeExact 17 header).bind fun (_, rest) => (takePrefixed 1 rest).bind fun (_, rest) =>
        (takeExact 1 rest).bind fun (_, rest) => readPortFirst Vless.addressTypes rest) = some target
  -- The hash of the password, a line end and the command.
  | trojan _ _, header, target =>
      (takeExact 59 header).bind (fun (_, rest) => readPortLast Trojan.addressTypes rest) =
        some target
  -- A version and the command.
  | tuic, header, target =>
      (takeExact 2 header).bind (fun (_, rest) => readPortLast Tuic.addressTypes rest) = some target
  -- A version and the command, and the client id behind its length.
  | snell _, header, target =>
      ((takeExact 2 header).bind fun (_, rest) => (takePrefixed 1 rest).bind fun (_, rest) =>
        readText rest) = some (target.host text, target.port)

/-- The header that is built names the target, if one is built. -/
def Names (naming : Naming) (target : TargetAddr) : Prop :=
  ∀ header, naming.request text target = .ok header → naming.Reads text header target

/-- VMess is given a host that is short, and Snell a host whose text is. -/
def Fits : Naming → TargetAddr → Prop
  | vmess _ _ _, target => target.named.Short
  | snell _, target => (asBytes (target.host text)).length ≤ 255
  | _, _ => True

variable {text : Hysteria2.IpText} {types : AddressTypes} {target : TargetAddr}

theorem readPortFirst_append (short : target.named.Short) (rest : List Byte) :
    readPortFirst types (toBeBytes 2 target.port ++ (types.write target.named ++ rest)) =
      some target := by
  rw [readPortFirst, takePort_append, Option.bind_some]
  dsimp only
  rw [types.read_write_append short, Option.map_some]
  exact congrArg some target.withPort_named

theorem readPortLast_append (short : target.named.Short) (rest : List Byte) :
    readPortLast types (types.write target.named ++ (toBeBytes 2 target.port ++ rest)) =
      some target := by
  rw [readPortLast, types.read_write_append short, Option.bind_some]
  dsimp only
  rw [takePort_append, Option.map_some]
  exact congrArg some target.withPort_named

theorem short_of_readPortFirst {bytes : List Byte}
    (found : readPortFirst types bytes = some target) : target.named.Short := by
  rcases Option.bind_eq_some_iff.mp found with ⟨⟨port, rest⟩, _, found⟩
  rcases Option.map_eq_some_iff.mp found with ⟨⟨host, left⟩, read, same⟩
  have short := types.short_of_read read
  rw [← same]
  cases host <;> exact short

variable {name : String}

theorem readText_append (short : (asBytes name).length ≤ 255) (port : BitVec 16)
    (rest : List Byte) :
    readText ([BitVec.ofNat 8 (asBytes name).length] ++
      (asBytes name ++ (toBeBytes 2 port ++ rest))) = some (name, port) := by
  have one : ofBeBytes [BitVec.ofNat 8 (asBytes name).length] = (asBytes name).length :=
    @ofBeBytes_length 1 8 _ (Nat.lt_succ_of_le short) (Nat.lt_succ_of_le short)
  rw [readText, @takePrefixed_append 1 _ _ rfl one, Option.bind_some]
  dsimp only
  rw [fromUtf8_eq_some_iff.mpr rfl, Option.bind_some, takePort_append, Option.map_some]

theorem short_of_readText {bytes : List Byte} {port : BitVec 16}
    (found : readText bytes = some (name, port)) : (asBytes name).length ≤ 255 := by
  rcases Option.bind_eq_some_iff.mp found with ⟨⟨data, rest⟩, taken, found⟩
  rcases Option.bind_eq_some_iff.mp found with ⟨name', decoded, found⟩
  rcases Option.map_eq_some_iff.mp found with ⟨_, _, same⟩
  cases same
  rw [fromUtf8_eq_some_iff.mp decoded]
  exact Nat.le_of_lt_succ (length_of_takePrefixed taken)

theorem requestHeader_eq (cipher : Vmess.VmessCipher) (cmd : Vmess.VmessCommand)
    (draws : Vmess.Draws) (target : TargetAddr) :
    ∃ front rest, front.length = 38 ∧ Vmess.requestHeader cipher cmd draws target =
      front ++ (toBeBytes 2 target.port ++ (Vmess.addressTypes.write target.named ++ rest)) := by
  have long : ∀ five : List Byte, five.length = 5 → ([Vmess.VMESS_VERSION] ++
      (draws.requestIv.bytes ++ (draws.requestKey.bytes ++ five))).length = 38 := by
    intro five fives
    simp only [List.length_append, Octets.length_bytes, List.length_singleton, fives]
  refine ⟨_, ?rest, long [draws.responseHeaderByte, Vmess.CHUNK_STREAM,
    (draws.padding % 16) <<< 4 ||| cipher.asByte, 0x00, cmd.toByte] rfl, ?split⟩
  case split =>
    simp only [Vmess.requestHeader, Vmess.buildHeaderPlaintext, List.append_assoc]
    rfl

theorem takePrefixed_addonBytes (flow : Vless.VlessFlow) (rest : List Byte) :
    ∃ addon, takePrefixed 1 (Vless.addonBytes flow ++ rest) = some (addon, rest) := by
  cases flow with
  | none => exact ⟨[], @takePrefixed_append 1 [0x00] [] rfl rfl rest⟩
  | xtlsRprxVision =>
      refine ⟨Vless.buildFlowAddon "xtls-rprx-vision", ?_⟩
      refine @takePrefixed_append 1 [BitVec.ofNat 8 _] (Vless.buildFlowAddon "xtls-rprx-vision")
        rfl ?_ rest
      decide +kernel
  | xtlsRprxVisionUdp443 =>
      refine ⟨Vless.buildFlowAddon "xtls-rprx-vision-udp443", ?_⟩
      refine @takePrefixed_append 1 [BitVec.ofNat 8 _]
        (Vless.buildFlowAddon "xtls-rprx-vision-udp443") rfl ?_ rest
      decide +kernel

theorem ok_of_map {ε α β : Type} {result : Except ε α} {f : α → β} {mapped : β}
    (ok : result.map f = .ok mapped) : ∃ value, result = .ok value ∧ mapped = f value := by
  cases result with
  | error error => cases ok
  | ok value => exact ⟨value, rfl, (Except.ok.inj ok).symm⟩

theorem names_vmess_iff {cipher : Vmess.VmessCipher} {cmd : Vmess.VmessCommand}
    {draws : Vmess.Draws} :
    (vmess cipher cmd draws).Names text target ↔ target.named.Short := by
  rcases requestHeader_eq cipher cmd draws target with ⟨front, rest, long, header_eq⟩
  have reads : ∀ bytes, (takeExact 38 (front ++ bytes)).bind
      (fun (_, rest) => readPortFirst Vmess.addressTypes rest) =
      readPortFirst Vmess.addressTypes bytes := by
    intro bytes
    rw [takeExact_append long, Option.bind_some]
  constructor
  · intro names
    have found := names _ rfl
    rw [Reads, header_eq, reads] at found
    exact short_of_readPortFirst found
  · rintro short header ⟨⟩
    rw [Reads, header_eq, reads]
    exact readPortFirst_append short rest

theorem names_vless {uuid : Octets 16} {flow : Vless.VlessFlow} {cmd : Vless.VlessCommand} :
    (vless uuid flow cmd).Names text target := by
  intro header built
  rcases ok_of_map built with ⟨address, written, rfl⟩
  rcases Vless.addressTypes.writeChecked_eq_ok_iff.mp written with ⟨short, rfl⟩
  have named := @readPortFirst_append Vless.addressTypes target short []
  rw [List.append_nil] at named
  rcases takePrefixed_addonBytes flow ([cmd.toByte] ++ (toBeBytes 2 target.port ++
    Vless.addressTypes.write target.named)) with ⟨addon, taken⟩
  have front : ([Vless.VLESS_VERSION] ++ uuid.bytes).length = 17 := by simp
  rw [Reads]
  simp only [List.append_assoc]
  rw [← List.append_assoc, takeExact_append front, Option.bind_some]
  dsimp only
  rw [taken, Option.bind_some]
  dsimp only
  rw [@takeExact_append 1 [cmd.toByte] rfl, Option.bind_some]
  exact named

theorem names_trojan {passwordHash : Octets 56} {cmd : Trojan.TrojanCommand} :
    (trojan passwordHash cmd).Names text target := by
  intro header built
  rcases ok_of_map built with ⟨address, written, rfl⟩
  rcases ok_of_map written with ⟨host, checked, rfl⟩
  rcases Trojan.addressTypes.writeChecked_eq_ok_iff.mp checked with ⟨short, rfl⟩
  have front : (passwordHash.bytes ++ (Trojan.CRLF ++ [cmd.toByte])).length = 59 := by
    simp [Trojan.CRLF]
  have split : passwordHash.bytes ++ Trojan.CRLF ++ [cmd.toByte] ++
      (Trojan.addressTypes.write target.named ++ toBeBytes 2 target.port) ++ Trojan.CRLF =
      passwordHash.bytes ++ (Trojan.CRLF ++ [cmd.toByte]) ++
        (Trojan.addressTypes.write target.named ++ (toBeBytes 2 target.port ++ Trojan.CRLF)) := by
    simp only [List.append_assoc]
  rw [Reads, split, takeExact_append front, Option.bind_some]
  exact readPortLast_append short Trojan.CRLF

theorem names_tuic : tuic.Names text target := by
  intro header built
  rcases ok_of_map built with ⟨address, written, rfl⟩
  rw [Tuic.encodeAddressBytes_eq] at written
  rcases ok_of_map written with ⟨host, checked, rfl⟩
  rcases Tuic.addressTypes.writeChecked_eq_ok_iff.mp checked with ⟨short, rfl⟩
  have named := @readPortLast_append Tuic.addressTypes target short []
  rw [List.append_nil] at named
  rw [Reads, @takeExact_append 2 [Tuic.TUIC_VERSION, Tuic.TUIC_CMD_CONNECT] rfl, Option.bind_some]
  exact named

theorem names_snell_iff {clientId : List Byte} :
    (snell clientId).Names text target ↔ (asBytes (target.host text)).length ≤ 255 := by
  have idShort : (clientId.take (min clientId.length 255)).length < 2 ^ 8 := by
    rw [List.length_take]
    exact Nat.lt_succ_of_le ((Nat.min_le_left _ _).trans (Nat.min_le_right _ _))
  have id_eq : ofBeBytes [BitVec.ofNat 8 (clientId.take (min clientId.length 255)).length] =
      (clientId.take (min clientId.length 255)).length :=
    @ofBeBytes_length 1 8 _ idShort idShort
  have reads : ∀ rest, ((takeExact 2 ([Snell.REQUEST_VERSION, Snell.COMMAND_CONNECT_V2] ++
      ([BitVec.ofNat 8 (clientId.take (min clientId.length 255)).length] ++
        (clientId.take (min clientId.length 255) ++ rest)))).bind fun (_, rest) =>
        (takePrefixed 1 rest).bind fun (_, rest) => readText rest) = readText rest := by
    intro rest
    rw [@takeExact_append 2 [Snell.REQUEST_VERSION, Snell.COMMAND_CONNECT_V2] rfl, Option.bind_some]
    dsimp only
    rw [@takePrefixed_append 1 _ _ rfl id_eq, Option.bind_some]
  constructor
  · intro names
    have found := names _ rfl
    simp only [Reads, Snell.encodeRequest, List.append_assoc] at found
    have found' := (reads _).symm.trans found
    exact short_of_readText found'
  · rintro short header ⟨⟩
    simp only [Reads, Snell.encodeRequest, List.append_assoc]
    refine (reads _).trans ?_
    rw [if_pos (Nat.lt_succ_of_le short), List.take_length]
    have named := readText_append short target.port []
    rwa [List.append_nil] at named

/-- A header that is built names its target as long as the host that VMess or
Snell is given fits. -/
theorem names_iff (text : Hysteria2.IpText) (naming : Naming) (target : TargetAddr) :
    naming.Names text target ↔ naming.Fits text target := by
  cases naming with
  | vmess cipher cmd draws => exact names_vmess_iff
  | vless uuid flow cmd => exact iff_of_true names_vless trivial
  | trojan passwordHash cmd => exact iff_of_true names_trojan trivial
  | tuic => exact iff_of_true names_tuic trivial
  | snell clientId => exact names_snell_iff

theorem not_names_of_long (long : 255 < (asBytes name).length) (port : BitVec 16)
    (draws : Vmess.Draws) :
    ¬ (vmess .auto .tcp draws).Names text (.domain name port) ∧
      ¬ (snell []).Names text (.domain name port) :=
  ⟨fun names => Nat.not_le_of_lt long (names_vmess_iff.mp names),
    fun names => Nat.not_le_of_lt long (names_snell_iff.mp names)⟩

/-- A domain of 256 bytes, of which VMess names no byte and Snell names 255. -/
theorem long_domain_not_named :
    ¬ (vmess .auto .tcp ⟨.filled 16 1, .filled 16 2, 3, 0, fun _ => 0⟩).Names .std
        (.domain (String.ofList (List.replicate 256 'a')) 443) ∧
      ¬ (snell []).Names .std (.domain (String.ofList (List.replicate 256 'a')) 443) :=
  not_names_of_long (by decide +kernel) _ _

end Naming

end Corduit.Engine.Outbound
