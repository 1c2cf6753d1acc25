import Corduit.Netstack.Packet.Core
import Corduit.Text.Utf8
import Corduit.Transport.Poll

/-!
# The SOCKS5 client of the stack

A flow of the tunnel is carried to a SOCKS5 proxy.  The reply to CONNECT is read
as ten bytes, the length it has with an IPv4 address, and what is longer is
skipped by a length that depends on the type of the bound address.  For a domain
the length is one too small, and underflows for a short one.
-/

namespace Corduit.Netstack.StackProxy

open Text Transition Transport Word

/-- How a handshake ends that does not succeed: `SolidTcpError` in the variants
that it returns, or a panic. -/
inductive Failure where
  | proxyError (message : String)
  | proxyAuthFailed
  | panics
deriving DecidableEq

/-- The TCP stream: what comes from the proxy, what has been sent to it, and what
the next writes do. -/
structure Link where
  incoming : Incoming
  sent : List Byte
  writes : List (Option IoError)
deriving DecidableEq

namespace Link

/-- `Write::write_all`; what is not scheduled succeeds. -/
def writeAll (what : String) (data : List Byte) (link : Link) : Except Failure Link :=
  match link.writes with
  | some error :: _ => .error (.proxyError (what ++ ": " ++ error.text))
  | none :: writes => .ok { link with sent := link.sent ++ data, writes := writes }
  | [] => .ok { link with sent := link.sent ++ data }

/-- `Read::read_exact`. -/
def readExact (what : String) (count : Nat) (link : Link) : Except Failure (List Byte × Link) :=
  match link.incoming.readExact count with
  | (.ok bytes, incoming) => .ok (bytes, { link with incoming := incoming })
  | (.error error, _) => .error (.proxyError (what ++ ": " ++ error.text))

/-- `let _ = stream.read_exact(..)`: what came of it is not looked at. -/
def skip (count : Nat) (link : Link) : Link :=
  { link with incoming := (link.incoming.readExact count).2 }

end Link

/-- The request with user name and password. -/
def authRequest (user pass : List Byte) : List Byte :=
  [0x01, BitVec.ofNat 8 user.length] ++ user ++ [BitVec.ofNat 8 pass.length] ++ pass

/-- The branch of `socks5_negotiate_auth` for a proxy that asks for a password. -/
def authenticate (credentials : Option (String × String)) (link : Link) : Except Failure Link :=
  match credentials with
  | none => .error .proxyAuthFailed
  | some (user, pass) =>
      if (asBytes user).length > 255 ∨ (asBytes pass).length > 255 then .error .proxyAuthFailed
      else do
        let link ← link.writeAll "Auth request failed" (authRequest (asBytes user) (asBytes pass))
        let (auth, link) ← link.readExact "Auth response failed" 2
        if auth.getD 0 0 ≠ 0x01 ∨ auth.getD 1 0 ≠ 0x00 then .error .proxyAuthFailed else .ok link

/-- The choice of a method, and the password. -/
def socks5NegotiateAuth (credentials : Option (String × String)) (link : Link) :
    Except Failure Link := do
  let link ← link.writeAll "Greeting failed"
    (if credentials.isSome then [0x05, 0x02, 0x00, 0x02] else [0x05, 0x01, 0x00])
  let (response, link) ← link.readExact "Response failed" 2
  if response.getD 0 0 ≠ 0x05 then .error .proxyAuthFailed
  else if response.getD 1 0 = 0x00 then .ok link
  else if response.getD 1 0 = 0x02 then authenticate credentials link
  else .error .proxyAuthFailed

/-- The address of the CONNECT request. -/
def requestAddress (target : SocketAddr) (domain : Option String) :
    Except Failure (List Byte) :=
  match domain with
  | some domain =>
      if (asBytes domain).length > 255 then
        .error (.proxyError "domain name longer than the SOCKS5 address field")
      else .ok ([0x03, BitVec.ofNat 8 (asBytes domain).length] ++ asBytes domain)
  | none =>
      match target.ip with
      | .v4 ip => .ok (0x01 :: toBeBytes 4 ip)
      | .v6 ip => .ok (0x04 :: toBeBytes 16 ip)

/-- The text for a reply that is not a success. -/
def replyText (code : Byte) : String :=
  match code.toNat with
  | 0x01 => "General SOCKS server failure"
  | 0x02 => "Connection not allowed by ruleset"
  | 0x03 => "Network unreachable"
  | 0x04 => "Host unreachable"
  | 0x05 => "Connection refused"
  | 0x06 => "TTL expired"
  | 0x07 => "Command not supported"
  | 0x08 => "Address type not supported"
  | _ => "Unknown error"

/-- The last `match` of `socks5_handshake`: what is left of the bound address. -/
def skipBoundAddress (response : List Byte) (link : Link) : Except Failure Link :=
  if response.getD 3 0 = 0x01 then .ok link
  else if response.getD 3 0 = 0x03 then
    match checkedSub ((response.getD 4 0).toNat + 2) 6 with
    | none => .error .panics
    | some count => .ok (if count = 0 then link else link.skip count)
  else if response.getD 3 0 = 0x04 then .ok (link.skip 12)
  else .ok link

/-- The end of `socks5_handshake`, with the first bytes of the reply. -/
def finish (response : List Byte) (link : Link) : Except Failure Link :=
  if response.getD 1 0 ≠ 0x00 then
    .error (.proxyError ("SOCKS5 connect failed: " ++ replyText (response.getD 1 0) ++ " (" ++
      toString (response.getD 1 0).toNat ++ ")"))
  else skipBoundAddress response link

/-- The handshake with the proxy. -/
def socks5Handshake (credentials : Option (String × String)) (target : SocketAddr)
    (domain : Option String) (link : Link) : Except Failure Link := do
  let link ← socks5NegotiateAuth credentials link
  let address ← requestAddress target domain
  let link ← link.writeAll "Connect request failed"
    ([0x05, 0x01, 0x00] ++ address ++ toBeBytes 2 target.port)
  let (response, link) ← link.readExact "Connect response failed" 10
  finish response link

/-- The bound address of a reply, as RFC 1928 lays it out. -/
inductive BoundAddr where
  | ipv4 (octets : Octets 4)
  | domain (name : List Byte) (fits : name.length ≤ 255)
  | ipv6 (octets : Octets 16)
deriving DecidableEq

/-- The address as it is written. -/
def BoundAddr.toBytes : BoundAddr → List Byte
  | ipv4 octets => 0x01 :: octets.bytes
  | domain name _ => 0x03 :: BitVec.ofNat 8 name.length :: name
  | ipv6 octets => 0x04 :: octets.bytes

/-- A domain was bound. -/
def BoundAddr.IsDomain : BoundAddr → Prop
  | domain _ _ => True
  | _ => False

/-- A reply that grants the request. -/
structure ConnectReply where
  bound : BoundAddr
  port : Octets 2
deriving DecidableEq

/-- The reply as it is written. -/
def ConnectReply.toBytes (reply : ConnectReply) : List Byte :=
  [0x05, 0x00, 0x00] ++ reply.bound.toBytes ++ reply.port.bytes

namespace Link

variable {link : Link} {count : Nat}

/-- No read of the link fails. -/
def Reads (link : Link) : Prop :=
  Steady link.incoming.polls

/-- No write of the link fails. -/
def Writes (link : Link) : Prop :=
  ∀ error, some error ∉ link.writes

theorem writeAll_eq_ok (writes : link.Writes) (what : String) (data : List Byte) :
    ∃ link', link.writeAll what data = .ok link' ∧ link'.incoming = link.incoming := by
  rcases link with ⟨incoming, sent, _ | ⟨_ | error, later⟩⟩
  · exact ⟨_, rfl, rfl⟩
  · exact ⟨_, rfl, rfl⟩
  · exact absurd List.mem_cons_self (writes error)

theorem readExact_of_le (reads : link.Reads) (positive : 0 < count)
    (enough : count ≤ link.incoming.wire.length) (what : String) :
    ∃ link', link.readExact what count = .ok (link.incoming.wire.take count, link') ∧
      link'.incoming.wire = link.incoming.wire.drop count ∧ link'.Reads := by
  rw [readExact]
  rcases Incoming.readExact_cases link.incoming positive with
    ⟨polls, read, _, later⟩ | ⟨_, _, less, _⟩ | ⟨_, error, _, _, _, _, _, later⟩
  · rw [read]
    exact ⟨_, rfl, rfl, reads.suffix later⟩
  · exact absurd enough (Nat.not_le_of_lt less)
  · exact absurd (later.subset List.mem_cons_self) (reads error)

theorem readExact_of_lt (reads : link.Reads) (less : link.incoming.wire.length < count)
    (what : String) : ∃ failure, link.readExact what count = .error failure := by
  rw [readExact]
  rcases Incoming.readExact_cases link.incoming (Nat.zero_lt_of_lt less) with
    ⟨_, _, enough, _⟩ | ⟨_, read, _, _⟩ | ⟨_, error, _, _, _, _, _, later⟩
  · exact absurd enough (Nat.not_le_of_lt less)
  · rw [read]
    exact ⟨_, rfl⟩
  · exact absurd (later.subset List.mem_cons_self) (reads error)

theorem wire_skip (reads : link.Reads) (positive : 0 < count)
    (enough : count ≤ link.incoming.wire.length) :
    (link.skip count).incoming.wire = link.incoming.wire.drop count := by
  rw [skip]
  rcases Incoming.readExact_cases link.incoming positive with
    ⟨polls, read, _, later⟩ | ⟨_, _, less, _⟩ | ⟨_, error, _, _, _, _, _, later⟩
  · rw [read]
  · exact absurd enough (Nat.not_le_of_lt less)
  · exact absurd (later.subset List.mem_cons_self) (reads error)

end Link

section Reply

variable {credentials : Option (String × String)} {target : SocketAddr} {domain : Option String}
  {link after : Link} {kind first : Byte} {tail : List Byte}

theorem requestAddress_eq_ok (fits : ∀ name, domain = some name → (asBytes name).length ≤ 255) :
    ∃ address, requestAddress target domain = .ok address := by
  cases domain with
  | some name => exact ⟨_, if_neg (Nat.not_lt_of_le (fits name rfl))⟩
  | none =>
      rcases target with ⟨_ | _, _⟩
      · exact ⟨_, rfl⟩
      · exact ⟨_, rfl⟩

section

variable (fits : ∀ name, domain = some name → (asBytes name).length ≤ 255)
  (negotiated : socks5NegotiateAuth credentials link = .ok after) (writes : after.Writes)

include fits negotiated writes

theorem handshake_eq :
    ∃ asked : Link, asked.incoming = after.incoming ∧
      (∀ response left, asked.readExact "Connect response failed" 10 = .ok (response, left) →
        socks5Handshake credentials target domain link = finish response left) ∧
      ∀ failure, asked.readExact "Connect response failed" 10 = .error failure →
        socks5Handshake credentials target domain link = .error failure := by
  rcases @requestAddress_eq_ok target domain fits with ⟨address, requested⟩
  rcases Link.writeAll_eq_ok writes "Connect request failed"
    ([0x05, 0x01, 0x00] ++ address ++ toBeBytes 2 target.port) with ⟨asked, written, same⟩
  have handshake : socks5Handshake credentials target domain link =
      (asked.readExact "Connect response failed" 10).bind fun read => finish read.1 read.2 := by
    rw [socks5Handshake, negotiated]
    change (requestAddress target domain >>= _) = _
    rw [requested]
    change (after.writeAll _ _ >>= _) = _
    rw [written]
    rfl
  refine ⟨asked, same, fun response left read => ?_, fun failure read => ?_⟩
  · rw [handshake, read]
    rfl
  · rw [handshake, read]
    rfl

theorem handshake_of_granted (reads : after.Reads)
    (there : after.incoming.wire = 0x05 :: 0x00 :: 0x00 :: kind :: first :: tail)
    (enough : 5 ≤ tail.length) :
    ∃ left, left.incoming.wire = tail.drop 5 ∧ left.Reads ∧
      socks5Handshake credentials target domain link =
        skipBoundAddress (0x05 :: 0x00 :: 0x00 :: kind :: first :: tail.take 5) left := by
  rcases @handshake_eq credentials target domain _ _ fits negotiated writes with
    ⟨asked, same, handshake, _⟩
  have askedReads : asked.Reads := by
    rw [Link.Reads, same]
    exact reads
  have long : 10 ≤ asked.incoming.wire.length := by
    rw [same, there]
    simpa using enough
  rcases Link.readExact_of_le askedReads (Nat.succ_pos 9) long "Connect response failed" with
    ⟨left, read, behind, leftReads⟩
  rw [same, there] at read behind
  exact ⟨left, behind, leftReads, handshake _ _ read⟩

/-- A reply that is shorter than ten bytes, with nothing behind it that would make
up for that. -/
theorem handshake_of_short (reads : after.Reads) (less : after.incoming.wire.length < 10) :
    ∃ failure, socks5Handshake credentials target domain link = .error failure := by
  rcases @handshake_eq credentials target domain _ _ fits negotiated writes with
    ⟨asked, same, _, handshake⟩
  have askedReads : asked.Reads := by
    rw [Link.Reads, same]
    exact reads
  rw [← same] at less
  rcases Link.readExact_of_lt askedReads less "Connect response failed" with ⟨failure, read⟩
  exact ⟨failure, handshake _ read⟩

end

/-- Behind ten bytes of a reply with a domain, one byte too few is skipped, or the
length underflows. -/
theorem skipBoundAddress_domain {name rest : List Byte} {port : Octets 2} {left : Link}
    (short : name.length ≤ 255) (reads : left.Reads)
    (behind : left.incoming.wire = (name ++ port.bytes ++ rest).drop 5) {final : Link} :
    skipBoundAddress
        (0x05 :: 0x00 :: 0x00 :: 0x03 :: BitVec.ofNat 8 name.length ::
          (name ++ port.bytes ++ rest).take 5) left = .ok final →
      final.incoming.wire.length = rest.length + 1 := by
  have number : (BitVec.ofNat 8 name.length).toNat = name.length := by
    rw [BitVec.toNat_ofNat, Nat.mod_eq_of_lt (Nat.lt_succ_of_le short)]
  have length : (name ++ port.bytes ++ rest).length = name.length + 2 + rest.length := by
    rw [List.length_append, List.length_append, port.length_bytes]
  intro done
  rw [skipBoundAddress] at done
  simp only [List.getD_cons_succ, List.getD_cons_zero] at done
  rw [if_neg (by decide), if_pos trivial, number] at done
  by_cases enough : 6 ≤ name.length + 2
  · rw [checkedSub_of_le enough] at done
    rw [← Except.ok.inj done]
    by_cases zero : name.length + 2 - 6 = 0
    · rw [if_pos zero, behind, List.length_drop, length]
      omega
    · rw [if_neg zero, Link.wire_skip reads (Nat.pos_of_ne_zero zero), behind, List.length_drop,
        List.length_drop, length]
      · omega
      · rw [behind, List.length_drop, length]
        omega
  · rw [checkedSub, if_neg enough] at done
    cases done

end Reply

/-- The handshake takes exactly a granted reply off the stream when the bound
address is not a domain, and only then: with a domain it panics, takes application
bytes too, or leaves the last byte of the port. -/
theorem handshake_takes_reply_iff {credentials : Option (String × String)} {target : SocketAddr}
    {domain : Option String} {link after : Link}
    (fits : ∀ name, domain = some name → (asBytes name).length ≤ 255)
    (negotiated : socks5NegotiateAuth credentials link = .ok after) (writes : after.Writes)
    (reads : after.Reads) {reply : ConnectReply} {application : List Byte}
    (there : after.incoming.wire = reply.toBytes ++ application) :
    (∃ final, socks5Handshake credentials target domain link = .ok final ∧
      final.incoming.wire = application) ↔ ¬reply.bound.IsDomain := by
  rcases reply with ⟨bound, port⟩
  cases bound with
  | ipv4 octets =>
      refine iff_of_true ?_ fun impossible => impossible
      rcases octets with ⟨_ | ⟨first, rest⟩, length⟩
      · cases length
      have three : rest.length = 3 := Nat.succ.inj length
      have tail : (rest ++ port.bytes).length = 5 := by
        rw [List.length_append, three, port.length_bytes]
      rcases @handshake_of_granted credentials target domain link after 0x01 first
        (rest ++ port.bytes ++ application) fits negotiated writes reads
        (by rw [there]; simp [ConnectReply.toBytes, BoundAddr.toBytes])
        (by rw [List.length_append, tail]; exact Nat.le_add_right _ _) with
        ⟨left, behind, _, handshake⟩
      rw [List.drop_left' tail] at behind
      exact ⟨left, handshake, behind⟩
  | ipv6 octets =>
      refine iff_of_true ?_ fun impossible => impossible
      rcases octets with ⟨_ | ⟨first, rest⟩, length⟩
      · cases length
      have fifteen : rest.length = 15 := Nat.succ.inj length
      have tail : (rest ++ port.bytes).length = 17 := by
        rw [List.length_append, fifteen, port.length_bytes]
      have all : (rest ++ port.bytes ++ application).length = 17 + application.length := by
        rw [List.length_append, tail]
      rcases @handshake_of_granted credentials target domain link after 0x04 first
        (rest ++ port.bytes ++ application) fits negotiated writes reads
        (by rw [there]; simp [ConnectReply.toBytes, BoundAddr.toBytes])
        (by rw [all]; omega) with ⟨left, behind, leftReads, handshake⟩
      refine ⟨left.skip 12, handshake, ?_⟩
      rw [Link.wire_skip leftReads (by decide) (by rw [behind, List.length_drop, all]; omega),
        behind, List.drop_drop, List.drop_left' tail]
  | domain name short =>
      refine iff_of_false ?_ fun other => other trivial
      rintro ⟨final, handshake, left⟩
      have spelled : after.incoming.wire = 0x05 :: 0x00 :: 0x00 :: 0x03 ::
          BitVec.ofNat 8 name.length :: (name ++ port.bytes ++ application) := by
        rw [there]
        simp [ConnectReply.toBytes, BoundAddr.toBytes]
      by_cases enough : 5 ≤ (name ++ port.bytes ++ application).length
      · rcases @handshake_of_granted credentials target domain link after 0x03
          (BitVec.ofNat 8 name.length) (name ++ port.bytes ++ application) fits negotiated writes
          reads spelled enough with ⟨rest, behind, restReads, skipped⟩
        have length := skipBoundAddress_domain short restReads behind (skipped.symm.trans handshake)
        rw [left] at length
        omega
      · have less : after.incoming.wire.length < 10 := by
          rw [spelled]
          simp only [List.length_cons]
          omega
        rcases @handshake_of_short credentials target domain link after fits negotiated writes reads
          less with ⟨failure, failed⟩
        rw [failed] at handshake
        cases handshake

namespace Example

/-- A proxy that wants no password and grants the request. -/
def link (reply : ConnectReply) (application : List Byte) : Link where
  incoming := ⟨[0x05, 0x00] ++ (reply.toBytes ++ application), []⟩
  sent := []
  writes := []

/-- A target. -/
def target : SocketAddr :=
  ⟨.v4 0x5DB8D822, 443⟩

/-- Port 443. -/
def port : Octets 2 :=
  ⟨[0x01, 0xBB], rfl⟩

/-- Bound to a domain of nine bytes. -/
def named : ConnectReply :=
  ⟨.domain (ascii "localhost") (by decide), port⟩

/-- Bound to a domain of one byte. -/
def shortNamed : ConnectReply :=
  ⟨.domain (ascii "a") (by decide), port⟩

/-- A reply with an IPv6 address. -/
def numbered : ConnectReply :=
  ⟨.ipv6 (Octets.filled 16 0), port⟩

end Example

/-- Behind a reply with the domain `localhost` the stream begins with a byte of the
port, and a reply with the domain `a` makes the length underflow. -/
theorem handshake_leaves_port_byte :
    (∃ final, socks5Handshake none Example.target none (Example.link Example.named [1, 2]) =
        .ok final ∧ final.incoming.wire = [0xBB, 1, 2]) ∧
      socks5Handshake none Example.target none (Example.link Example.shortNamed [1, 2]) =
        .error .panics :=
  ⟨⟨_, rfl, rfl⟩, rfl⟩

theorem handshake_takes_reply_numbered :
    ∃ final, socks5Handshake none Example.target none (Example.link Example.numbered [1, 2]) =
      .ok final ∧ final.incoming.wire = [1, 2] := by
  have negotiated : socks5NegotiateAuth none (Example.link Example.numbered [1, 2]) =
      .ok ⟨⟨Example.numbered.toBytes ++ [1, 2], []⟩, [0x05, 0x01, 0x00], []⟩ := rfl
  exact (handshake_takes_reply_iff (fun _ named => by cases named) negotiated
    (fun _ => List.not_mem_nil) (fun _ => List.not_mem_nil) rfl).mpr fun impossible => impossible

end Corduit.Netstack.StackProxy
