import Corduit.Protocol.Quic.Connection.Flight

/-!
# Retry packets

A server that wants proof of an address answers with a Retry: its connection id
and a token that reaches up to the integrity tag, without a length.  The client
looks for a length in front of the token, so the token that it takes is never
the one that was sent.
-/

namespace Corduit.Protocol.Quic

open Word

/-- The tag of a Retry, over its pseudo-packet. -/
abbrev RetrySeal :=
  List Byte → Octets 16

/-- A Retry that a server sends. -/
structure ServerRetry where
  unused : BitVec 4
  serverId : List Byte
  token : List Byte
  short : serverId.length ≤ 20
  nonempty : token ≠ []

namespace ServerRetry

/-- A connection id behind its length. -/
def connectionId (id : List Byte) : List Byte :=
  BitVec.ofNat 8 id.length :: id

/-- The packet up to its tag, for a client with the source id `scid`. -/
def header (retry : ServerRetry) (scid : List Byte) : List Byte :=
  (0xf0 ||| retry.unused.setWidth 8) :: toBeBytes 4 (BitVec.ofNat 32 QUIC_VERSION) ++
    connectionId scid ++ connectionId retry.serverId ++ retry.token

/-- What the tag covers: the destination id of the first packet of the client in front
of the packet. -/
def pseudoPacket (retry : ServerRetry) (scid dcid : List Byte) : List Byte :=
  connectionId dcid ++ retry.header scid

/-- The packet, for a client that has sent the ids `scid` and `dcid`. -/
def encode (retry : ServerRetry) (sealRetry : RetrySeal) (scid dcid : List Byte) : List Byte :=
  retry.header scid ++ (sealRetry (retry.pseudoPacket scid dcid)).bytes

variable (retry : ServerRetry) (sealRetry : RetrySeal) (scid dcid : List Byte)

theorem length_encode : (retry.encode sealRetry scid dcid).length =
    7 + scid.length + retry.serverId.length + retry.token.length + 16 := by
  simp [encode, header, connectionId]
  omega

theorem byteAt_scid (small : scid.length < 256) :
    byteAt (retry.encode sealRetry scid dcid) 5 = scid.length := by
  have found : byteAt (retry.encode sealRetry scid dcid) 5 =
      (BitVec.ofNat 8 scid.length).toNat := rfl
  rw [found, BitVec.toNat_ofNat, Nat.mod_eq_of_lt small]

theorem byteAt_serverId :
    byteAt (retry.encode sealRetry scid dcid) (6 + scid.length) = retry.serverId.length := by
  have short := retry.short
  have front : retry.encode sealRetry scid dcid =
      ((0xf0 ||| retry.unused.setWidth 8) :: toBeBytes 4 (BitVec.ofNat 32 QUIC_VERSION) ++
        connectionId scid) ++ (BitVec.ofNat 8 retry.serverId.length :: (retry.serverId ++
          retry.token ++ (sealRetry (retry.pseudoPacket scid dcid)).bytes)) := by
    simp [encode, header, connectionId]
  have place : ((0xf0 ||| retry.unused.setWidth 8) ::
      toBeBytes 4 (BitVec.ofNat 32 QUIC_VERSION) ++ connectionId scid).length = 6 + scid.length := by
    simp [connectionId]
    omega
  rw [byteAt, front, ← place, List.getD_eq_getElem?_getD, List.getElem?_append_right (Nat.le_refl _),
    Nat.sub_self, List.getElem?_cons_zero, Option.getD_some, BitVec.toNat_ofNat]
  omega

end ServerRetry

section Parsing

variable {κ ξ : Type} (packets : PacketLibrary κ)

/-- A variable-length integer takes at least one byte. -/
def PacketLibrary.VarintsTakeBytes : Prop :=
  ∀ bytes value used, packets.decodeVarint bytes = some (value, used) → 0 < used

variable {packets}

/-- Of a Retry that is laid out without a length, the client reads a shorter token. -/
theorem token_of_parseRetry (positive : packets.VarintsTakeBytes) (retry : ServerRetry)
    (sealRetry : RetrySeal) {scid dcid : List Byte} (small : scid.length < 256)
    {read : RetryPacket} (parsed : parseRetry packets (retry.encode sealRetry scid dcid) = some read) :
    read.token.length < retry.token.length := by
  have token_some := List.length_pos_iff.mpr retry.nonempty
  have length_eq := retry.length_encode sealRetry scid dcid
  rw [parseRetry, if_neg (by omega)] at parsed
  dsimp only at parsed
  rw [retry.byteAt_scid sealRetry scid dcid small, if_neg (by omega),
    retry.byteAt_serverId sealRetry scid dcid, if_neg (by omega)] at parsed
  rcases Option.bind_eq_some_iff.mp parsed with ⟨⟨tokenLen, used⟩, decoded, rest⟩
  have least := positive _ _ _ decoded
  dsimp only at rest
  split at rest
  · cases rest
  rename_i enough
  cases rest
  dsimp only
  rw [slice, List.length_take, List.length_drop]
  omega

end Parsing

namespace Connection

variable {κ ξ : Type} {packets : PacketLibrary κ} {conn : Connection κ ξ}

theorem retryToken_of_acceptsRetry {data : List Byte}
    (accepts : conn.acceptsRetry packets data = true) :
    ∃ read, parseRetry packets data = some read ∧
      (conn.processRetry packets data).2.retryToken = read.token := by
  unfold acceptsRetry at accepts
  unfold processRetry
  cases parsed : parseRetry packets data with
  | none =>
      rw [parsed] at accepts
      cases accepts
  | some read =>
      rw [parsed, Option.any_some, Bool.and_eq_true, decide_eq_true_eq] at accepts
      refine ⟨read, rfl, ?_⟩
      dsimp only
      rw [if_neg (by simp [accepts.1, accepts.2])]
      cases packets.initialKey read.scid false with
      | error message => rfl
      | ok writeKey =>
          dsimp only
          cases packets.initialKey read.scid true with
          | error message => rfl
          | ok key => rfl

/-- The client takes a Retry up as it was meant: it accepts the packet, and goes on with the
server's id and with the token. -/
structure TakesUp (packets : PacketLibrary κ) (sealRetry : RetrySeal) (conn : Connection κ ξ)
    (retry : ServerRetry) : Prop where
  accepts : conn.acceptsRetry packets (retry.encode sealRetry conn.scid conn.dcid) = true
  dcid : (conn.processRetry packets (retry.encode sealRetry conn.scid conn.dcid)).2.dcid =
    retry.serverId
  token : (conn.processRetry packets (retry.encode sealRetry conn.scid conn.dcid)).2.retryToken =
    retry.token

/-- No Retry is taken up, by no client. -/
theorem never_takesUp (conn : Connection κ ξ) (positive : packets.VarintsTakeBytes)
    (sealRetry : RetrySeal) (small : conn.scid.length < 256) (retry : ServerRetry) :
    ¬ conn.TakesUp packets sealRetry retry := by
  intro takesUp
  rcases retryToken_of_acceptsRetry takesUp.accepts with ⟨read, parsed, token_eq⟩
  have shorter := token_of_parseRetry positive retry sealRetry small parsed
  rw [← token_eq, takesUp.token] at shorter
  exact Nat.lt_irrefl _ shorter

end Connection

namespace Plain

/-- A tag that is the length of what it covers, sixteen times. -/
def sealRetry : RetrySeal :=
  fun pseudo => .filled 16 (BitVec.ofNat 8 pseudo.length)

/-- The library with this tag in Retry packets. -/
def retryPackets : PacketLibrary Unit :=
  { packets with openRetry := fun pseudo tag => tag = (sealRetry pseudo).bytes }

theorem varintsTakeBytes : retryPackets.VarintsTakeBytes := by
  intro bytes value used decoded
  unfold retryPackets packets decodeVarint at decoded
  dsimp only at decoded
  split at decoded
  · cases decoded
  · split at decoded
    · cases decoded
    · cases decoded
      exact Nat.two_pow_pos _

/-- A Retry whose token begins with what looks like a length. -/
def serverRetry : ServerRetry where
  unused := 0
  serverId := List.replicate 8 3
  token := [2, 5, 6]
  short := by decide
  nonempty := by decide

/-- A new client has no use for the Retry. -/
theorem connection_never_takesUp : ¬ connection.TakesUp retryPackets sealRetry serverRetry :=
  connection.never_takesUp varintsTakeBytes sealRetry (by decide) serverRetry

/-- A new client drops the Retry and stays without a token. -/
theorem connection_drops_retry :
    connection.acceptsRetry retryPackets
        (serverRetry.encode sealRetry connection.scid connection.dcid) = false ∧
      ¬ connection.TakesUp retryPackets sealRetry serverRetry := by
  have dropped : connection.acceptsRetry retryPackets
      (serverRetry.encode sealRetry connection.scid connection.dcid) = false := by decide
  refine ⟨dropped, fun takesUp => ?_⟩
  have accepts := takesUp.accepts
  rw [dropped] at accepts
  cases accepts

end Plain

end Corduit.Protocol.Quic
