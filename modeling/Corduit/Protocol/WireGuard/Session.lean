import Corduit.Protocol.WireGuard.Replay

/-!
# Transport sessions

A session enciphers packets under a counter and deciphers them through the
replay filter.  The filter is asked only about packets that authenticate, so
that a run of a session returns the plaintext of each packet at most once,
however the packets are reordered and replayed.
-/

namespace Corduit.Protocol.WireGuard

open Collection Word

/-- A transport session. -/
structure WireguardSession where
  transportKeys : TransportKeys
  sendNonce : BitVec 64
  recvFilter : ReplayFilter

namespace WireguardSession

/-- A session with its keys. -/
def new (keys : TransportKeys) : WireguardSession where
  transportKeys := keys
  sendNonce := 0
  recvFilter := .new

section Packets

variable (primitives : Primitives)

/-- The transport packet of a plaintext. -/
def transportPacket (keys : TransportKeys) (nonce : BitVec 64) (plaintext : List Byte) :
    List Byte :=
  [msgTypeTransport] ++ List.replicate 3 0 ++ toLeBytes 4 keys.recvIndex ++ toLeBytes 8 nonce ++
    primitives.aeadEncrypt keys.sendKey nonce.toNat plaintext []

/-- Seal under the next counter. -/
def encryptPacket (session : WireguardSession) (plaintext : List Byte) :
    Except WireGuardError (List Byte) × WireguardSession :=
  let nonce := session.sendNonce
  let session := { session with sendNonce := session.sendNonce + 1 }
  if nonce.toNat ≥ rejectAfterMessages then
    (.error (.crypto "Nonce exhausted"), session)
  else
    (.ok (transportPacket primitives session.transportKeys nonce plaintext), session)

/-- Plaintexts one after the other. -/
def encryptAll (session : WireguardSession) :
    List (List Byte) → List (Except WireGuardError (List Byte)) × WireguardSession
  | [] => ([], session)
  | plaintext :: plaintexts =>
      let (packet, session) := session.encryptPacket primitives plaintext
      let (packets, session) := session.encryptAll plaintexts
      (packet :: packets, session)

/-- The index that a packet is addressed to. -/
def receiverIndex (packet : List Byte) : BitVec 32 :=
  BitVec.ofNat 32 (ofLeBytes (slice packet 4 4))

/-- The counter of a packet. -/
def packetNonce (packet : List Byte) : Nat :=
  ofLeBytes (slice packet 8 8)

/-- `WireguardSession::decrypt_packet`; `none` is a panic. -/
def decryptPacket (session : WireguardSession) (packet : List Byte) :
    Option (Except WireGuardError (List Byte) × WireguardSession) :=
  if packet.length < 32 then
    some (.error .invalidPacket, session)
  else if packet[0]? != some msgTypeTransport then
    some (.error .invalidPacket, session)
  else if receiverIndex packet ≠ session.transportKeys.sendIndex then
    some (.error .invalidPacket, session)
  else
    match primitives.aeadDecrypt session.transportKeys.recvKey (packetNonce packet)
        (packet.drop 16) [] with
    | none => some (.error .decryptionFailed, session)
    | some plaintext => do
        let (fresh, recvFilter) ← session.recvFilter.checkAndRecord (packetNonce packet)
        let session := { session with recvFilter }
        if !fresh then
          return (.error .replayDetected, session)
        else
          return (.ok plaintext, session)

/-- Packets one after the other. -/
def decryptAll (session : WireguardSession) :
    List (List Byte) → Option (List (Except WireGuardError (List Byte)) × WireguardSession)
  | [] => some ([], session)
  | packet :: packets => do
      let (outcome, session) ← session.decryptPacket primitives packet
      let (outcomes, session) ← session.decryptAll packets
      return (outcome :: outcomes, session)

end Packets

/-- The packets that were opened, each with its plaintext. -/
def opened (packets : List (List Byte)) (outcomes : List (Except WireGuardError (List Byte))) :
    List (List Byte × List Byte) :=
  (packets.zip outcomes).filterMap fun (packet, outcome) =>
    outcome.toOption.map fun plaintext => (packet, plaintext)

section Packet

variable {primitives : Primitives} {session : WireguardSession} {accepted : Finset Nat}

/-- A packet that does not authenticate leaves the session as it was. -/
theorem decryptPacket_unauthenticated {packet : List Byte}
    (fails : primitives.aeadDecrypt session.transportKeys.recvKey (packetNonce packet)
      (packet.drop 16) [] = none) :
    ∃ error, session.decryptPacket primitives packet = some (.error error, session) := by
  unfold decryptPacket
  rw [fails]
  split
  · exact ⟨_, rfl⟩
  split
  · exact ⟨_, rfl⟩
  split <;> exact ⟨_, rfl⟩

/-- A packet is opened exactly when it is addressed to the session, authenticates
and has a nonce that the window accepts; only then is the nonce recorded. -/
theorem decryptPacket_cases (primitives : Primitives)
    (holds : Represents session.recvFilter accepted) (packet : List Byte) :
    (∃ error recvFilter, session.decryptPacket primitives packet =
        some (.error error, { session with recvFilter }) ∧ Represents recvFilter accepted) ∨
      ∃ plaintext recvFilter, session.decryptPacket primitives packet =
          some (.ok plaintext, { session with recvFilter }) ∧
        Accepts accepted (packetNonce packet) ∧
        primitives.aeadDecrypt session.transportKeys.recvKey (packetNonce packet)
          (packet.drop 16) [] = some plaintext ∧
        Represents recvFilter (insert (packetNonce packet) accepted) := by
  cases authentic : primitives.aeadDecrypt session.transportKeys.recvKey (packetNonce packet)
      (packet.drop 16) [] with
  | none =>
      rcases decryptPacket_unauthenticated authentic with ⟨error, unchanged⟩
      exact Or.inl ⟨error, session.recvFilter, unchanged, holds⟩
  | some plaintext =>
      unfold decryptPacket
      rw [authentic]
      split
      · exact Or.inl ⟨_, session.recvFilter, rfl, holds⟩
      split
      · exact Or.inl ⟨_, session.recvFilter, rfl, holds⟩
      split
      · exact Or.inl ⟨_, session.recvFilter, rfl, holds⟩
      rcases checkAndRecord_spec holds (packetNonce packet) with ⟨recvFilter, answer, holds⟩
      rw [accept] at holds
      by_cases accepts : Accepts accepted (packetNonce packet)
      · rw [if_pos accepts] at holds
        exact Or.inr ⟨plaintext, recvFilter, by simp [answer, accepts], accepts, rfl, holds⟩
      · rw [if_neg accepts] at holds
        exact Or.inl ⟨.replayDetected, recvFilter, by simp [answer, accepts], holds⟩

end Packet

section Runs

variable {primitives : Primitives} {session : WireguardSession} {accepted : Finset Nat}

/-- Along a run nothing panics, every opened packet authenticates, and no nonce
is opened twice or opened again. -/
theorem decryptAll_spec (primitives : Primitives) (session : WireguardSession)
    (holds : Represents session.recvFilter accepted) (packets : List (List Byte)) :
    ∃ outcomes session', session.decryptAll primitives packets = some (outcomes, session') ∧
      ((opened packets outcomes).map (packetNonce ∘ Prod.fst)).Nodup ∧
      ∀ delivery ∈ opened packets outcomes, delivery.1 ∈ packets ∧
        packetNonce delivery.1 ∉ accepted ∧
        primitives.aeadDecrypt session.transportKeys.recvKey (packetNonce delivery.1)
          (delivery.1.drop 16) [] = some delivery.2 := by
  induction packets generalizing session accepted with
  | nil => exact ⟨[], session, rfl, by simp [opened], by simp [opened]⟩
  | cons packet packets ih =>
      rcases decryptPacket_cases primitives holds packet with
        ⟨error, recvFilter, first, holds⟩ |
        ⟨plaintext, recvFilter, first, accepts, authentic, holds⟩
      · rcases ih { session with recvFilter } holds with
          ⟨outcomes, session', rest, distinct, each⟩
        have skip : opened (packet :: packets) (.error error :: outcomes) =
          opened packets outcomes := rfl
        refine ⟨.error error :: outcomes, session', by simp [decryptAll, first, rest], ?_⟩
        rw [skip]
        exact ⟨distinct, fun delivery member =>
          ⟨List.mem_cons_of_mem packet (each delivery member).1, (each delivery member).2⟩⟩
      · rcases ih { session with recvFilter } holds with
          ⟨outcomes, session', rest, distinct, each⟩
        have head : opened (packet :: packets) (.ok plaintext :: outcomes) =
          (packet, plaintext) :: opened packets outcomes := rfl
        refine ⟨.ok plaintext :: outcomes, session', by simp [decryptAll, first, rest], ?_⟩
        rw [head]
        refine ⟨?_, ?_⟩
        · rw [List.map_cons, List.nodup_cons]
          refine ⟨fun again => ?_, distinct⟩
          rcases List.mem_map.mp again with ⟨delivery, member, same⟩
          exact (each delivery member).2.1 (by
            rw [show packetNonce delivery.1 = packetNonce packet from same]
            exact Finset.mem_insert_self _ _)
        · intro delivery member
          rcases List.mem_cons.mp member with rfl | member
          · exact ⟨List.mem_cons_self, accepts.2.1, authentic⟩
          · rcases each delivery member with ⟨delivered, unseen, authentic⟩
            exact ⟨List.mem_cons_of_mem packet delivered,
              fun seen => unseen (Finset.mem_insert_of_mem seen), authentic⟩

/-- What a sender makes of its plaintexts: each packet carries the plaintext at
its place, under some nonce. -/
theorem encryptAll_cases (session : WireguardSession) {plaintexts : List (List Byte)}
    {place : Nat} {packet : List Byte}
    (sent : (session.encryptAll primitives plaintexts).1[place]? = some (.ok packet)) :
    ∃ plaintext nonce, plaintexts[place]? = some plaintext ∧
      packet = transportPacket primitives session.transportKeys nonce plaintext := by
  induction plaintexts generalizing session place with
  | nil => simp [encryptAll] at sent
  | cons plaintext plaintexts ih =>
      have keys_eq : (session.encryptPacket primitives plaintext).2.transportKeys =
          session.transportKeys := by
        unfold encryptPacket
        dsimp only
        split <;> rfl
      cases place with
      | zero =>
          have sent : (session.encryptPacket primitives plaintext).1 = .ok packet :=
            Option.some.inj sent
          refine ⟨plaintext, session.sendNonce, rfl, ?_⟩
          unfold encryptPacket at sent
          dsimp only at sent
          split at sent
          · cases sent
          · exact (Except.ok.inj sent).symm
      | succ place =>
          rcases ih (session.encryptPacket primitives plaintext).2 sent with
            ⟨other, nonce, there, packet_eq⟩
          exact ⟨other, nonce, there, keys_eq ▸ packet_eq⟩

section Layout

variable (keys : TransportKeys) (nonce : BitVec 64) (plaintext : List Byte)

theorem packetNonce_transportPacket :
    packetNonce (transportPacket primitives keys nonce plaintext) = nonce.toNat := by
  rw [packetNonce, transportPacket]
  simp only [List.append_assoc]
  simp (disch := simp) only [slice_skip, slice_here, length_toLeBytes, List.length_cons,
    List.length_nil, List.length_replicate, Nat.reduceSub, Nat.reduceAdd, Nat.sub_self]
  exact ofLeBytes_toLeBytes nonce (by decide)

theorem receiverIndex_transportPacket :
    receiverIndex (transportPacket primitives keys nonce plaintext) = keys.recvIndex := by
  rw [receiverIndex, transportPacket]
  simp only [List.append_assoc]
  simp (disch := simp) only [slice_skip, slice_here, List.length_cons, List.length_nil,
    List.length_replicate, Nat.reduceSub, Nat.reduceAdd, Nat.sub_self]
  exact ofNat_ofLeBytes keys.recvIndex (by decide)

theorem drop_transportPacket :
    (transportPacket primitives keys nonce plaintext).drop 16 =
      primitives.aeadEncrypt keys.sendKey nonce.toNat plaintext [] :=
  List.drop_left' (by simp)

end Layout

/-- Whatever of a sender's packets is delivered, in whatever order and however
often, the plaintexts returned are plaintexts sent, none more often than it was
sent. -/
theorem returned_subperm_sent (opens : primitives.Opens) (sender receiver : WireguardSession)
    (mirrored : receiver.transportKeys.recvKey = sender.transportKeys.sendKey)
    (holds : Represents receiver.recvFilter accepted) {plaintexts deliveries : List (List Byte)}
    (sent : ∀ packet ∈ deliveries, .ok packet ∈ (sender.encryptAll primitives plaintexts).1) :
    ∃ outcomes receiver', receiver.decryptAll primitives deliveries = some (outcomes, receiver') ∧
      ((opened deliveries outcomes).map Prod.snd).Subperm plaintexts := by
  rcases decryptAll_spec primitives receiver holds deliveries with
    ⟨outcomes, receiver', all, distinct, each⟩
  refine ⟨outcomes, receiver', all, ?_⟩
  have packets_distinct : ((opened deliveries outcomes).map Prod.fst).Nodup := by
    rw [← List.map_map] at distinct
    exact distinct.of_map _
  refine ReplayWindow.map_snd_subperm_of_places
    (fun place => (sender.encryptAll primitives plaintexts).1[place]?.bind Except.toOption)
    packets_distinct fun delivery member => ?_
  rcases each delivery member with ⟨delivered, _, authentic⟩
  rcases List.mem_iff_getElem?.mp (sent _ delivered) with ⟨place, sent⟩
  rcases encryptAll_cases sender sent with ⟨plaintext, nonce, there, packet_eq⟩
  refine ⟨place, by rw [sent]; rfl, ?_⟩
  rw [packet_eq, packetNonce_transportPacket, drop_transportPacket, mirrored,
    opens.decrypt_encrypt] at authentic
  rw [there, Option.some.inj authentic]

end Runs

/-- The filter answers every nonce after every sequence of nonces as the window
over the accepted ones does, without a panic; a packet that does not
authenticate changes nothing; and whatever is delivered to a new session opens
every nonce at most once, a sender's packets each at most once. -/
theorem replayFilter_exact :
    (∀ (nonces : List Nat) (nonce : Nat), ∃ answers filter filter',
      ReplayFilter.new.checkAll nonces = some (answers, filter) ∧
        filter.checkAndRecord nonce =
          some (decide (Accepts (acceptedNonces nonces answers) nonce), filter')) ∧
      (∀ (primitives : Primitives) (session : WireguardSession) (packet : List Byte),
        primitives.aeadDecrypt session.transportKeys.recvKey (packetNonce packet)
            (packet.drop 16) [] = none →
          ∃ error, session.decryptPacket primitives packet = some (.error error, session)) ∧
      (∀ (primitives : Primitives) (keys : TransportKeys) (deliveries : List (List Byte)),
        ∃ outcomes session', (new keys).decryptAll primitives deliveries =
            some (outcomes, session') ∧
          ((opened deliveries outcomes).map (packetNonce ∘ Prod.fst)).Nodup) ∧
      ∀ (primitives : Primitives), primitives.Opens →
        ∀ (sender : WireguardSession) (keys : TransportKeys),
          keys.recvKey = sender.transportKeys.sendKey →
          ∀ plaintexts deliveries : List (List Byte),
            (∀ packet ∈ deliveries, .ok packet ∈ (sender.encryptAll primitives plaintexts).1) →
            ∃ outcomes session', (new keys).decryptAll primitives deliveries =
                some (outcomes, session') ∧
              ((opened deliveries outcomes).map Prod.snd).Subperm plaintexts := by
  refine ⟨checkAll_new, fun primitives session packet => decryptPacket_unauthenticated, ?_, ?_⟩
  · intro primitives keys deliveries
    rcases decryptAll_spec primitives (new keys) represents_new deliveries with ⟨outcomes, session', all, distinct, _⟩
    exact ⟨outcomes, session', all, distinct⟩
  · intro primitives opens sender keys mirrored plaintexts deliveries sent
    exact returned_subperm_sent opens sender (new keys) mirrored represents_new sent

end WireguardSession

end Corduit.Protocol.WireGuard
