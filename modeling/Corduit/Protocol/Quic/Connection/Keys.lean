import Corduit.Protocol.Quic.Connection.Session

/-!
# Keys that were discarded

HANDSHAKE_DONE discards the keys of the first two spaces.  The handshake keeps
its own copies, and every CRYPTO frame that is accepted copies them into the
Handshake space again when there are none.
-/

namespace Corduit.Protocol.Quic

open Collection Transition Word

/-- The space has no keys. -/
def Space.Keyless {κ : Type} (space : Space κ) : Prop :=
  space.key = none ∧ space.writeKey = none

namespace Connection

variable {κ ξ : Type} {library : TlsLibrary κ ξ} {packets : PacketLibrary κ}
  {conn conn' : Connection κ ξ}

/-- The Initial and Handshake keys are gone. -/
structure Discarded (conn : Connection κ ξ) : Prop where
  initial : (conn.spaces .initial).Keyless
  handshake : (conn.spaces .handshake).Keyless

theorem Discarded.of_untouched (discarded : conn.Discarded) (untouched : conn.Untouched conn') :
    conn'.Discarded := by
  have keys : ∀ space, (conn.spaces space).Keyless → (conn'.spaces space).Keyless := by
    intro space keyless
    rcases keyless with ⟨key, writeKey⟩
    exact ⟨(untouched.spaces space).key.trans key, (untouched.spaces space).writeKey.trans writeKey⟩
  exact ⟨keys .initial discarded.initial, keys .handshake discarded.handshake⟩

theorem discarded_congr (same : conn'.spaces = conn.spaces) :
    conn'.Discarded ↔ conn.Discarded := by
  constructor
  · rintro ⟨initial, handshake⟩
    rw [same] at initial handshake
    exact ⟨initial, handshake⟩
  · rintro ⟨initial, handshake⟩
    rw [← same] at initial handshake
    exact ⟨initial, handshake⟩

theorem discarded_installKeys_iff (discarded : conn.Discarded) :
    conn.installKeys.Discarded ↔ conn.tls.hsRead = none ∧ conn.tls.hsWrite = none := by
  rcases discarded with ⟨initial, key, writeKey⟩
  have initialSpace : conn.installKeys.spaces .initial = conn.spaces .initial := by
    unfold installKeys
    dsimp only
    split
    · rw [spaces_updateSpace_of_ne (by decide), spaces_updateSpace_of_ne (by decide)]
    · rw [spaces_updateSpace_of_ne (by decide)]
  have handshakeSpace : conn.installKeys.spaces .handshake =
      { conn.spaces .handshake with
        writeKey := conn.tls.hsWrite
        key := conn.tls.hsRead } := by
    unfold installKeys
    dsimp only
    split
    · rw [spaces_updateSpace_of_ne (by decide), spaces_updateSpace_self, key, writeKey]
      rfl
    · rw [spaces_updateSpace_self, key, writeKey]
      rfl
  constructor
  · rintro ⟨_, handshake⟩
    rw [handshakeSpace] at handshake
    exact handshake
  · intro absent
    refine ⟨?_, ?_⟩
    · rw [initialSpace]
      exact initial
    · rw [handshakeSpace]
      exact absent

theorem Discarded.updateSpace (discarded : conn.Discarded) {space : PnSpace}
    {change : Space κ → Space κ}
    (kept : (conn.spaces space).Keyless → (change (conn.spaces space)).Keyless) :
    (conn.updateSpace space change).Discarded := by
  have keys : ∀ other, (conn.spaces other).Keyless →
      ((conn.updateSpace space change).spaces other).Keyless := by
    intro other keyless
    by_cases same : other = space
    · rw [same, spaces_updateSpace_self]
      exact kept (same ▸ keyless)
    · rw [spaces_updateSpace_of_ne same]
      exact keyless
  exact ⟨keys .initial discarded.initial, keys .handshake discarded.handshake⟩

theorem Discarded.takeCryptoPending (discarded : conn.Discarded) :
    conn.takeCryptoPending.Discarded := by
  unfold Connection.takeCryptoPending
  dsimp only
  split
  · exact ⟨discarded.initial, discarded.handshake⟩
  · refine Discarded.updateSpace ?_ ?_
    · exact ⟨discarded.initial, discarded.handshake⟩
    · exact fun keyless => keyless

theorem discarded_dropKeys (conn : Connection κ ξ) :
    ((conn.updateSpace .initial Space.dropKeys).updateSpace .handshake Space.dropKeys).Discarded where
  initial := by
    rw [spaces_updateSpace_of_ne (by decide), spaces_updateSpace_self]
    exact ⟨rfl, rfl⟩
  handshake := by
    rw [spaces_updateSpace_self]
    exact ⟨rfl, rfl⟩

theorem hsKeys_takeCryptoPending (conn : Connection κ ξ) :
    conn.takeCryptoPending.tls.hsRead = conn.tls.hsRead ∧
      conn.takeCryptoPending.tls.hsWrite = conn.tls.hsWrite := by
  unfold Connection.takeCryptoPending
  dsimp only
  split
  · exact ⟨rfl, rfl⟩
  · exact ⟨rfl, rfl⟩

/-- The frame is refused, or the handshake has no keys of its own after it. -/
def NoKeysFrom (library : TlsLibrary κ ξ) (conn : Connection κ ξ) (space : PnSpace) (offset : Nat)
    (data : List Byte) : Prop :=
  ∀ waiting consumed tls, overlay (conn.spaces space).cryptoRecv offset data = some waiting →
    conn.tls.consumeCrypto library waiting = (.ok consumed, tls) →
    tls.hsRead = none ∧ tls.hsWrite = none

theorem discarded_onCrypto_iff (discarded : conn.Discarded) (space : PnSpace) (offset : Nat)
    (data : List Byte) :
    (conn.onCrypto library space offset data).2.Discarded ↔
      conn.NoKeysFrom library space offset data := by
  rcases handled : conn.onCrypto library space offset data with ⟨result, conn'⟩
  have waits : ∀ waiting tls, ({ conn.updateSpace space fun before =>
      { before with cryptoRecv := waiting } with tls := tls } : Connection κ ξ).Discarded := by
    intro waiting tls
    have updated := @Discarded.updateSpace _ _ conn discarded space
      (fun before => { before with cryptoRecv := waiting }) id
    exact ⟨updated.initial, updated.handshake⟩
  rcases onCrypto_cases handled with ⟨refused, _, same⟩ |
    ⟨waiting, error, tls, accepted, consumption, _, same⟩ |
    ⟨waiting, consumed, tls, fed, keyed, accepted, consumption, _, feeding, keying, same⟩
  · refine iff_of_true (same ▸ discarded) ?_
    intro waiting consumed tls accepted
    rw [refused] at accepted
    cases accepted
  · refine iff_of_true (same ▸ waits waiting tls) ?_
    intro waiting' consumed' tls' accepted' consumption'
    rw [accepted] at accepted'
    cases accepted'
    rw [consumption] at consumption'
    cases consumption'
  · have fedDiscarded : fed.Discarded := feeding ▸ waits _ tls
    have fedKeys : fed.tls = tls := by rw [feeding]
    have decided := discarded_installKeys_iff fedDiscarded.takeCryptoPending
    rw [← keying, (hsKeys_takeCryptoPending fed).1, (hsKeys_takeCryptoPending fed).2, fedKeys]
      at decided
    have complete : conn'.Discarded ↔ keyed.Discarded := by
      rw [same]
      exact ⟨fun holds => ⟨holds.initial, holds.handshake⟩,
        fun holds => ⟨holds.initial, holds.handshake⟩⟩
    rw [complete, decided]
    constructor
    · intro absent waiting' consumed' tls' accepted' consumption'
      rw [accepted] at accepted'
      cases accepted'
      rw [consumption] at consumption'
      cases consumption'
      exact absent
    · intro absent
      exact absent waiting consumed tls accepted consumption

/-- Discarded, unless the program has stopped. -/
def IsDiscarded : Except Fault (Connection κ ξ) → Prop
  | .ok conn => conn.Discarded
  | .error _ => True

/-- No CRYPTO frame is accepted while the handshake holds keys. -/
def BringsNoKeys (library : TlsLibrary κ ξ) : Except Fault (Connection κ ξ) → ConnOp → Prop
  | .ok conn, .frame space _ (.crypto offset data) => conn.NoKeysFrom library space offset data
  | _, _ => True

theorem discarded_perform_iff (discarded : conn.Discarded) (op : ConnOp) :
    IsDiscarded (conn.perform library packets op) ↔ BringsNoKeys library (.ok conn) op := by
  cases op with
  | act op =>
      refine iff_of_true ?_ trivial
      unfold perform
      dsimp only
      cases acted : conn.act packets op with
      | error fault => trivial
      | ok conn' => exact discarded.of_untouched (.act acted)
  | note space pn =>
      refine iff_of_true ?_ trivial
      unfold perform
      dsimp only
      split
      · exact discarded.updateSpace id
      · exact discarded
  | adopt parsed =>
      refine iff_of_true ?_ trivial
      rcases adoptScid_eq conn parsed with ⟨dcid, adopted⟩
      unfold perform
      dsimp only
      rw [adopted]
      exact ⟨discarded.initial, discarded.handshake⟩
  | frame space clock frame =>
      unfold perform
      dsimp only
      cases processed : conn.processFrame library clock space frame with
      | error fault =>
          refine iff_of_true trivial ?_
          cases frame with
          | crypto offset data => cases processed
          | _ => trivial
      | ok outcome =>
          rcases outcome with ⟨result, conn'⟩
          have settled : IsDiscarded ((Except.ok (result, conn') : Except Fault _).map settle) ↔
              conn'.Discarded := discarded_congr (spaces_settle (result, conn'))
          rw [settled]
          rcases processFrame_cases processed with ⟨offset, data, rfl, handled⟩ |
            ⟨max, rfl, same⟩ | ⟨unidirectional, max, rfl, same⟩ | ⟨rfl, same⟩ |
            ⟨untouched, notCrypto, _⟩
          · have decided := @discarded_onCrypto_iff _ _ library conn discarded space offset data
            rw [handled] at decided
            exact decided
          · exact iff_of_true (same ▸ ⟨discarded.initial, discarded.handshake⟩) trivial
          · exact iff_of_true (same ▸ ⟨discarded.initial, discarded.handshake⟩) trivial
          · refine iff_of_true ?_ trivial
            rw [same]
            exact ⟨(discarded_dropKeys conn).initial, (discarded_dropKeys conn).handshake⟩
          · refine iff_of_true (discarded.of_untouched untouched) ?_
            cases frame with
            | crypto offset data => exact absurd rfl (notCrypto offset data)
            | _ => trivial

/-- After HANDSHAKE_DONE, the keys stay away exactly as long as no CRYPTO frame
is accepted while the handshake holds keys. -/
theorem discarded_keys_stay_iff (library : TlsLibrary κ ξ) (packets : PacketLibrary κ)
    (conn : Connection κ ξ) (space : PnSpace) (clock : Clock) (ops : List ConnOp) :
    RunAlways (advance library packets) IsDiscarded
        (conn.perform library packets (.frame space clock .handshakeDone)) ops ↔
      RunMeets (advance library packets) (BringsNoKeys library)
        (conn.perform library packets (.frame space clock .handshakeDone)) ops := by
  have exactly : ∀ (state : Except Fault (Connection κ ξ)) (op : ConnOp), IsDiscarded state →
      (IsDiscarded (advance library packets state op) ↔ BringsNoKeys library state op) := by
    intro state op discarded
    cases state with
    | error fault => exact iff_of_true trivial trivial
    | ok conn => exact discarded_perform_iff discarded op
  refine runAlways_iff_runMeets IsDiscarded (fun _ discarded => discarded) exactly
    (fun state op discarded meets => (exactly state op discarded).mpr meets) ?_
  exact ⟨(discarded_dropKeys conn).initial, (discarded_dropKeys conn).handshake⟩

/-- The flights of a server, and its HANDSHAKE_DONE. -/
def confirmedHandshake : List ConnOp :=
  [.frame .initial ⟨0, 0, 0⟩ (.crypto 0 Plain.serverHello),
    .frame .handshake ⟨0, 0, 0⟩ (.crypto 0 (Plain.encryptedExtensions ++ Plain.certificate ++
      Plain.certificateVerify ++ Plain.finished)),
    .frame .application ⟨0, 0, 0⟩ .handshakeDone]

theorem key_of_isDiscarded {state : Except Fault (Connection κ ξ)} (discarded : IsDiscarded state)
    (key : κ) : state.map (fun conn => (conn.spaces .handshake).key) ≠ .ok (some key) := by
  cases state with
  | error fault => exact fun impossible => by cases impossible
  | ok conn =>
      intro present
      rw [Except.map, discarded.handshake.1] at present
      cases present

/-- The first bytes of a session ticket bring the Handshake keys back. -/
theorem handshake_keys_return :
    ¬ RunAlways (advance Plain.tls Plain.packets) IsDiscarded
      (run (advance Plain.tls Plain.packets) (.ok Plain.connection) confirmedHandshake)
      [.frame .application ⟨0, 0, 0⟩ (.crypto 0 [4, 0, 0])] := by
  rintro ⟨_, discarded⟩
  refine key_of_isDiscarded discarded () ?_
  rfl

end Connection

end Corduit.Protocol.Quic
