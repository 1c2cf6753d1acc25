import Corduit.Engine.Outbound.Ssr.Protocol
import Corduit.Engine.Outbound.Ssr.RoundTrip

/-!
# Keystreams of ShadowsocksR

The IV of a connection is cut out of the same digests as its key.  Both depend on
the password alone, so every connection with the same settings sends the same IV
and starts its cipher alike, whatever the random source says.
-/

namespace Corduit.Engine.Outbound.Ssr

open Transition Transport Word

/-- An obfuscation, as the stream uses it: its state is built once, and wraps
what is written. -/
structure Obfuscation (ω : Type) where
  new : (serverPort : Nat) → Tape → ω × Tape
  wrap : ω → (buf key : List Byte) → (headLen ivLen : Nat) → Tape → List Byte × ω × Tape

/-- The arguments of `SsrStream::new` that the configuration gives. -/
structure Settings where
  method : SsrMethod
  password : List Byte
  protocol : SsrProtocol
  protocolParam : String
  serverPort : Nat

/-- What differs from one connection to the next: the time and the random source. -/
structure Seed where
  now : BitVec 32
  tape : Tape

/-- The writing half of `SsrStream`, with the rest of its random source. -/
structure SsrWriter (ω : Type) where
  crypto : SsrCrypto
  writeCipher : SsrCipher
  ivSent : Bool := false
  proto : SsrProtocolState
  obfs : ω
  headLen : Nat := 0
  tape : Tape

/-- What a call of `write` makes: the bytes that it hands to the obfuscation, and
those that it sends. -/
structure Packet where
  handed : List Byte
  wire : List Byte

namespace SsrWriter

variable {ω : Type} (sums : Sums) (obfuscation : Obfuscation ω)

/-- The cipher to read with, where the peer sends no IV. -/
def firstReadCipher (crypto : SsrCrypto) : Except Error (Option SsrCipher) :=
  if crypto.method.ivLen = 0 then (crypto.cipher []).map some else .ok none

/-- `SsrStream::new`. -/
def new (settings : Settings) (seed : Seed) : Except Error (SsrWriter ω) := do
  let crypto := SsrCrypto.new settings.method settings.password
  let writeCipher ← crypto.cipher crypto.iv
  let _ ← firstReadCipher crypto
  let (proto, tape) ← SsrProtocolState.new sums settings.protocol crypto.key crypto.iv
    settings.protocolParam seed.now seed.tape
  let (obfs, tape) := obfuscation.new settings.serverPort tape
  return { crypto := crypto, writeCipher := writeCipher, proto := proto, obfs := obfs,
           tape := tape }

/-- `Write::write`, of a buffer that is not empty. -/
def write (stream : SsrWriter ω) (buf : List Byte) : Except IoError (Packet × SsrWriter ω) :=
  match stream.proto.wrap sums buf stream.headLen stream.tape with
  | .error error => .error (otherError error.toText)
  | .ok (framed, proto, tape) =>
      match stream.writeCipher.apply sums.encryptBlock framed with
      | .error text => .error (otherError text)
      | .ok (payload, writeCipher) =>
          let handed := if stream.ivSent then payload else stream.crypto.iv ++ payload
          let (wire, obfs, tape) := obfuscation.wrap stream.obfs handed stream.crypto.key
            stream.headLen stream.crypto.iv.length tape
          .ok (⟨handed, wire⟩,
            { stream with
              proto := proto, writeCipher := writeCipher, ivSent := true, obfs := obfs,
              tape := tape })

/-- The first packet of a connection: `send_header` notes the length of the header
and writes it with what is behind it. -/
def firstPacket (settings : Settings) (seed : Seed) (headLen : Nat) (buf : List Byte) :
    Option Packet :=
  match new sums obfuscation settings seed with
  | .error _ => none
  | .ok stream =>
      match write sums obfuscation { stream with headLen := headLen } buf with
      | .error _ => none
      | .ok (packet, _) => some packet

/-- The IV that a packet begins with. -/
def ivOf (settings : Settings) (packet : Packet) : List Byte :=
  packet.handed.take settings.method.ivLen

/-- Connections with the same settings whose random sources differ send different
IVs. -/
def FreshIvs (settings : Settings) : Prop :=
  ∀ first second : Seed, first.tape ≠ second.tape → ∀ headLen headLen' buf buf' packet packet',
    firstPacket sums obfuscation settings first headLen buf = some packet →
      firstPacket sums obfuscation settings second headLen' buf' = some packet' →
        ivOf settings packet ≠ ivOf settings packet'

/-- The settings are refused: there is no connection. -/
def Refused (settings : Settings) : Prop :=
  ∀ seed, ∃ error, new sums obfuscation settings seed = .error error

variable {sums obfuscation} {settings : Settings}

/-- The parts of a new stream: its key, its IV and its cipher come from the
settings. -/
theorem new_spec {seed : Seed} {stream : SsrWriter ω}
    (opened : new sums obfuscation settings seed = .ok stream) :
    stream.crypto = SsrCrypto.new settings.method settings.password ∧ stream.ivSent = false ∧
      stream.crypto.cipher stream.crypto.iv = .ok stream.writeCipher := by
  rw [new] at opened
  rcases bind_eq_ok_iff.mp opened with ⟨writeCipher, builds, opened⟩
  rcases bind_eq_ok_iff.mp opened with ⟨_, _, opened⟩
  rcases bind_eq_ok_iff.mp opened with ⟨⟨proto, tape⟩, _, opened⟩
  have same := pure_eq_ok_iff.mp opened
  rw [← same]
  exact ⟨rfl, rfl, builds⟩

theorem ivOf_firstPacket {seed : Seed} {headLen : Nat} {buf : List Byte} {packet : Packet}
    (sent : firstPacket sums obfuscation settings seed headLen buf = some packet) :
    ivOf settings packet = (SsrCrypto.new settings.method settings.password).iv := by
  rw [firstPacket] at sent
  cases opened : new sums obfuscation settings seed with
  | error error =>
      rw [opened] at sent
      cases sent
  | ok stream =>
      rcases new_spec opened with ⟨crypto, unsent, _⟩
      rw [opened] at sent
      dsimp only at sent
      rw [write] at sent
      dsimp only at sent
      cases wrapped : stream.proto.wrap sums buf headLen stream.tape with
      | error error =>
          rw [wrapped] at sent
          cases sent
      | ok framed =>
          rw [wrapped] at sent
          dsimp only at sent
          cases applied : stream.writeCipher.apply sums.encryptBlock framed.1 with
          | error text =>
              rw [applied] at sent
              cases sent
          | ok payload =>
              rw [applied] at sent
              cases sent
              have length := SsrCrypto.length_iv settings.method settings.password
              rw [ivOf]
              dsimp only
              rw [unsent, if_neg Bool.false_ne_true, crypto]
              exact List.take_left' length

/-- Whether the user of a protocol can be read does not depend on the random
source. -/
theorem protocolUser_ok {protocol : SsrProtocol} {key : List Byte} {protocolParam : String}
    {tape : Tape} {user : (List Byte × List Byte) × Tape}
    (found : protocolUser sums protocol key protocolParam tape = .ok user) (tape' : Tape) :
    ∃ user', protocolUser sums protocol key protocolParam tape' = .ok user' := by
  unfold protocolUser at found ⊢
  split at found
  · split at found
    · cases found
    · exact ⟨_, rfl⟩
  · exact ⟨_, rfl⟩

variable (sums) in
theorem wrapFirst_ok {state : SsrProtocolState} (twelve : state.authData.length = 12)
    (payload : List Byte) (tape : Tape) :
    ∃ out, state.wrapFirst sums payload tape = .ok out := by
  rw [SsrProtocolState.wrapFirst]
  cases state.protocol with
  | origin => exact ⟨_, rfl⟩
  | authSha1V4 =>
      dsimp only
      by_cases empty : payload = []
      · exact ⟨_, if_pos empty⟩
      · rw [if_neg empty]
        exact ⟨_, rfl⟩
  | authAes128 sha1 =>
      dsimp only
      by_cases empty : payload = []
      · exact ⟨_, if_pos empty⟩
      · rw [if_neg empty]
        have keys : (List.take 16 (evpBytesToKey (sums.base64 state.userKey ++
            SsrProtocolState.aes128Label sha1) 16 16)).length = 16 := by
          rw [List.length_take, length_evpBytesToKey]
          rfl
        have block : ∀ first second : BitVec 16,
            (state.authData ++ toLeBytes 2 first ++ toLeBytes 2 second).length = 16 := by
          intro first second
          rw [List.length_append, List.length_append, twelve, length_toLeBytes, length_toLeBytes]
        rw [SsrProtocolState.cbcBlock, Crypto.Aes.new, if_pos (.inl keys), Crypto.blockOf,
          dif_pos (block _ _)]
        exact ⟨_, rfl⟩

variable (sums) in
/-- A new state writes whatever it is given. -/
theorem wrap_ok {state : SsrProtocolState} (twelve : state.authData.length = 12) (buf : List Byte)
    (headLen : Nat) (tape : Tape) : ∃ out, state.wrap sums buf headLen tape = .ok out := by
  rw [SsrProtocolState.wrap]
  by_cases sent : state.sentHeader = true
  · exact ⟨_, if_pos sent⟩
  · rw [if_neg sent]
    dsimp only
    have same : ({ state with sentHeader := true } : SsrProtocolState).authData.length = 12 := twelve
    rcases wrapFirst_ok sums same
      (buf.take (min buf.length (headLen + (randBelow 32 tape).1))) (randBelow 32 tape).2 with
      ⟨out, first⟩
    rw [first]
    exact ⟨_, rfl⟩

variable (fits : settings.method.Fits) {seed : Seed} {stream : SsrWriter ω}
  (opened : new sums obfuscation settings seed = .ok stream)

include fits opened

/-- Settings that open one connection open every other, and its first packet is
sent. -/
theorem firstPacket_of_opens (seed' : Seed) (headLen : Nat) (buf : List Byte) :
    ∃ packet, firstPacket sums obfuscation settings seed' headLen buf = some packet := by
  have length := SsrCrypto.length_iv settings.method settings.password
  rcases SsrCrypto.cipher_initial fits settings.password length with ⟨cipher, builds, initial⟩
  rw [new] at opened
  rcases bind_eq_ok_iff.mp opened with ⟨_, _, opened⟩
  rcases bind_eq_ok_iff.mp opened with ⟨reading, readable, opened⟩
  rcases bind_eq_ok_iff.mp opened with ⟨_, proto, _⟩
  rw [SsrProtocolState.new] at proto
  rcases bind_eq_ok_iff.mp proto with ⟨user, found, _⟩
  rcases protocolUser_ok found seed'.tape with ⟨user', found'⟩
  rcases user' with ⟨⟨uid, userKey⟩, tape⟩
  have again : ∃ stream', new sums obfuscation settings seed' = .ok stream' ∧
      stream'.writeCipher = cipher ∧ stream'.proto.authData.length = 12 := by
    rw [new]
    refine ⟨_, bind_eq_ok_iff.mpr ⟨cipher, builds, bind_eq_ok_iff.mpr ⟨reading, readable,
      bind_eq_ok_iff.mpr ⟨_, bind_eq_ok_iff.mpr ⟨_, found', rfl⟩, rfl⟩⟩⟩, rfl, ?_⟩
    dsimp only
    rw [authData, List.length_append, List.length_append, length_toLeBytes, length_toLeBytes,
      List.length_map, List.length_range]
  rcases again with ⟨stream', opens, cipher_eq, twelve⟩
  rcases wrap_ok sums twelve buf headLen stream'.tape with ⟨⟨framed, proto', tape'⟩, wrapped⟩
  have lasts : SsrCipher.Lasts sums.encryptBlock cipher 1 :=
    initial.lasts fun _ => Nat.succ_le_succ (Nat.zero_le _)
  rw [firstPacket, opens]
  dsimp only
  rw [write]
  dsimp only
  rw [wrapped, cipher_eq]
  dsimp only
  rw [lasts.apply Nat.one_pos]
  exact ⟨_, rfl⟩

theorem not_freshIvs :
    ¬FreshIvs sums obfuscation settings := by
  intro fresh
  let first : Seed := ⟨0, fun _ => 0⟩
  let second : Seed := ⟨0, fun _ => 1⟩
  have apart : first.tape ≠ second.tape := fun same =>
    absurd (congrFun same 0) (by decide : (0 : Byte) ≠ 1)
  rcases firstPacket_of_opens fits opened first 0 [0] with ⟨packet, sent⟩
  rcases firstPacket_of_opens fits opened second 0 [0] with ⟨packet', sent'⟩
  refine fresh first second apart 0 0 [0] [0] packet packet' sent sent' ?_
  rw [ivOf_firstPacket sent, ivOf_firstPacket sent']

end SsrWriter

/-- No two connections with the same settings differ in the IV that they send, nor
in the cipher that they start with; IVs are fresh only for settings that open no
connection at all. -/
theorem ivs_fresh_iff_refused {ω : Type} (sums : Sums) (obfuscation : Obfuscation ω)
    {settings : Settings} {name : String}
    (accepted : SsrMethod.parse name = .ok settings.method) :
    (SsrWriter.FreshIvs sums obfuscation settings ↔
      SsrWriter.Refused sums obfuscation settings) ∧
    (∀ first second stream stream',
      SsrWriter.new sums obfuscation settings first = .ok stream →
        SsrWriter.new sums obfuscation settings second = .ok stream' →
          stream.crypto = stream'.crypto ∧ stream.writeCipher = stream'.writeCipher) ∧
    ∀ seed headLen buf packet,
      SsrWriter.firstPacket sums obfuscation settings seed headLen buf = some packet →
        SsrWriter.ivOf settings packet =
          (SsrCrypto.new settings.method settings.password).iv := by
  have fits := SsrMethod.fits_of_parse accepted
  refine ⟨⟨?_, ?_⟩, ?_, fun seed headLen buf packet sent => SsrWriter.ivOf_firstPacket sent⟩
  · intro fresh seed
    cases opened : SsrWriter.new sums obfuscation settings seed with
    | error error => exact ⟨error, rfl⟩
    | ok stream => exact absurd fresh (SsrWriter.not_freshIvs fits opened)
  · intro refused first second _ headLen _ buf _ packet _ sent
    rcases refused first with ⟨error, opened⟩
    rw [SsrWriter.firstPacket, opened] at sent
    cases sent
  · intro first second stream stream' opened opened'
    rcases SsrWriter.new_spec opened with ⟨crypto, _, builds⟩
    rcases SsrWriter.new_spec opened' with ⟨crypto', _, builds'⟩
    rw [crypto] at builds
    rw [crypto', builds] at builds'
    exact ⟨crypto.trans crypto'.symm, Except.ok.inj builds'⟩

namespace Shared

/-- Hash functions that keep their text. -/
def sums : Sums where
  crc32 _ := 0
  adler32 _ := 0
  sha1 bytes := bytes
  md5 bytes := bytes
  hmacSha1 key data := Octets.written 64 (key ++ data)
  hmacMd5 key data := Octets.written 64 (key ++ data)
  base64 bytes := bytes
  encryptBlock _ block := block

/-- The obfuscation `plain`. -/
def plain : Obfuscation Unit where
  new _ tape := ((), tape)
  wrap _ buf _ _ _ tape := (buf, (), tape)

/-- `rc4-md5` with the protocol `origin` and the password `pass`. -/
def settings : Settings where
  method := ⟨16, 16, .rc4Md5⟩
  password := ascii "pass"
  protocol := .origin
  protocolParam := ""
  serverPort := 443

theorem opens : ∃ stream, SsrWriter.new sums plain settings ⟨0, fun _ => 0⟩ = .ok stream :=
  ⟨_, rfl⟩

end Shared

theorem ivs_not_fresh_plain : ¬SsrWriter.FreshIvs Shared.sums Shared.plain Shared.settings := by
  rcases Shared.opens with ⟨stream, opened⟩
  exact SsrWriter.not_freshIvs rfl opened

theorem ivs_fresh_iff_refused_plain :
    SsrMethod.parse "rc4-md5" = .ok Shared.settings.method ∧
      (SsrWriter.FreshIvs Shared.sums Shared.plain Shared.settings ↔
        SsrWriter.Refused Shared.sums Shared.plain Shared.settings) :=
  have accepted : SsrMethod.parse "rc4-md5" = .ok Shared.settings.method := by
    decide +kernel
  ⟨accepted, (ivs_fresh_iff_refused Shared.sums Shared.plain accepted).1⟩

end Corduit.Engine.Outbound.Ssr
