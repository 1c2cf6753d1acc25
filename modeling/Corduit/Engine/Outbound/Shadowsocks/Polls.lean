import Corduit.Engine.Outbound.Shadowsocks.Core

/-!
# Shadowsocks streams over a transport that runs out of time

A reader keeps what it has read between its calls when a read of the transport
fails before the first byte of a chunk.  When it fails later, the bytes before
are gone, and the reader is no longer at any place of the peer's stream.
-/

namespace Corduit.Engine.Outbound.Shadowsocks

open Crypto Transition Transport Word

variable {primitives : Primitives}

/-- What a peer sends: a salt and chunks. -/
structure Peer where
  cipherType : CipherType
  password : List Byte
  salt : List Byte
  chunks : List (List Byte)
  salted : salt.length = cipherType.spec.saltLen
  sized : ∀ data ∈ chunks, Chunk data

namespace Peer

/-- The text of the chunks. -/
def text (peer : Peer) : List Byte :=
  peer.chunks.flatten

variable (primitives) (peer : Peer)

/-- The cipher that the salt gives. -/
def cipher : AeadCipher :=
  AeadCipher.new peer.cipherType.spec
    (deriveSubkeyForCipher primitives peer.password peer.salt peer.cipherType.spec)

/-- The wire from the chunk with this index on. -/
def wireFrom (index : Nat) : List Byte :=
  chunksFrom primitives (peer.cipher primitives) (2 * index) (peer.chunks.drop index)

/-- The whole stream. -/
def wire : List Byte :=
  peer.salt ++ peer.wireFrom primitives 0

variable {primitives peer}

theorem tagLen_cipher : (peer.cipher primitives).tagLen = 16 := by
  rw [cipher, AeadCipher.new]
  cases peer.cipherType <;> rfl

theorem wireFrom_of_lt {index : Nat} (less : index < peer.chunks.length) :
    peer.wireFrom primitives index =
      nthChunk primitives (peer.cipher primitives) (2 * index) peer.chunks[index] ++
        peer.wireFrom primitives (index + 1) := by
  rw [wireFrom, List.drop_eq_getElem_cons less, chunksFrom]
  rfl

theorem wireFrom_length : peer.wireFrom primitives peer.chunks.length = [] := by
  rw [wireFrom, List.drop_length, chunksFrom]

theorem drop_of_lt {index : Nat} (less : index < peer.chunks.length) :
    (peer.chunks.drop index).flatten =
      peer.chunks[index] ++ (peer.chunks.drop (index + 1)).flatten := by
  rw [List.drop_eq_getElem_cons less, List.flatten_cons]

theorem length_wireFrom_le (primitives : Primitives) {index later : Nat} (order : index ≤ later)
    (within : later ≤ peer.chunks.length) :
    (peer.wireFrom primitives later).length ≤ (peer.wireFrom primitives index).length := by
  induction later, order using Nat.le_induction with
  | base => exact Nat.le_refl _
  | succ later order ih =>
      refine Nat.le_trans ?_ (ih (Nat.le_of_succ_le within))
      rw [wireFrom_of_lt within, List.length_append]
      exact Nat.le_add_left _ _

end Peer

namespace ShadowsocksStream

/-- The reader is at some place of the peer's stream: before the salt, or at a
chunk with a nonce for each of the units that were opened. -/
inductive Place (primitives : Primitives) (peer : Peer) (stream : ShadowsocksStream) :
    (index : Nat) → Prop
  | salt (fresh : stream.dec = none) (wire : stream.inner.wire = peer.wire primitives) :
      Place primitives peer stream 0
  | chunk {index : Nat} (within : index ≤ peer.chunks.length)
      (dec : stream.dec = some ((peer.cipher primitives).behind (2 * index)))
      (wire : stream.inner.wire = peer.wireFrom primitives index) :
      Place primitives peer stream index

/-- No byte that was taken off the transport is lost. -/
def InStep (primitives : Primitives) (peer : Peer) (stream : ShadowsocksStream) : Prop :=
  ∃ index, Place primitives peer stream index

/-- The sizes that the next chunk is read in: the length, and the text that the
length announces. -/
def chunkSizes (primitives : Primitives) (dec : AeadCipher) (wire : List Byte) : List Nat :=
  match (dec.decrypt primitives (wire.take (2 + dec.tagLen))).1 with
  | .ok lenPlain => [2 + dec.tagLen, ofBeBytes lenPlain + dec.tagLen]
  | .error _ => [2 + dec.tagLen]

/-- The sizes that a call reads the transport in. -/
def sizes (primitives : Primitives) (stream : ShadowsocksStream) : List Nat :=
  match stream.dec with
  | some dec => chunkSizes primitives dec stream.inner.wire
  | none =>
      let saltLen := stream.cipherSpec.saltLen
      saltLen :: chunkSizes primitives
        (AeadCipher.new stream.cipherSpec (deriveSubkeyForCipher primitives stream.password
          (stream.inner.wire.take saltLen) stream.cipherSpec))
        (stream.inner.wire.drop saltLen)

/-- Where the transport may fail: before the first byte, or behind the salt. -/
def Harmless (stream : ShadowsocksStream) (taken : Nat) : Prop :=
  taken = 0 ∨ stream.dec = none ∧ taken = stream.cipherSpec.saltLen

/-- When a call reads the transport, it does not fail inside of the salt, nor
behind the first byte of a chunk. -/
def Punctual (primitives : Primitives) (stream : ShadowsocksStream) : Prop :=
  stream.readBuffer.length ≤ stream.readPos → stream.eof = false →
    ∀ taken, stream.inner.failsAfter (stream.sizes primitives) = some taken → stream.Harmless taken

/-- The errors are those of reads that ran out of time. -/
def Elapses (allowed : IoError → Prop) : Prop :=
  ∀ error, allowed error → error.kind.isReadIntervalElapsed = true

theorem Elapses.idles {allowed : IoError → Prop} (elapses : Elapses allowed) {polls : List Poll}
    (raises : Raises polls allowed) : Idles polls :=
  fun error member => elapses error (raises error member)

/-- The text that is ahead of a reader. -/
structure Ahead (primitives : Primitives) (allowed : IoError → Prop) (peer : Peer) (stream : ShadowsocksStream)
    (text : List Byte) : Prop where
  raises : Raises stream.inner.polls allowed
  spec : stream.cipherSpec = peer.cipherType.spec
  password : stream.password = peer.password
  place : ∃ index, Place primitives peer stream index ∧
    (stream.eof = true → index = peer.chunks.length ∧ stream.inner.wire = []) ∧
    text = stream.readBuffer.drop stream.readPos ++ (peer.chunks.drop index).flatten

theorem Ahead.inStep {allowed : IoError → Prop} {peer : Peer} {stream : ShadowsocksStream} {text : List Byte}
    (ahead : Ahead primitives allowed peer stream text) : InStep primitives peer stream := by
  rcases ahead.place with ⟨index, place, _⟩
  exact ⟨index, place⟩

variable {allowed : IoError → Prop} {peer : Peer} {stream : ShadowsocksStream} {text : List Byte} {index taken : Nat}

theorem not_inStep_of_inside {dec : AeadCipher} (known : stream.dec = some dec)
    (less : index < peer.chunks.length)
    (shorter : stream.inner.wire.length < (peer.wireFrom primitives index).length)
    (longer : (peer.wireFrom primitives (index + 1)).length < stream.inner.wire.length) :
    ¬ InStep primitives peer stream := by
  rintro ⟨other, place⟩
  cases place with
  | salt fresh _ =>
      rw [fresh] at known
      cases known
  | chunk within _ wire =>
      rw [wire] at shorter longer
      by_cases order : other ≤ index
      · have bound := Peer.length_wireFrom_le primitives order (Nat.le_of_lt less)
        omega
      · have order' : index + 1 ≤ other := Nat.lt_of_not_le order
        have bound := Peer.length_wireFrom_le primitives order' within
        omega

theorem not_inStep_of_odd
    (dec : stream.dec = some ((peer.cipher primitives).behind (2 * index + 1))) :
    ¬ InStep primitives peer stream := by
  rintro ⟨other, place⟩
  cases place with
  | salt fresh _ =>
      rw [fresh] at dec
      cases dec
  | chunk _ dec' _ =>
      have same := congrArg AeadCipher.counter (Option.some.inj (dec'.symm.trans dec))
      have values := congrArg BitVec.toNat same
      dsimp only [AeadCipher.behind] at values
      rw [BitVec.toNat_ofNat, BitVec.toNat_ofNat] at values
      omega

theorem not_inStep_of_inSalt (fresh : stream.dec = none)
    (shorter : stream.inner.wire.length < (peer.wire primitives).length) :
    ¬ InStep primitives peer stream := by
  rintro ⟨other, place⟩
  cases place with
  | salt _ wire =>
      rw [wire] at shorter
      exact Nat.lt_irrefl _ shorter
  | chunk _ dec _ =>
      rw [fresh] at dec
      cases dec

/-- What the calls deliver by: they are idle when a bounded read ran out of time,
and over behind the last byte. -/
def terms (primitives : Primitives) (allowed : IoError → Prop) (peer : Peer) :
    Terms ShadowsocksStream where
  idle := allowed
  ahead := Ahead primitives allowed peer
  effort stream := stream.inner.polls.length
  ended stream := stream.inner.wire = []

/-- What became of fetching a chunk: the text is over, there is a chunk, or the
transport paused; or it failed where it harms. -/
inductive Fetched (primitives : Primitives) (allowed : IoError → Prop) (peer : Peer)
    (stream : ShadowsocksStream)
    (text : List Byte) :
    Except IoError (Option (List Byte)) × ShadowsocksStream → (harmless : Prop) → Prop
  | ended {next : ShadowsocksStream} (none : text = [])
      (ahead : Ahead primitives allowed peer { next with eof := true } text)
      (used : next.inner.polls.length ≤ stream.inner.polls.length)
      (left : next.inner.wire = []) :
      Fetched primitives allowed peer stream text (.ok Option.none, next) True
  | chunk {next : ShadowsocksStream} {data : List Byte} (some : data ≠ [])
      (ahead : Ahead primitives allowed peer { next with readBuffer := data, readPos := 0 } text)
      (used : next.inner.polls.length ≤ stream.inner.polls.length)
      (shorter : next.inner.wire.length < stream.inner.wire.length) :
      Fetched primitives allowed peer stream text (.ok (Option.some data), next) True
  | paused {next : ShadowsocksStream} {error : IoError}
      (idle : allowed error)
      (ahead : Ahead primitives allowed peer next text)
      (used : next.inner.polls.length < stream.inner.polls.length) :
      Fetched primitives allowed peer stream text (.error error, next) True
  | lost {next : ShadowsocksStream} {error : IoError} (out : ¬ InStep primitives peer next) :
      Fetched primitives allowed peer stream text (.error error, next) False

theorem chunkSizes_nthChunk (opens : primitives.Opens) {cipher : AeadCipher}
    (tag : cipher.tagLen = 16) {data : List Byte} (chunk : Chunk data) (count : Nat)
    (rest : List Byte) :
    chunkSizes primitives (cipher.behind count) (nthChunk primitives cipher count data ++ rest) =
      [18, data.length + 16] := by
  have tag_eq : (cipher.behind count).tagLen = 16 := tag
  have first_length : (cipher.nth primitives count (lengthField data)).length = 18 := by
    rw [AeadCipher.length_nth opens, lengthField, length_toBeBytes]
  rw [chunkSizes, tag_eq, nthChunk, List.append_assoc, List.take_left' first_length,
    AeadCipher.decrypt_nth opens]
  dsimp only
  rw [chunk.lengthField]

theorem two_add_tagLen (count : Nat) :
    2 + ((peer.cipher primitives).behind count).tagLen = 18 := by
  change 2 + (peer.cipher primitives).tagLen = 18
  rw [Peer.tagLen_cipher]

theorem fetched_end (elapses : Elapses allowed)
    (raises : Raises stream.inner.polls allowed)
    (spec : stream.cipherSpec = peer.cipherType.spec) (password : stream.password = peer.password)
    (nothing : stream.readBuffer.drop stream.readPos = []) {dec : AeadCipher}
    (dec_eq : dec = (peer.cipher primitives).behind (2 * peer.chunks.length))
    (wire : stream.inner.wire = [])
    {result : Except IoError (Option (List Byte))} {inner : Incoming} {dec' : AeadCipher}
    (received : recvDecryptedChunk primitives stream.inner dec = (result, inner, dec')) :
    Fetched primitives allowed peer stream [] (result, { stream with inner := inner, dec := some dec' })
      True := by
  have tag : 2 + dec.tagLen = 18 := dec_eq ▸ two_add_tagLen _
  have inner_eq : stream.inner = ⟨[], stream.inner.polls⟩ := by rw [← wire]
  have text_eq : [] = stream.readBuffer.drop stream.readPos ++
      (peer.chunks.drop peer.chunks.length).flatten := by
    rw [nothing, List.drop_length]
    rfl
  rw [recvDecryptedChunk, tag, inner_eq] at received
  rcases Incoming.readExact_cases ⟨[], stream.inner.polls⟩ (by decide : 0 < 18) with
    ⟨_, _, enough, _⟩ | ⟨polls, read, _, suffix⟩ | ⟨count, error, polls, read, _, _, _, suffix⟩
  · exact absurd enough (Nat.not_le_of_lt (Nat.succ_pos 17))
  · rw [read] at received
    cases received
    exact Fetched.ended rfl
      ⟨raises.suffix suffix, spec, password, _,
        Place.chunk (Nat.le_refl _) (congrArg some dec_eq) Peer.wireFrom_length.symm,
        fun _ => ⟨rfl, rfl⟩, text_eq⟩
      suffix.length_le rfl
  · rw [read] at received
    dsimp only at received
    rw [if_neg (not_eof_of_idles (elapses.idles raises) suffix), List.drop_nil] at received
    cases received
    have idle := raises error (suffix.subset List.mem_cons_self)
    exact Fetched.paused idle
      ⟨raises.suffix ((List.suffix_cons _ polls).trans suffix), spec, password, _,
        Place.chunk (Nat.le_refl _) (congrArg some dec_eq) Peer.wireFrom_length.symm,
        fun _ => ⟨rfl, rfl⟩, text_eq⟩
      suffix.length_le

theorem fetched_chunk (opens : primitives.Opens) (elapses : Elapses allowed)
    (raises : Raises stream.inner.polls allowed)
    (spec : stream.cipherSpec = peer.cipherType.spec) (password : stream.password = peer.password)
    (open_ : stream.eof = false) (nothing : stream.readBuffer.drop stream.readPos = [])
    (within : index < peer.chunks.length)
    (wire : stream.inner.wire = peer.wireFrom primitives index)
    (text_eq : text = (peer.chunks.drop index).flatten)
    {result : Except IoError (Option (List Byte))} {inner : Incoming} {dec' : AeadCipher}
    (received : recvDecryptedChunk primitives stream.inner
      ((peer.cipher primitives).behind (2 * index)) = (result, inner, dec')) :
    Fetched primitives allowed peer stream text (result, { stream with inner := inner, dec := some dec' })
      (∀ taken, stream.inner.failsAfter (chunkSizes primitives
        ((peer.cipher primitives).behind (2 * index)) stream.inner.wire) = some taken →
          taken = 0) := by
  have chunk := peer.sized _ (List.getElem_mem within)
  have split := Peer.drop_of_lt within
  rw [Peer.wireFrom_of_lt within] at wire
  have inner_eq : stream.inner = ⟨nthChunk primitives (peer.cipher primitives) (2 * index)
      peer.chunks[index] ++ peer.wireFrom primitives (index + 1), stream.inner.polls⟩ := by
    rw [← wire]
  have cases := received_recvDecryptedChunk opens (@Peer.tagLen_cipher primitives peer)
    chunk (2 * index) (peer.wireFrom primitives (index + 1)) (elapses.idles raises)
  rw [wire, chunkSizes_nthChunk opens Peer.tagLen_cipher chunk]
  rw [← inner_eq, received] at cases
  generalize stream.inner.failsAfter [18, peer.chunks[index].length + 16] = failing at cases
  have whole_length := congrArg List.length wire
  rw [List.length_append, length_nthChunk opens] at whole_length
  cases cases with
  | @whole later suffix =>
      rw [eq_true (fun _ impossible => nomatch impossible)]
      refine Fetched.chunk chunk.nonempty ⟨raises.suffix suffix, spec, password, index + 1,
        Place.chunk within rfl rfl, fun past => absurd past (by simp [open_]), ?_⟩
        suffix.length_le ?_
      · rw [text_eq, split, List.drop_zero]
      · dsimp only
        omega
  | @before error later suffix =>
      rw [eq_true (fun taken same => (Option.some.inj same).symm)]
      refine Fetched.paused (raises error (suffix.subset List.mem_cons_self))
        ⟨raises.suffix ((List.suffix_cons _ later).trans suffix), spec, password, index,
          Place.chunk (Nat.le_of_lt within) rfl (Peer.wireFrom_of_lt within).symm,
          fun past => absurd past (by simp [open_]), ?_⟩ suffix.length_le
      rw [text_eq, nothing, List.nil_append]
  | @inLength error later taken suffix positive short =>
      have harmful : ¬ ∀ other, some taken = some other → other = 0 :=
        fun harmless => Nat.ne_of_gt positive (harmless taken rfl)
      rw [eq_false harmful]
      refine Fetched.lost (not_inStep_of_inside rfl within ?_ ?_)
      · dsimp only
        rw [Peer.wireFrom_of_lt within, List.length_drop, List.length_append,
          length_nthChunk opens]
        omega
      · dsimp only
        rw [List.length_drop, List.length_append, length_nthChunk opens]
        omega
  | @inText error later taken suffix short =>
      have harmful : ¬ ∀ other, some (18 + taken) = some other → other = 0 :=
        fun harmless => absurd (harmless (18 + taken) rfl) (by omega)
      rw [eq_false harmful]
      exact Fetched.lost (not_inStep_of_odd rfl)

/-- The transport fails nowhere, or where it does no harm. -/
def Spared (primitives : Primitives) (stream : ShadowsocksStream) : Prop :=
  ∀ taken, stream.inner.failsAfter (stream.sizes primitives) = some taken → stream.Harmless taken

theorem fetched_recv (opens : primitives.Opens) (elapses : Elapses allowed)
    (raises : Raises stream.inner.polls allowed)
    (spec : stream.cipherSpec = peer.cipherType.spec) (password : stream.password = peer.password)
    (open_ : stream.eof = false) (nothing : stream.readBuffer.drop stream.readPos = [])
    (within : index ≤ peer.chunks.length)
    (wire : stream.inner.wire = peer.wireFrom primitives index)
    (text_eq : text = (peer.chunks.drop index).flatten)
    {result : Except IoError (Option (List Byte))} {inner : Incoming} {dec' : AeadCipher}
    (received : recvDecryptedChunk primitives stream.inner
      ((peer.cipher primitives).behind (2 * index)) = (result, inner, dec')) :
    Fetched primitives allowed peer stream text (result, { stream with inner := inner, dec := some dec' })
      (∀ taken, stream.inner.failsAfter (chunkSizes primitives
        ((peer.cipher primitives).behind (2 * index)) stream.inner.wire) = some taken →
          taken = 0) := by
  rcases Nat.lt_or_eq_of_le within with less | rfl
  · exact fetched_chunk opens elapses raises spec password open_ nothing less wire text_eq received
  · rw [Peer.wireFrom_length] at wire
    rw [List.drop_length] at text_eq
    subst text_eq
    have harmless : ∀ taken, stream.inner.failsAfter (chunkSizes primitives
        ((peer.cipher primitives).behind (2 * peer.chunks.length)) stream.inner.wire) =
          some taken → taken = 0 := by
      have inner_eq : stream.inner = ⟨[], stream.inner.polls⟩ := by rw [← wire]
      intro taken failed
      rw [chunkSizes, two_add_tagLen] at failed
      rw [inner_eq] at failed
      split at failed
      · exact Incoming.failsAfter_nil (by decide) failed
      · exact Incoming.failsAfter_nil (by decide) failed
    rw [eq_true harmless]
    exact fetched_end elapses raises spec password nothing rfl wire received

theorem Fetched.behind {earlier : ShadowsocksStream}
    {result : Except IoError (Option (List Byte)) × ShadowsocksStream} {harmless : Prop}
    (fetched : Fetched primitives allowed peer stream text result harmless)
    (used : stream.inner.polls.length ≤ earlier.inner.polls.length)
    (shorter : stream.inner.wire.length ≤ earlier.inner.wire.length) :
    Fetched primitives allowed peer earlier text result harmless := by
  cases fetched with
  | ended none ahead used' left => exact Fetched.ended none ahead (used'.trans used) left
  | chunk some ahead used' shorter' =>
      exact Fetched.chunk some ahead (used'.trans used) (Nat.lt_of_lt_of_le shorter' shorter)
  | paused idle ahead used' => exact Fetched.paused idle ahead (Nat.lt_of_lt_of_le used' used)
  | lost out => exact Fetched.lost out

theorem saltLen_pos (cipherType : CipherType) : 0 < cipherType.spec.saltLen := by
  cases cipherType <;> decide

section

variable (opens : primitives.Opens) (elapses : Elapses allowed)
  (ahead : Ahead primitives allowed peer stream text) (open_ : stream.eof = false)
  (nothing : stream.readBuffer.drop stream.readPos = [])

include opens elapses ahead open_ nothing

theorem fetched_salt (fresh : stream.dec = none) (wire : stream.inner.wire = peer.wire primitives)
    (text_eq : text = peer.chunks.flatten) :
    Fetched primitives allowed peer stream text (stream.receive primitives) (stream.Spared primitives) := by
  have salted := peer.salted
  have positive := saltLen_pos peer.cipherType
  rcases ahead with ⟨raises, spec, password, _⟩
  rcases stream with ⟨inner, enc, dec, key, cipherSpec, readBuffer, readPos, eof⟩
  dsimp only at raises spec password open_ nothing fresh wire
  subst fresh spec password
  have inner_eq : inner = ⟨peer.salt ++ peer.wireFrom primitives 0, inner.polls⟩ := by
    rw [← Peer.wire, ← wire]
  have sizes_eq : sizes primitives ⟨inner, enc, none, peer.password, peer.cipherType.spec, readBuffer,
      readPos, eof⟩ = peer.cipherType.spec.saltLen ::
        chunkSizes primitives ((peer.cipher primitives).behind 0) (peer.wireFrom primitives 0) := by
    rw [sizes]
    dsimp only
    rw [wire, Peer.wire, List.take_left' salted, List.drop_left' salted]
    rfl
  rw [receive, readSalt, Spared, sizes_eq]
  dsimp only [Harmless]
  rw [Incoming.failsAfter]
  simp only [true_and]
  rcases Incoming.readExact_cases inner positive with
    ⟨polls, read, _, suffix⟩ | ⟨_, _, less, _⟩ | ⟨taken, error, polls, read, short, there, _, suffix⟩
  · rw [wire, Peer.wire, List.take_left' salted, List.drop_left' salted] at read
    rw [read]
    dsimp only
    generalize received : recvDecryptedChunk primitives ⟨peer.wireFrom primitives 0, polls⟩
      (AeadCipher.new peer.cipherType.spec (deriveSubkeyForCipher primitives peer.password peer.salt
        peer.cipherType.spec)) = triple
    rcases triple with ⟨result, inner', dec'⟩
    have fetched := @fetched_recv primitives allowed peer ⟨⟨peer.wireFrom primitives 0, polls⟩, enc,
      some (peer.cipher primitives), peer.password, peer.cipherType.spec, readBuffer, readPos, eof⟩
      text 0 opens elapses (raises.suffix suffix) rfl rfl open_ nothing (Nat.zero_le _) rfl text_eq result
      inner' dec' received
    have same : (∀ taken, Incoming.failsAfter ⟨peer.wireFrom primitives 0, polls⟩
          (chunkSizes primitives ((peer.cipher primitives).behind 0)
            (peer.wireFrom primitives 0)) = some taken → taken = 0) ↔
        ∀ taken, (Incoming.failsAfter ⟨peer.wireFrom primitives 0, polls⟩
          (chunkSizes primitives ((peer.cipher primitives).behind 0)
            (peer.wireFrom primitives 0))).map (peer.cipherType.spec.saltLen + ·) = some taken →
          taken = 0 ∨ taken = peer.cipherType.spec.saltLen := by
      generalize Incoming.failsAfter ⟨peer.wireFrom primitives 0, polls⟩
        (chunkSizes primitives ((peer.cipher primitives).behind 0)
          (peer.wireFrom primitives 0)) = failing
      cases failing with
      | none => simp
      | some taken =>
          simp only [Option.map_some, Option.some.injEq, forall_eq']
          omega
    rw [← propext same]
    refine fetched.behind suffix.length_le ?_
    rw [inner_eq, List.length_append]
    exact Nat.le_add_left _ _
  · rw [inner_eq, List.length_append, salted] at less
    omega
  · rw [read]
    dsimp only
    rw [if_neg (not_eof_of_idles (elapses.idles raises) suffix), List.length_drop,
      Nat.sub_sub_self there]
    by_cases nothing' : taken = 0
    · subst nothing'
      have harmless : ∀ taken, some 0 = some taken →
          taken = 0 ∨ taken = peer.cipherType.spec.saltLen :=
        fun taken same => Or.inl (Option.some.inj same).symm
      rw [eq_true harmless]
      exact Fetched.paused (raises error (suffix.subset List.mem_cons_self))
        ⟨raises.suffix ((List.suffix_cons _ polls).trans suffix), rfl, rfl, 0,
          Place.salt rfl wire, fun past => absurd past (by simp [open_]), by rw [nothing]; exact text_eq⟩
        suffix.length_le
    · have harmful : ¬ ∀ other, some taken = some other →
          other = 0 ∨ other = peer.cipherType.spec.saltLen := by
        intro harmless
        have bounds := harmless taken rfl
        omega
      rw [eq_false harmful]
      refine Fetched.lost (not_inStep_of_inSalt rfl ?_)
      dsimp only
      rw [List.length_drop, wire]
      rw [wire] at there
      omega

theorem fetched_receive :
    Fetched primitives allowed peer stream text (stream.receive primitives) (stream.Spared primitives) := by
  rcases ahead.place with ⟨index, place, past, text_eq⟩
  rw [nothing, List.nil_append] at text_eq
  cases place with
  | salt fresh wire => exact fetched_salt opens elapses ahead open_ nothing fresh wire text_eq
  | chunk within dec wire =>
      have harmless_iff : ∀ taken, stream.Harmless taken ↔ taken = 0 := by
        intro taken
        simp [Harmless, dec]
      rw [receive, readSalt, dec, Spared, sizes, dec]
      simp only [harmless_iff]
      generalize received : recvDecryptedChunk primitives stream.inner
        ((peer.cipher primitives).behind (2 * index)) = triple
      rcases triple with ⟨result, inner, dec'⟩
      exact fetched_recv opens elapses ahead.raises ahead.spec ahead.password open_ nothing within wire
        text_eq received

end

variable {room before : Nat}

theorem turn_buffered (ahead : Ahead primitives allowed peer stream text)
    (some : stream.readPos < stream.readBuffer.length)
    (used : stream.inner.polls.length ≤ before) :
    (stream.turn primitives room).Meets
      (fun next => Ahead primitives allowed peer next text ∧ next.inner.polls.length ≤ before ∧
        next.Punctual primitives)
      (fun next => next.inner.wire.length) (Delivery (terms primitives allowed peer) text room before)
      stream.inner.wire.length := by
  rcases ahead with ⟨raises, spec, password, index, place, past, text_eq⟩
  have length : (slice stream.readBuffer stream.readPos
      (min (stream.readBuffer.length - stream.readPos) room)).length =
      min (stream.readBuffer.length - stream.readPos) room := by
    rw [slice, List.length_take, List.length_drop]
    exact Nat.min_eq_left (Nat.min_le_left _ _)
  have split : text = slice stream.readBuffer stream.readPos
        (min (stream.readBuffer.length - stream.readPos) room) ++
      (stream.readBuffer.drop (stream.readPos +
        min (stream.readBuffer.length - stream.readPos) room) ++
        (peer.chunks.drop index).flatten) := by
    rw [text_eq, slice, ← List.append_assoc, ← List.drop_drop, List.take_append_drop]
  have nonempty : slice stream.readBuffer stream.readPos
      (min (stream.readBuffer.length - stream.readPos) room) = [] → room = 0 := by
    intro empty
    rw [empty, List.length_nil] at length
    omega
  have fits := Nat.le_trans (Nat.le_of_eq length) (Nat.min_le_right _ room)
  have place_of : ∀ {other : ShadowsocksStream}, other.dec = stream.dec →
      other.inner = stream.inner → Place primitives peer other index := by
    intro other dec inner
    cases place with
    | salt fresh wire => exact Place.salt (dec.trans fresh) (inner ▸ wire)
    | chunk within known wire => exact Place.chunk within (dec.trans known) (inner ▸ wire)
  rw [turn, if_pos some]
  dsimp only
  generalize min (stream.readBuffer.length - stream.readPos) room = taken at *
  by_cases all : stream.readBuffer.length ≤ stream.readPos + taken
  · rw [if_pos all]
    rw [List.drop_eq_nil_of_le all] at split
    exact Delivery.gives split fits (fun empty => Or.inl (nonempty empty))
      ⟨raises, spec, password, index, place_of rfl rfl, past, rfl⟩ used
  · rw [if_neg all]
    exact Delivery.gives split fits (fun empty => Or.inl (nonempty empty))
      ⟨raises, spec, password, index, place_of rfl rfl, past, rfl⟩ used

section

variable (opens : primitives.Opens) (elapses : Elapses allowed)

include opens elapses

theorem turn_meets (ahead : Ahead primitives allowed peer stream text)
    (punctual : stream.Punctual primitives) (used : stream.inner.polls.length ≤ before) :
    (stream.turn primitives room).Meets
      (fun next => Ahead primitives allowed peer next text ∧ next.inner.polls.length ≤ before ∧
        next.Punctual primitives)
      (fun next => next.inner.wire.length) (Delivery (terms primitives allowed peer) text room before)
      stream.inner.wire.length := by
  by_cases some : stream.readPos < stream.readBuffer.length
  · exact turn_buffered ahead some used
  have empty := Nat.le_of_not_lt some
  have nothing := List.drop_eq_nil_of_le empty
  by_cases ended : stream.eof = true
  · rw [turn, if_neg some, if_pos ended]
    rcases ahead.place with ⟨index, _, past, text_eq⟩
    have none : text = [] := by
      rw [text_eq, nothing, (past ended).1, List.drop_length]
      rfl
    exact @Delivery.gives _ _ _ _ _ [] text _ rfl (Nat.zero_le _)
      (fun _ => Or.inr ⟨none, (past ended).2⟩) ahead used
  have open_ := Bool.eq_false_iff.mpr ended
  have fetched := fetched_receive opens elapses ahead open_ nothing
  have spared : stream.Spared primitives := punctual empty open_
  rw [turn, if_neg some, if_neg ended]
  generalize harmless_eq : stream.Spared primitives = harmless at fetched
  generalize stream.receive primitives = result at fetched
  cases fetched with
  | ended none ahead' used' left =>
      exact @Delivery.gives _ _ _ _ _ [] text _ rfl (Nat.zero_le _)
        (fun _ => Or.inr ⟨none, left⟩) ahead' (used'.trans used)
  | @chunk next data some' ahead' used' shorter =>
      have punctual' : Punctual primitives { next with readBuffer := data, readPos := 0 } :=
        fun short => absurd (List.length_eq_zero_iff.mp (Nat.le_zero.mp short)) some'
      exact ⟨⟨ahead', used'.trans used, punctual'⟩, shorter⟩
  | paused idle ahead' used' => exact Delivery.idles idle ahead' (Nat.lt_of_lt_of_le used' used)
  | lost _ => exact (harmless_eq.mp spared).elim

/-- Every punctual call delivers. -/
theorem read_delivers :
    DeliversWhile (read primitives) (terms primitives allowed peer) (Punctual primitives) := by
  intro stream text room ahead punctual
  exact loop_returns
    (fun next : ShadowsocksStream => Ahead primitives allowed peer next text ∧
      next.inner.polls.length ≤ stream.inner.polls.length ∧ next.Punctual primitives)
    (fun next => next.inner.wire.length)
    (Delivery (terms primitives allowed peer) text room stream.inner.polls.length)
    (fun next holds => turn_meets opens elapses holds.1 holds.2.2 holds.2.1)
    (⟨ahead, Nat.le_refl _, punctual⟩ : _ ∧ stream.inner.polls.length ≤ _ ∧ _)
    (Nat.lt_succ_self stream.inner.wire.length)

/-- A call that is not punctual falls out of step. -/
theorem not_inStep_afterRead (ahead : Ahead primitives allowed peer stream text)
    (late : ¬ stream.Punctual primitives) :
    ¬ InStep primitives peer (afterRead (read primitives) stream room) := by
  rw [Punctual] at late
  push Not at late
  rcases late with ⟨empty, open_, taken, failed, harmful⟩
  have unspared : ¬ stream.Spared primitives := fun spared => harmful (spared taken failed)
  have fetched := fetched_receive opens elapses ahead open_ (List.drop_eq_nil_of_le empty)
  rw [afterRead, read, loop, turn, if_neg (Nat.not_lt.mpr empty), if_neg (by simp [open_])]
  generalize harmless_eq : stream.Spared primitives = harmless at fetched
  generalize stream.receive primitives = result at fetched
  cases fetched with
  | lost out => exact out
  | ended _ _ _ _ => exact absurd (harmless_eq.mpr trivial) unspared
  | chunk _ _ _ _ => exact absurd (harmless_eq.mpr trivial) unspared
  | paused _ _ _ => exact absurd (harmless_eq.mpr trivial) unspared

/-- A call stays in step exactly if it is punctual. -/
theorem inStep_afterRead_iff (ahead : Ahead primitives allowed peer stream text) :
    InStep primitives peer (afterRead (read primitives) stream room) ↔
      stream.Punctual primitives := by
  refine ⟨fun inStep => ?_, fun punctual => ?_⟩
  · by_contra late
    exact not_inStep_afterRead opens elapses ahead late inStep
  · rcases read_delivers opens elapses stream text room ahead punctual with ⟨_, next, answered, delivery⟩
    rw [afterRead, answered]
    cases delivery with
    | gives _ _ _ later _ => exact later.inStep
    | idles _ later _ => exact later.inStep

end

/-- The reader survives a session: it is in step throughout, its answers are the
text and idle polls, and with enough calls they are all of it. -/
structure Survives (primitives : Primitives) (peer : Peer) (stream : ShadowsocksStream)
    (rooms : List Nat) : Prop where
  inStep : RunAlways (afterRead (read primitives)) (InStep primitives peer) stream rooms
  answers : ∃ answers stream', session (read primitives) stream rooms = some (answers, stream') ∧
    Spells (fun error => error.kind.isReadIntervalElapsed = true) rooms answers peer.text ∧
    (peer.text.length + stream.inner.polls.length < (rooms.filter (0 < ·)).length →
      Ends rooms answers ∧ received answers = peer.text)

theorem ahead_new (peer : Peer) (enc : AeadCipher) {polls : List Poll}
    (raises : Raises polls allowed) :
    Ahead primitives allowed peer
      (new ⟨peer.wire primitives, polls⟩ enc peer.cipherType.spec peer.password) peer.text :=
  ⟨raises, rfl, rfl, 0, Place.salt rfl rfl, nofun, rfl⟩

/-- A reader survives a session over a transport that runs out of time exactly if
it does so, in each call, before the first byte of the salt or of a chunk. -/
theorem survives_iff (opens : primitives.Opens) (peer : Peer) (enc : AeadCipher)
    {polls : List Poll} (idles : Idles polls) (rooms : List Nat) :
    Survives primitives peer
        (new ⟨peer.wire primitives, polls⟩ enc peer.cipherType.spec peer.password) rooms ↔
      RunMeets (afterRead (read primitives)) (fun stream _ => stream.Punctual primitives)
        (new ⟨peer.wire primitives, polls⟩ enc peer.cipherType.spec peer.password) rooms := by
  have elapses : Elapses fun error => error.kind.isReadIntervalElapsed = true := fun _ idle => idle
  have ahead : Ahead primitives (fun error => error.kind.isReadIntervalElapsed = true) peer
      (new ⟨peer.wire primitives, polls⟩ enc peer.cipherType.spec peer.password) peer.text :=
    ahead_new peer enc idles
  have delivers : DeliversWhile (read primitives)
      (terms primitives (fun error => error.kind.isReadIntervalElapsed = true) peer)
      (Punctual primitives) := read_delivers opens elapses
  have steps : RunAlways (afterRead (read primitives)) (InStep primitives peer)
      (new ⟨peer.wire primitives, polls⟩ enc peer.cipherType.spec peer.password) rooms ↔
      RunMeets (afterRead (read primitives)) (fun stream _ => stream.Punctual primitives)
        (new ⟨peer.wire primitives, polls⟩ enc peer.cipherType.spec peer.password) rooms :=
    runAlways_iff_runMeets
      (fun stream => ∃ text, Ahead primitives
        (fun error => error.kind.isReadIntervalElapsed = true) peer stream text)
      (fun _ ⟨_, ahead⟩ => ahead.inStep)
      (fun _ _ ⟨_, ahead⟩ => inStep_afterRead_iff opens elapses ahead)
      (by
        rintro stream room ⟨text, ahead⟩ punctual
        rcases delivers stream text room ahead punctual with ⟨_, next, answered, delivery⟩
        rw [afterRead, answered]
        cases delivery with
        | gives _ _ _ later _ => exact ⟨_, later⟩
        | idles _ later _ => exact ⟨_, later⟩)
      ⟨_, ahead⟩
  refine ⟨fun survives => steps.mp survives.inStep, fun punctual => ⟨steps.mpr punctual, ?_⟩⟩
  rcases delivers.when.spells ahead punctual with ⟨answers, stream', _, done, spells, _, _⟩
  exact ⟨answers, stream', done, spells, fun enough =>
    delivers.when.ends ahead punctual done enough⟩

/-- Functions for examples: ciphers that name their key and nonce, and a key that
repeats the salt. -/
def exampleFunctions : Primitives where
  aes128Gcm := Aead.tagging
  aes256Gcm := Aead.tagging
  chacha20Poly1305 := Aead.tagging
  md5 _ := List.replicate 16 0
  hkdfSha1 salt _ _ length := (salt ++ List.replicate length 0).take length

theorem opens_exampleFunctions : exampleFunctions.Opens :=
  ⟨Aead.opens_tagging, Aead.opens_tagging, Aead.opens_tagging⟩

/-- A peer that sends one byte. -/
def examplePeer : Peer where
  cipherType := .aes128Gcm
  password := []
  salt := List.replicate 16 1
  chunks := [[1]]
  salted := rfl
  sized data member := by
    rw [List.mem_singleton.mp member]
    exact ⟨by decide, by decide⟩

/-- A reader of that byte. -/
def exampleReader (polls : List Poll) : ShadowsocksStream :=
  new ⟨examplePeer.wire exampleFunctions, polls⟩ (.new examplePeer.cipherType.spec [])
    examplePeer.cipherType.spec examplePeer.password

/-- The transport pauses behind the salt, where it does no harm. -/
theorem survives_iff_salt :
    Survives exampleFunctions examplePeer (exampleReader [.gives 15, .fails ⟨.wouldBlock, ""⟩])
        [8, 8] ↔
      RunMeets (afterRead (read exampleFunctions))
        (fun stream _ => stream.Punctual exampleFunctions)
        (exampleReader [.gives 15, .fails ⟨.wouldBlock, ""⟩]) [8, 8] := by
  refine survives_iff opens_exampleFunctions examplePeer _ ?_ [8, 8]
  intro error member
  simp at member
  rw [member]
  rfl

/-- The kind of an error. -/
def answerKind : Answer → Option ErrorKind
  | .ok _ => none
  | .error error => some error.kind

/-- The transport pauses inside of the length: the next call reads the rest of it
and some of the text, and they do not open. -/
theorem not_spells_pause :
    ¬ ∃ answers stream', session (read exampleFunctions)
        (exampleReader [.gives 15, .gives 4, .fails ⟨.wouldBlock, ""⟩]) [8, 8] =
          some (answers, stream') ∧
      Spells (fun error => error.kind.isReadIntervalElapsed = true) [8, 8] answers
        examplePeer.text := by
  rintro ⟨answers, stream', done, spells⟩
  have kinds : (session (read exampleFunctions)
      (exampleReader [.gives 15, .gives 4, .fails ⟨.wouldBlock, ""⟩]) [8, 8]).map
        (fun run => run.1.map answerKind) = some [some .wouldBlock, some .other] := by
    rfl
  rw [done] at kinds
  have kinds' : answers.map answerKind = [some .wouldBlock, some .other] := Option.some.inj kinds
  match answers, kinds', spells with
  | [.error first, .error second], kinds, ⟨_, idle, _⟩ =>
      have kind : second.kind = .other :=
        Option.some.inj (List.cons.inj (List.cons.inj kinds).2).1
      dsimp only at idle
      rw [kind] at idle
      cases idle

end ShadowsocksStream

end Corduit.Engine.Outbound.Shadowsocks
