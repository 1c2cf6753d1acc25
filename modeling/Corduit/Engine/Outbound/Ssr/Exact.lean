import Corduit.Collection.Segments
import Corduit.Engine.Outbound.Ssr.Framing

/-!
# What ShadowsocksR writes is what it reads

Every frame that is written verifies under the frame number that its writer and
its reader have in step.  The reader therefore gives back the payloads, whatever
the random source drew and however the bytes are cut into pieces.
-/

namespace Corduit.Engine.Outbound.Ssr

open Transition Word

/-- A prefix tells its own length: in its first byte, or behind the byte 255. -/
def Skips (fromBytes : List Byte → Nat) (random : List Byte) : Prop :=
  (∃ first rest, random = first :: rest ∧ first.toNat < 255 ∧ first.toNat = random.length) ∨
    ∃ first second rest, random = 0xFF :: first :: second :: rest ∧
      fromBytes [first, second] = random.length

variable {fromBytes : List Byte → Nat} {recvId : BitVec 32} {reader : SsrProtocolState}

theorem payloadStart_of_skips {head random : List Byte} (four : head.length = 4)
    (skips : Skips fromBytes random) (rest : List Byte) :
    payloadStart fromBytes (head ++ (random ++ rest)) = some (random.length + 4) := by
  have past : ∀ place, (head ++ (random ++ rest))[4 + place]? = (random ++ rest)[place]? := by
    intro place
    rw [List.getElem?_append_right (by omega), four, Nat.add_sub_cancel_left]
  have fourth := past 0
  have fifth := past 1
  have sixth := past 2
  simp only [payloadStart, Option.bind_eq_bind]
  rcases skips with ⟨first, behind, random_eq, small, length⟩ |
    ⟨first, second, behind, random_eq, length⟩
  · rw [Nat.add_zero, random_eq, List.cons_append, List.getElem?_cons_zero] at fourth
    rw [random_eq, List.cons_append, fourth, Option.bind_some, if_pos small, ← random_eq, length]
    rfl
  · rw [Nat.add_zero, random_eq] at fourth
    rw [random_eq] at fifth sixth
    simp only [List.cons_append, List.getElem?_cons_zero, List.getElem?_cons_succ, Nat.reduceAdd]
      at fourth fifth sixth
    rw [← length, random_eq]
    simp only [List.cons_append]
    rw [fourth, Option.bind_some, if_neg (by decide), fifth, Option.bind_some, sixth,
      Option.bind_some]
    rfl

theorem exists_toBeBytes_two (number : Nat) (small : number < 65536) :
    ∃ first second, toBeBytes 2 (BitVec.ofNat 16 number) = [first, second] ∧
      ofBeBytes [first, second] = number := by
  have length := length_toBeBytes 2 (BitVec.ofNat 16 number)
  rcases List.length_eq_two.mp length with ⟨first, second, spelt⟩
  refine ⟨first, second, spelt, ?_⟩
  rw [← spelt]
  exact ofBeBytes_length small small

theorem exists_toLeBytes_two (number : Nat) (small : number < 65536) :
    ∃ first second, toLeBytes 2 (BitVec.ofNat 16 number) = [first, second] ∧
      ofLeBytes [first, second] = number := by
  rcases exists_toBeBytes_two number small with ⟨first, second, spelt, number_eq⟩
  refine ⟨second, first, ?_, number_eq⟩
  rw [toLeBytes, spelt]
  rfl

theorem skips_byte {length : Nat} (small : length < 254) {random : List Byte}
    (long : random.length = length) :
    Skips fromBytes (BitVec.ofNat 8 (length + 1) :: random) := by
  have value : (BitVec.ofNat 8 (length + 1)).toNat = length + 1 := by
    rw [BitVec.toNat_ofNat]
    omega
  refine .inl ⟨_, random, rfl, ?_, ?_⟩
  · omega
  · rw [value, List.length_cons, long]

theorem skips_drawn {rndLen : Nat} (small : rndLen < 512) {random : List Byte}
    (length : random.length = rndLen) (tape : Tape) :
    Skips ofBeBytes (if rndLen < 128 then (BitVec.ofNat 8 (rndLen + 1) :: random, tape)
      else (0xFF :: toBeBytes 2 (BitVec.ofNat 16 (rndLen + 3)) ++ random, tape)).1 ∧
      (if rndLen < 128 then (BitVec.ofNat 8 (rndLen + 1) :: random, tape)
        else (0xFF :: toBeBytes 2 (BitVec.ofNat 16 (rndLen + 3)) ++ random, tape)).1.length ≤ 514 := by
  by_cases short : rndLen < 128
  · rw [if_pos short]
    refine ⟨skips_byte (by omega) length, ?_⟩
    rw [List.length_cons, length]
    omega
  · rw [if_neg short]
    rcases exists_toBeBytes_two (rndLen + 3) (by omega) with ⟨first, second, spelt, number⟩
    rw [spelt]
    refine ⟨.inr ⟨first, second, _, rfl, ?_⟩, ?_⟩
    · rw [number]
      simp [length]
    · simp only [List.cons_append, List.nil_append, List.length_cons, length]
      omega

/-- The prefix of `auth_sha1_v4` tells its length, and is short in front of a long
payload. -/
theorem rndDataSha1_spec (bufSize : Nat) (tape : Tape) :
    Skips ofBeBytes (rndDataSha1 bufSize tape).1 ∧ (rndDataSha1 bufSize tape).1.length ≤ 514 ∧
      (1200 < bufSize → (rndDataSha1 bufSize tape).1.length = 1) := by
  rw [rndDataSha1]
  by_cases long : bufSize > 1200
  · rw [if_pos long]
    refine ⟨.inl ⟨1, [], rfl, by decide, rfl⟩, ?_, fun _ => rfl⟩
    rw [List.length_singleton]
    decide
  · rw [if_neg long]
    by_cases middle : bufSize > 400
    · rw [if_pos middle]
      have small := ofBeBytes_lt (randomBytes 1 tape).1
      rw [length_randomBytes] at small
      have drawn := fun behind => skips_drawn (small.trans (by decide)) (length_randomBytes
        (ofBeBytes (randomBytes 1 tape).1) (randomBytes 1 tape).2) behind
      exact ⟨(drawn _).1, (drawn _).2, fun beyond => absurd beyond long⟩
    · rw [if_neg middle]
      have drawn := fun behind => skips_drawn (randBelow_lt (by decide) tape) (length_randomBytes
        (randBelow 512 tape).1 (randBelow 512 tape).2) behind
      exact ⟨(drawn _).1, (drawn _).2, fun beyond => absurd beyond long⟩

theorem rndPrefixAes_spec {rndLen : Nat} (small : rndLen < 65535) (tape : Tape) :
    Skips ofLeBytes (rndPrefixAes rndLen tape).1 ∧
      (rndPrefixAes rndLen tape).1.length = rndLen + 1 := by
  rw [rndPrefixAes]
  by_cases short : rndLen < 128
  · rw [if_pos short]
    have length := length_randomBytes rndLen tape
    exact ⟨skips_byte (by omega) length, by rw [List.length_cons, length]⟩
  · rw [if_neg short]
    have length := length_randomBytes (rndLen - 2) tape
    rcases exists_toLeBytes_two (rndLen + 1) (by omega) with ⟨first, second, spelt, number⟩
    dsimp only
    rw [spelt]
    have whole : (0xFF :: ([first, second] ++ (randomBytes (rndLen - 2) tape).1)).length =
        rndLen + 1 := by
      simp only [List.cons_append, List.nil_append, List.length_cons, length]
      omega
    exact ⟨.inr ⟨first, second, _, rfl, by rw [number]; exact whole.symm⟩, whole⟩

theorem isFrame_of_parts {length check random payload tail : List Byte} (two : length.length = 2)
    (checked : check.length = 2) (four : tail.length = 4) (skips : Skips fromBytes random)
    (declared : fromBytes length = random.length + payload.length + 8)
    (bounded : random.length + payload.length + 8 < MAX_FRAME) :
    IsFrame fromBytes (length ++ check ++ (random ++ payload) ++ tail) payload := by
  have total : (length ++ check ++ (random ++ payload) ++ tail).length =
      random.length + payload.length + 8 := by
    simp only [List.length_append, two, checked, four]
    omega
  have head : (length ++ check).length = 4 := by
    rw [List.length_append, two, checked]
  constructor
  case long =>
    rw [total]
    omega
  case bounded =>
    rw [total]
    exact bounded
  case declared =>
    rw [total, List.append_assoc, List.append_assoc, List.take_left' two]
    exact declared
  case placed =>
    refine ⟨random.length + 4, ?_, ?_, ?_⟩
    · rw [List.append_assoc, List.append_assoc random]
      exact payloadStart_of_skips head skips _
    · rw [total]
      omega
    · have behind : (length ++ check ++ random).length = random.length + 4 := by
        rw [List.length_append, head]
        omega
      have room : (length ++ check ++ (random ++ payload) ++ tail).length - 4 -
          (random.length + 4) = payload.length := by
        rw [total]
        omega
      rw [room, ← List.append_assoc, List.append_assoc _ payload, slice, List.drop_left' behind,
        List.take_left]

theorem take_drop_tail {front tail : List Byte} (four : tail.length = 4) :
    (front ++ tail).take ((front ++ tail).length - 4) = front ∧
      (front ++ tail).drop ((front ++ tail).length - 4) = tail := by
  have length : (front ++ tail).length - 4 = front.length := by
    rw [List.length_append, four, Nat.add_sub_cancel]
  rw [length]
  exact ⟨List.take_left, List.drop_left⟩

theorem front_of_parts {length check rest : List Byte} (two : length.length = 2)
    (checked : check.length = 2) : (length ++ check ++ rest).take 2 = length ∧
      slice (length ++ check ++ rest) 2 2 = check := by
  rw [List.append_assoc]
  refine ⟨List.take_left' two, ?_⟩
  rw [slice, List.drop_left' two, List.take_left' checked]

@[simp]
theorem length_hmacTruncated (hmac : (key data : List Byte) → Octets 64) (key data : List Byte)
    {outLen : Nat} (short : outLen ≤ 64) : (hmacTruncated hmac key data outLen).length = outLen := by
  rw [hmacTruncated, List.length_take_of_le]
  rw [Octets.length_bytes]
  exact short

/-- The frame numbers of a writer and a reader agree, where frames are numbered. -/
def InStep (state : SsrProtocolState) (recvId : BitVec 32) : Prop :=
  state.protocol = .authSha1V4 ∨ state.packId = recvId

/-- Writing changes nothing but the frame number and that the header is sent. -/
structure Continues (state state' : SsrProtocolState) : Prop where
  protocol : state'.protocol = state.protocol
  userKey : state'.userKey = state.userKey

theorem Continues.trans {first second third : SsrProtocolState} (here : Continues first second)
    (there : Continues second third) : Continues first third :=
  ⟨there.protocol.trans here.protocol, there.userKey.trans here.userKey⟩

/-- What `wrap_data` writes verifies, and keeps the frame numbers in step. -/
theorem wrapData_spec (sums : Sums) {state : SsrProtocolState} (auth : state.protocol ≠ .origin)
    {payload : List Byte} (fits : payload.length ≤ UNIT_LEN) (tape : Tape)
    (inStep : InStep state recvId) :
    ∃ frame state' tape', state.wrapData sums payload tape = (frame, state', tape') ∧
      state.protocol.Verifies sums state.userKey recvId frame payload ∧
      Continues state state' ∧ state'.sentHeader = state.sentHeader ∧
      InStep state' (recvId + 1) := by
  rw [UNIT_LEN] at fits
  rw [SsrProtocolState.wrapData]
  cases protocol : state.protocol with
  | origin => exact absurd protocol auth
  | authSha1V4 =>
      rcases rndDataSha1_spec payload.length tape with ⟨skips, short, one⟩
      rcases drew : rndDataSha1 payload.length tape with ⟨random, tape'⟩
      rw [drew] at skips short one
      dsimp only at skips short one ⊢
      have bounded : random.length + payload.length + 8 < MAX_FRAME := by
        rw [MAX_FRAME]
        by_cases long : 1200 < payload.length
        · rw [one long]
          omega
        · omega
      have word : random.length + payload.length + 8 < 65536 := bounded.trans (by decide)
      rw [List.length_append]
      refine ⟨_, state, tape', rfl, ⟨?_, ?_, ?_⟩, ⟨rfl, rfl⟩, rfl, .inl protocol⟩
      · have ⟨head, stored⟩ := @front_of_parts
          (toBeBytes 2 (BitVec.ofNat 16 (random.length + payload.length + 8)))
          (toLeBytes 2 ((sums.crc32
            (toBeBytes 2 (BitVec.ofNat 16 (random.length + payload.length + 8)))).setWidth 16)) []
          (length_toBeBytes _ _) (length_toLeBytes _ _)
        rw [List.append_nil] at head stored
        rw [HeadSha1, List.append_assoc, List.take_left' (by simp), head, stored]
      · rw [AdlerSha1, (take_drop_tail (length_toLeBytes 4 _)).1,
          (take_drop_tail (length_toLeBytes 4 _)).2]
        exact (ofNat_ofLeBytes _ (by decide)).symm
      · refine isFrame_of_parts (length_toBeBytes _ _) (length_toLeBytes _ _) (length_toLeBytes _ _)
          skips ?_ bounded
        exact ofBeBytes_length word word
  | authAes128 sha1 =>
      have drawn := randBelow_lt (by decide : 0 < 64) tape
      rcases below : randBelow 64 tape with ⟨rndLen, tape'⟩
      rw [below] at drawn
      dsimp only at drawn ⊢
      rcases @rndPrefixAes_spec rndLen (by omega) tape' with ⟨skips, length⟩
      rcases drew : rndPrefixAes rndLen tape' with ⟨random, tape''⟩
      rw [drew] at skips length
      dsimp only at skips length ⊢
      have total : rndLen + payload.length + 9 = random.length + payload.length + 8 := by
        rw [length]
        omega
      have bounded : random.length + payload.length + 8 < MAX_FRAME := by
        rw [MAX_FRAME, length]
        omega
      have word : random.length + payload.length + 8 < 65536 := bounded.trans (by decide)
      have number : state.packId = recvId := by
        rcases inStep with other | same
        · rw [protocol] at other
          cases other
        · exact same
      rw [total, number]
      refine ⟨_, { state with protocol := .authAes128 sha1, packId := recvId + 1 }, tape'', rfl,
        ⟨trivial, ⟨?_, ?_⟩, ?_⟩, ⟨protocol.symm, rfl⟩, rfl, .inr rfl⟩
      · rw [List.append_assoc, List.append_assoc]
        rw [(front_of_parts (length_toLeBytes _ _) (length_hmacTruncated _ _ _ (by decide))).1,
          (front_of_parts (length_toLeBytes _ _) (length_hmacTruncated _ _ _ (by decide))).2]
      · rw [(take_drop_tail (length_hmacTruncated _ _ _ (by decide))).1,
          (take_drop_tail (length_hmacTruncated _ _ _ (by decide))).2]
      · rw [List.append_assoc _ random]
        refine isFrame_of_parts (length_toLeBytes _ _) (length_hmacTruncated _ _ _ (by decide))
          (length_hmacTruncated _ _ _ (by decide)) skips ?_ bounded
        rw [ofLeBytes, toLeBytes, List.reverse_reverse]
        exact ofBeBytes_length word word

/-- What a writer frames: frames that verify one after the other, in step with
a reader before and behind them. -/
structure Writes (sums : Sums) (state : SsrProtocolState) (recvId : BitVec 32)
    (frames : List (List Byte × List Byte)) (state' : SsrProtocolState) (recvId' : BitVec 32) :
    Prop where
  verified : VerifiesAll (state.protocol.Verifies sums state.userKey) recvId frames recvId'
  continues : Continues state state'
  sentHeader : state'.sentHeader = state.sentHeader
  inStep : InStep state' recvId'

theorem Writes.append {sums : Sums} {first second third : SsrProtocolState}
    {recvId recvId' recvId'' : BitVec 32} {front back : List (List Byte × List Byte)}
    (here : Writes sums first recvId front second recvId')
    (there : Writes sums second recvId' back third recvId'') :
    Writes sums first recvId (front ++ back) third recvId'' where
  verified := by
    have later := there.verified
    rw [here.continues.protocol, here.continues.userKey] at later
    exact here.verified.append later
  continues := here.continues.trans there.continues
  sentHeader := there.sentHeader.trans here.sentHeader
  inStep := there.inStep

theorem wrapData_writes (sums : Sums) {state : SsrProtocolState} (auth : state.protocol ≠ .origin)
    {payload : List Byte} (fits : payload.length ≤ UNIT_LEN) (tape : Tape)
    (inStep : InStep state recvId) :
    ∃ frames state' tape' recvId',
      state.wrapData sums payload tape = (frames.flatMap Prod.fst, state', tape') ∧
      frames.flatMap Prod.snd = payload ∧ Writes sums state recvId frames state' recvId' := by
  rcases wrapData_spec sums auth fits tape inStep with
    ⟨frame, state', tape', wrapped, verified, continues, sent, inStep⟩
  refine ⟨[(frame, payload)], state', tape', recvId + 1, ?_, ?_, ⟨verified, rfl⟩, continues, sent,
    inStep⟩
  · rw [List.flatMap_singleton]
    exact wrapped
  · rw [List.flatMap_singleton]

theorem wrapUnits_spec (sums : Sums) (buf : List Byte) {turns : Nat} {state : SsrProtocolState}
    (auth : state.protocol ≠ .origin) {rest : List Byte} (enough : rest.length ≤ turns)
    (tape : Tape) (inStep : InStep state recvId) :
    ∃ frames state' tape' recvId',
      SsrProtocolState.wrapUnits sums buf turns state rest tape =
        (frames.flatMap Prod.fst, state', tape') ∧
      frames.flatMap Prod.snd = rest ∧ Writes sums state recvId frames state' recvId' := by
  -- the last frame, or none where nothing is left
  have last : ∀ {state : SsrProtocolState} (_ : state.protocol ≠ .origin) {rest : List Byte}
      (_ : rest.length ≤ UNIT_LEN) (tape : Tape) {recvId : BitVec 32} (_ : InStep state recvId),
      ∃ frames state' tape' recvId',
        (if rest ≠ [] ∨ buf = [] then state.wrapData sums rest tape else ([], state, tape)) =
          (frames.flatMap Prod.fst, state', tape') ∧
        frames.flatMap Prod.snd = rest ∧ Writes sums state recvId frames state' recvId' := by
    intro state auth rest fits tape recvId inStep
    by_cases some : rest ≠ [] ∨ buf = []
    · rw [if_pos some]
      exact wrapData_writes sums auth fits tape inStep
    · rw [if_neg some]
      exact ⟨[], state, tape, recvId, rfl, (not_not.mp (not_or.mp some).1).symm, rfl, ⟨rfl, rfl⟩,
        rfl, inStep⟩
  induction turns generalizing state rest tape recvId with
  | zero =>
      rw [SsrProtocolState.wrapUnits]
      exact last auth (enough.trans (Nat.zero_le _)) tape inStep
  | succ turns ih =>
      rw [SsrProtocolState.wrapUnits]
      by_cases long : rest.length > UNIT_LEN
      · rw [if_pos long]
        rcases wrapData_writes sums auth (List.length_take_le UNIT_LEN rest) tape inStep with
          ⟨front, next, tape', middle, wrapped, payload, writes⟩
        rw [wrapped]
        have less : (rest.drop UNIT_LEN).length ≤ turns := by
          rw [List.length_drop]
          have unit : 0 < UNIT_LEN := by decide
          omega
        have still : next.protocol ≠ .origin := by
          rw [writes.continues.protocol]
          exact auth
        rcases ih still less tape' writes.inStep with
          ⟨back, state', tape'', recvId', wrapped', payload', writes'⟩
        dsimp only
        rw [wrapped']
        refine ⟨front ++ back, state', tape'', recvId', ?_, ?_, writes.append writes'⟩
        · rw [List.flatMap_append]
        · rw [List.flatMap_append, payload, payload', List.take_append_drop]
      · rw [if_neg long]
        exact last auth (Nat.le_of_not_gt long) tape inStep

theorem wrapAll_spec (sums : Sums) (calls : List (List Byte × Nat)) {state : SsrProtocolState}
    (auth : state.protocol ≠ .origin) (sent : state.sentHeader = true) (tape : Tape)
    (inStep : InStep state recvId) :
    ∃ frames state' tape' recvId',
      state.wrapAll sums calls tape = .ok (frames.flatMap Prod.fst, state', tape') ∧
      frames.flatMap Prod.snd = calls.flatMap Prod.fst ∧
      Writes sums state recvId frames state' recvId' := by
  induction calls generalizing state tape recvId with
  | nil => exact ⟨[], state, tape, recvId, rfl, rfl, rfl, ⟨rfl, rfl⟩, rfl, inStep⟩
  | cons call calls ih =>
      rcases call with ⟨buf, headLen⟩
      rcases wrapUnits_spec sums buf auth (Nat.le_refl buf.length) tape inStep with
        ⟨front, next, tape', middle, wrapped, payload, writes⟩
      have still : next.protocol ≠ .origin := by
        rw [writes.continues.protocol]
        exact auth
      rcases ih still (writes.sentHeader.trans sent) tape' writes.inStep with
        ⟨back, state', tape'', recvId', wrapped', payload', writes'⟩
      refine ⟨front ++ back, state', tape'', recvId', ?_, ?_, writes.append writes'⟩
      · rw [SsrProtocolState.wrapAll, SsrProtocolState.wrap, if_pos sent, wrapped]
        refine bind_eq_ok_iff.mpr ⟨_, rfl, bind_eq_ok_iff.mpr ⟨_, wrapped', ?_⟩⟩
        rw [List.flatMap_append]
        rfl
      · rw [List.flatMap_append, List.flatMap_cons, payload, payload']

/-- A reader is given the pieces of some frames, of which `rest` is not there
yet: it returns the payloads of the frames that are complete and keeps what it
has of the next one. -/
def ReadsBack (sums : Sums) (reader : SsrProtocolState) (chunks : List (List Byte))
    (rest : List Byte) (frames : List (List Byte × List Byte)) : Prop :=
  ∃ done later tail reader', frames = done ++ later ∧
    reader.recvBuf ++ chunks.flatten = done.flatMap Prod.fst ++ tail ∧
    tail ++ rest = later.flatMap Prod.fst ∧ ShortOf tail later ∧
    reader.unwrapAll sums chunks = some ⟨.ok (), done.flatMap Prod.snd, reader'⟩ ∧
    reader'.recvBuf = tail

theorem unwrap_piece (sums : Sums) (auth : reader.protocol ≠ .origin)
    {frames : List (List Byte × List Byte)}
    (verified : VerifiesAll (reader.protocol.Verifies sums reader.userKey) reader.recvId frames
      recvId)
    {buf rest : List Byte} (split : (reader.recvBuf ++ buf) ++ rest = frames.flatMap Prod.fst) :
    ∃ done later middle tail, frames = done ++ later ∧
      reader.recvBuf ++ buf = done.flatMap Prod.fst ++ tail ∧
      tail ++ rest = later.flatMap Prod.fst ∧ ShortOf tail later ∧
      VerifiesAll (reader.protocol.Verifies sums reader.userKey) middle later recvId ∧
      reader.unwrap sums buf = some ⟨.ok (), done.flatMap Prod.snd,
        { reader with recvBuf := tail, recvId := middle }⟩ := by
  have finds := SsrProtocol.find_finds sums reader.userKey auth
  rcases deframe_piece finds.idle (delimitsAll_of_verifies finds verified) split
    (Nat.lt_succ_self _) with
    ⟨done, later, middle, tail, frames_eq, front, behind, short, passed, ahead, ran⟩
  rw [frames_eq] at verified
  have least := finds.bounded _ _ (ahead.waits finds.idle short)
  refine ⟨done, later, middle, tail, frames_eq, front, behind, short,
    verified.behind finds passed, ?_⟩
  rw [SsrProtocolState.unwrap_eq sums auth, SsrProtocolState.unwrapWith, ran, Option.map_some]
  dsimp only
  rw [SsrProtocolState.guardBuffer_of_lt least, ← List.flatMap_def]

theorem unwrapAll_readsBack (sums : Sums) (chunks : List (List Byte))
    (auth : reader.protocol ≠ .origin) {frames : List (List Byte × List Byte)}
    (verified : VerifiesAll (reader.protocol.Verifies sums reader.userKey) reader.recvId frames
      recvId)
    {rest : List Byte}
    (split : (reader.recvBuf ++ chunks.flatten) ++ rest = frames.flatMap Prod.fst)
    (short : ShortOf reader.recvBuf frames) : ReadsBack sums reader chunks rest frames := by
  induction chunks generalizing reader frames with
  | nil =>
      rw [List.flatten_nil, List.append_nil] at split
      refine ⟨[], frames, reader.recvBuf, reader, rfl, ?_, split, short, rfl, rfl⟩
      rw [List.flatten_nil, List.append_nil, List.flatMap_nil, List.nil_append]
  | cons chunk chunks ih =>
      have pieces : (reader.recvBuf ++ chunk) ++ (chunks.flatten ++ rest) =
          frames.flatMap Prod.fst := by
        rw [← split, List.flatten_cons]
        simp only [List.append_assoc]
      rcases unwrap_piece sums auth verified pieces with
        ⟨done, later, middle, tail, rfl, front, behind, short', verified', unwrapped⟩
      rw [← List.append_assoc] at behind
      rcases @ih { reader with recvBuf := tail, recvId := middle } auth later verified' behind
          short' with
        ⟨done', later', tail', reader', rfl, front', behind', short'', ran, kept⟩
      dsimp only at front'
      refine ⟨done ++ done', later', tail', reader', (List.append_assoc _ _ _).symm, ?_, behind',
        short'', ?_, kept⟩
      · rw [List.flatten_cons, ← List.append_assoc, front, List.append_assoc, front',
          List.flatMap_append, List.append_assoc]
      · rw [SsrProtocolState.unwrapAll, unwrapped]
        dsimp only [Option.bind_eq_bind, Option.bind_some]
        rw [ran, List.flatMap_append]
        rfl

theorem ReadsBack.complete {sums : Sums} {chunks : List (List Byte)}
    {frames : List (List Byte × List Byte)} (reads : ReadsBack sums reader chunks [] frames) :
    ∃ reader', reader.unwrapAll sums chunks = some ⟨.ok (), frames.flatMap Prod.snd, reader'⟩ ∧
      reader'.recvBuf = [] := by
  rcases reads with ⟨done, later, tail, reader', rfl, _, behind, short, ran, kept⟩
  rw [List.append_nil] at behind
  cases later with
  | nil =>
      rw [List.append_nil]
      exact ⟨reader', ran, kept.trans short⟩
  | cons entry later =>
      -- the tail would be all of the frame that it is a part of
      have longer : entry.1.length ≤ tail.length := by
        rw [behind, List.flatMap_cons, List.length_append]
        exact Nat.le_add_right _ _
      exact absurd (short.1.eq_of_length (Nat.le_antisymm short.1.length_le longer)) short.2

theorem shortOf_nil {verifies : BitVec 32 → (frame payload : List Byte) → Prop}
    {find : BitVec 32 → List Byte → Option FoundFrame} (finds : FindsFrames find verifies)
    {frames : List (List Byte × List Byte)} {recvId recvId' : BitVec 32}
    (verified : VerifiesAll verifies recvId frames recvId') : ShortOf [] frames := by
  cases frames with
  | nil => rfl
  | cons entry frames =>
      exact ⟨List.nil_prefix, (finds.nonempty _ _ _ verified.1).symm⟩

/-- A reader is in step with a writer of the same protocol and user. -/
structure Matches (writer reader : SsrProtocolState) : Prop where
  protocol : reader.protocol = writer.protocol
  userKey : reader.userKey = writer.userKey
  inStep : InStep writer reader.recvId
  recvBuf : reader.recvBuf = []

/-- What stands in front of the data frames: the handshake frame of the first
call of a writer, with the part of the first payload that it carries. -/
def Handshake (sums : Sums) (writer : SsrProtocolState) (calls : List (List Byte × Nat))
    (hello opening : List Byte) : Prop :=
  if writer.sentHeader = true ∨ calls = [] then hello = [] ∧ opening = []
  else ∃ tape tape', SsrProtocolState.wrapFirst sums { writer with sentHeader := true } opening
    tape = .ok (hello, tape')

theorem wrapAll_handshake (sums : Sums) {calls : List (List Byte × Nat)}
    {writer writer' : SsrProtocolState} (auth : writer.protocol ≠ .origin) {tape tape' : Tape}
    {wire : List Byte} (wrapped : writer.wrapAll sums calls tape = .ok (wire, writer', tape'))
    (inStep : InStep writer recvId) :
    ∃ hello opening frames recvId', Handshake sums writer calls hello opening ∧
      wire = hello ++ frames.flatMap Prod.fst ∧
      calls.flatMap Prod.fst = opening ++ frames.flatMap Prod.snd ∧
      VerifiesAll (writer.protocol.Verifies sums writer.userKey) recvId frames recvId' := by
  by_cases sent : writer.sentHeader = true
  · rcases wrapAll_spec sums calls auth sent tape inStep with
      ⟨frames, next, tape'', recvId', ran, payload, writes⟩
    rw [ran] at wrapped
    cases wrapped
    exact ⟨[], [], frames, recvId', by rw [Handshake, if_pos (.inl sent)]; exact ⟨rfl, rfl⟩, rfl,
      payload.symm, writes.verified⟩
  · cases calls with
    | nil =>
        cases wrapped
        exact ⟨[], [], [], recvId, by rw [Handshake, if_pos (.inr rfl)]; exact ⟨rfl, rfl⟩, rfl, rfl,
          rfl⟩
    | cons call calls =>
        rcases call with ⟨buf, headLen⟩
        rcases bind_eq_ok_iff.mp wrapped with ⟨⟨first, next, tape₁⟩, here, wrapped⟩
        rcases bind_eq_ok_iff.mp wrapped with ⟨⟨others, last, tape₂⟩, there, wrapped⟩
        have same := pure_eq_ok_iff.mp wrapped
        cases same
        rw [SsrProtocolState.wrap, if_neg sent] at here
        dsimp only at here
        rcases drew : randBelow 32 tape with ⟨drawn, tape₃⟩
        rw [drew] at here
        dsimp only at here
        cases opened : SsrProtocolState.wrapFirst sums { writer with sentHeader := true }
            (buf.take (min buf.length (headLen + drawn))) tape₃ with
        | error error =>
            rw [opened] at here
            cases here
        | ok opened' =>
            rcases opened' with ⟨hello, tape₄⟩
            rw [opened] at here
            dsimp only at here
            have started : InStep { writer with sentHeader := true } recvId := inStep
            rcases wrapUnits_spec sums buf (by exact auth) (Nat.le_refl _) tape₄ started with
              ⟨front, middle, tape₅, recvId₁, units, payload, writes⟩
            rw [units] at here
            cases here
            have still : middle.protocol ≠ .origin := by
              rw [writes.continues.protocol]
              exact auth
            rcases wrapAll_spec sums calls still writes.sentHeader tape₅ writes.inStep with
              ⟨back, final, tape₆, recvId₂, ran, payload', writes'⟩
            rw [ran] at there
            cases there
            refine ⟨hello, buf.take (min buf.length (headLen + drawn)), front ++ back, recvId₂, ?_,
              ?_, ?_, (writes.append writes').verified⟩
            · rw [Handshake, if_neg (not_or.mpr ⟨sent, List.cons_ne_nil _ _⟩)]
              exact ⟨tape₃, tape₄, opened⟩
            · rw [List.flatMap_append, List.append_assoc]
            · rw [List.flatMap_append, List.flatMap_cons, payload, payload', ← List.append_assoc,
                List.take_append_drop]

/-- Framing is exact and safe.  What a writer frames behind its handshake, a
reader in step with it gives back, wherever it is cut, and it keeps what it has
of an incomplete frame; and whatever bytes it is given, a reader does not panic,
takes only frames that verify, and keeps less than a frame. -/
theorem framing_exact_and_safe (sums : Sums) {protocol : SsrProtocol} (auth : protocol ≠ .origin) :
    (∀ writer reader : SsrProtocolState, writer.protocol = protocol → Matches writer reader →
      ∀ (calls : List (List Byte × Nat)) (tape : Tape),
        (writer.sentHeader = true → ∃ wrapped, writer.wrapAll sums calls tape = .ok wrapped) ∧
        ∀ wire writer' tape', writer.wrapAll sums calls tape = .ok (wire, writer', tape') →
          ∃ hello opening frames, Handshake sums writer calls hello opening ∧
            wire = hello ++ frames.flatMap Prod.fst ∧
            calls.flatMap Prod.fst = opening ++ frames.flatMap Prod.snd ∧
            (∀ chunks, chunks.flatten = frames.flatMap Prod.fst →
              ∃ reader', reader.unwrapAll sums chunks =
                  some ⟨.ok (), frames.flatMap Prod.snd, reader'⟩ ∧ reader'.recvBuf = []) ∧
            ∀ chunks rest, chunks.flatten ++ rest = frames.flatMap Prod.fst →
              ReadsBack sums reader chunks rest frames) ∧
      ∀ (state : SsrProtocolState) (buf : List Byte), state.protocol = protocol →
        ∃ result frames, state.unwrap sums buf = some result ∧
          UnwrapsSafely sums state buf result frames := by
  constructor
  · intro writer reader same isMatch calls tape
    have authWriter : writer.protocol ≠ .origin := by
      rw [same]
      exact auth
    have authReader : reader.protocol ≠ .origin := by
      rw [isMatch.protocol]
      exact authWriter
    constructor
    · intro sent
      rcases wrapAll_spec sums calls authWriter sent tape isMatch.inStep with
        ⟨frames, writer', tape', recvId', wrapped, _⟩
      exact ⟨_, wrapped⟩
    · intro wire writer' tape' wrapped
      rcases wrapAll_handshake sums authWriter wrapped isMatch.inStep with
        ⟨hello, opening, frames, recvId', handshake, wire_eq, payload, verified⟩
      rw [← isMatch.protocol, ← isMatch.userKey] at verified
      have reads : ∀ chunks rest, chunks.flatten ++ rest = frames.flatMap Prod.fst →
          ReadsBack sums reader chunks rest frames := by
        intro chunks rest split
        refine unwrapAll_readsBack sums chunks authReader verified ?_ ?_
        · rw [isMatch.recvBuf, List.nil_append]
          exact split
        · rw [isMatch.recvBuf]
          exact shortOf_nil (SsrProtocol.find_finds sums reader.userKey authReader) verified
      refine ⟨hello, opening, frames, handshake, wire_eq, payload, fun chunks whole => ?_, reads⟩
      exact (reads chunks [] (by rw [List.append_nil]; exact whole)).complete
  · intro state buf same
    have authState : state.protocol ≠ .origin := by
      rw [same]
      exact auth
    exact unwrap_spec sums authState buf

namespace Plain

/-- Checksums that read their text as a number. -/
def sums : Sums where
  crc32 bytes := BitVec.ofNat 32 (ofBeBytes bytes)
  adler32 bytes := BitVec.ofNat 32 (ofBeBytes bytes)
  sha1 bytes := bytes.take 20
  md5 bytes := bytes.take 16
  hmacSha1 key data := Octets.written 64 (key ++ data)
  hmacMd5 key data := Octets.written 64 (key ++ data)
  base64 bytes := bytes
  encryptBlock _ block := block

/-- A writer behind its handshake, and a reader that is in step with it. -/
def state : SsrProtocolState where
  protocol := .authAes128 true
  key := [1, 2]
  macKey := [3, 1, 2]
  userKey := [1, 2]
  uid := [0, 0, 0, 0]
  authData := []
  sentHeader := true

/-- Three payloads and the frames of them, of 12, 10 and 11 bytes. -/
def calls : List (List Byte × Nat) :=
  [([7, 8, 9], 0), ([1], 0), ([2, 3], 0)]

/-- What the calls put on the wire. -/
def wire : List Byte :=
  match state.wrapAll sums calls fun _ => 0 with
  | .ok (wire, _) => wire
  | .error _ => []

end Plain

/-- The payloads come back from pieces of seven bytes, and those of the first two frames
from two pieces and a rest. -/
theorem framing_exact_and_safe_plain :
    (∃ reader, Plain.state.unwrapAll Plain.sums (Collection.chunks 7 Plain.wire) =
        some ⟨.ok (), [7, 8, 9, 1, 2, 3], reader⟩ ∧ reader.recvBuf = []) ∧
      (∃ frames, ReadsBack Plain.sums Plain.state [Plain.wire.take 5, slice Plain.wire 5 20]
        (Plain.wire.drop 25) frames) ∧
      ∃ result frames, Plain.state.unwrap Plain.sums [9, 0, 1] = some result ∧
        UnwrapsSafely Plain.sums Plain.state [9, 0, 1] result frames := by
  have ⟨exact_, safe⟩ := framing_exact_and_safe Plain.sums
    (by decide : SsrProtocol.authAes128 true ≠ .origin)
  have ⟨always, reads⟩ := exact_ Plain.state Plain.state rfl ⟨rfl, rfl, .inr rfl, rfl⟩
    Plain.calls fun _ => 0
  rcases always rfl with ⟨⟨wire, writer', tape'⟩, wrapped⟩
  have wire_eq : Plain.wire = wire := by
    rw [Plain.wire, wrapped]
  rcases reads wire writer' tape' wrapped with
    ⟨hello, opening, frames, handshake, split, payload, whole, pieces⟩
  rw [Handshake, if_pos (.inl rfl)] at handshake
  rw [handshake.1, List.nil_append, ← wire_eq] at split
  rw [handshake.2, List.nil_append] at payload
  refine ⟨?_, ⟨frames, pieces _ _ (Eq.trans (by decide) split)⟩, safe Plain.state [9, 0, 1] rfl⟩
  rw [← payload] at whole
  exact whole _ ((Collection.flatten_chunks (by decide) _).trans split)

end Corduit.Engine.Outbound.Ssr
