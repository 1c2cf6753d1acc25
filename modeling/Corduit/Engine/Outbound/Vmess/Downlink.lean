import Corduit.Engine.Outbound.Vmess.Core

/-!
# What the downlink returns

The stream that a server sends: a response header, then chunks sealed with the
counters from zero on, then perhaps an end.  In each of its stages the reader
has assembled a part of a block, and what is to come spells the rest of the
text.
-/

namespace Corduit.Engine.Outbound.Vmess

open Collection Crypto Transport Word

variable {primitives : Primitives}

section Server

variable (primitives) (cipher : VmessCipher) (key iv : Octets 16) (trailing : List Byte)

/-- The wire carries the text behind the header, from the chunk with some
counter on: to the end of the wire, to a length of zero or to a chunk without a
text; `trailing` is what follows. -/
inductive Body : Nat → List Byte → List Byte → Prop
  | closed (count : Nat) (none : trailing = []) : Body count [] []
  | bare (count : Nat) : Body count (toBeBytes 2 (0 : BitVec 16) ++ trailing) []
  | ended {count : Nat} (counted : count < 2 ^ 16) :
      Body count
        (encryptChunkStatic primitives cipher [] key iv (BitVec.ofNat 16 count) ++ trailing) []
  | chunk {count : Nat} {data rest text : List Byte} (nonempty : data ≠ [])
      (fits : data.length + overhead cipher < 2 ^ 16) (counted : count < 2 ^ 16)
      (later : Body (count + 1) rest text) :
      Body count
        (encryptChunkStatic primitives cipher data key iv (BitVec.ofNat 16 count) ++ rest)
        (data ++ text)

/-- What a block behind its length means. -/
inductive Block (count : Nat) : List Byte → List Byte → List Byte → Prop
  | ended (counted : count < 2 ^ 16) :
      Block count (sealChunk primitives cipher [] key iv (BitVec.ofNat 16 count)) trailing []
  | chunk {data rest text : List Byte} (nonempty : data ≠ []) (counted : count < 2 ^ 16)
      (later : Body primitives cipher key iv trailing (count + 1) rest text) :
      Block count (sealChunk primitives cipher data key iv (BitVec.ofNat 16 count)) rest
        (data ++ text)

/-- The response header that a server sends: the echo, and no dynamic port in a
legacy header; any payload of 4 to 4096 bytes otherwise. -/
inductive Header (expected : Byte) : Bool → List Byte → Prop
  | legacy {block : List Byte} (length : block.length = 4) (echo : block.getD 0 0 = expected)
      (noPort : block.getD 2 0 = 0) :
      Header expected true (aes128CfbEncrypt primitives key iv block)
  | aead {plain : List Byte} (long : 4 ≤ plain.length)
      (short : plain.length ≤ vmessResponseHeaderMax) (echo : plain.getD 0 0 = expected) :
      Header expected false (sealResponseHeaderLength primitives key iv plain.length ++
        sealResponseHeaderPayload primitives key iv plain)

end Server

theorem Body.cases (opens : primitives.Opens) {cipher : VmessCipher} {key iv : Octets 16}
    {trailing : List Byte} {count : Nat} {wire text : List Byte}
    (body : Body primitives cipher key iv trailing count wire text) :
    (wire = [] ∧ trailing = [] ∧ text = []) ∨ ∃ (block rest : List Byte),
      block.length < 2 ^ 16 ∧
      wire = toBeBytes 2 (BitVec.ofNat 16 block.length) ++ (block ++ rest) ∧
      ((block = [] ∧ rest = trailing ∧ text = []) ∨
        Block primitives cipher key iv trailing count block rest text) := by
  cases body with
  | closed _ none => exact Or.inl ⟨rfl, none, rfl⟩
  | bare => exact Or.inr ⟨[], trailing, by decide, rfl, Or.inl ⟨rfl, rfl, rfl⟩⟩
  | ended counted =>
      refine Or.inr ⟨_, trailing, ?_, ?_, Or.inr (Block.ended counted)⟩
      · rw [length_sealChunk opens]
        cases cipher <;> decide
      · rw [encryptChunkStatic, withLength, List.append_assoc]
  | @chunk _ data rest text nonempty fits counted later =>
      refine Or.inr ⟨_, rest, ?_, ?_, Or.inr (Block.chunk nonempty counted later)⟩
      · rw [length_sealChunk opens]
        exact fits
      · rw [encryptChunkStatic, withLength, List.append_assoc]

namespace VmessStream

/-- The stream waits for a part of `block`; `rest` follows it. -/
structure Awaits (stream : VmessStream) (stage : DownlinkStage) (block rest : List Byte) :
    Prop where
  stage : stream.stage = stage
  length : stream.fill.bytes.length = block.length
  partly : stream.fill.filled < stream.fill.bytes.length
  wire : stream.fill.assembled ++ stream.inner.wire = block ++ rest

/-- The counter of the next chunk. -/
structure Counts (stream : VmessStream) (count : Nat) : Prop where
  within : count ≤ 2 ^ 16
  value : stream.decCount = BitVec.ofNat 16 count
  exhausted : stream.decExhausted = decide (count = 2 ^ 16)

theorem Counts.same {stream other : VmessStream} {count : Nat} (counts : stream.Counts count)
    (value : other.decCount = stream.decCount)
    (exhausted : other.decExhausted = stream.decExhausted) : other.Counts count :=
  ⟨counts.within, value.trans counts.value, exhausted.trans counts.exhausted⟩

/-- The body of the stream from some counter on. -/
def Carries (primitives : Primitives) (trailing : List Byte) (stream : VmessStream) (count : Nat)
    (wire text : List Byte) : Prop :=
  Body primitives stream.cipher stream.decKey stream.decIv trailing count wire text

/-- The reader stands somewhere in the server's stream, and what is to come
carries the text. -/
inductive Stands (primitives : Primitives) (trailing : List Byte) (stream : VmessStream) :
    List Byte → Prop
  | inLegacyHeader {block rest text : List Byte} (nothing : stream.readBuffer.length ≤ stream.readPos)
      (open_ : stream.eof = false) (counts : stream.Counts 0) (length : block.length = 4)
      (echo : stream.expectedResponseHeader = some (block.getD 0 0))
      (noPort : block.getD 2 0 = 0)
      (awaits : stream.Awaits .legacyHeader
        (aes128CfbEncrypt primitives stream.decKey stream.decIv block) rest)
      (carries : stream.Carries primitives trailing 0 rest text) : Stands primitives trailing stream text
  | inHeaderLength {plain rest text : List Byte} (nothing : stream.readBuffer.length ≤ stream.readPos)
      (open_ : stream.eof = false) (counts : stream.Counts 0) (long : 4 ≤ plain.length)
      (short : plain.length ≤ vmessResponseHeaderMax)
      (echo : stream.expectedResponseHeader = some (plain.getD 0 0))
      (awaits : stream.Awaits .headerLength
        (sealResponseHeaderLength primitives stream.decKey stream.decIv plain.length)
        (sealResponseHeaderPayload primitives stream.decKey stream.decIv plain ++ rest))
      (carries : stream.Carries primitives trailing 0 rest text) : Stands primitives trailing stream text
  | inHeaderPayload {plain rest text : List Byte} (nothing : stream.readBuffer.length ≤ stream.readPos)
      (open_ : stream.eof = false) (counts : stream.Counts 0) (long : 4 ≤ plain.length)
      (echo : stream.expectedResponseHeader = some (plain.getD 0 0))
      (awaits : stream.Awaits .headerPayload
        (sealResponseHeaderPayload primitives stream.decKey stream.decIv plain) rest)
      (carries : stream.Carries primitives trailing 0 rest text) : Stands primitives trailing stream text
  | atChunkLength {count : Nat} {text : List Byte} (open_ : stream.eof = false)
      (counts : stream.Counts count) (stage : stream.stage = .chunkLength)
      (length : stream.fill.bytes.length = 2) (partly : stream.fill.filled < 2)
      (carries : stream.Carries primitives trailing count (stream.fill.assembled ++ stream.inner.wire)
        text) : Stands primitives trailing stream (stream.readBuffer.drop stream.readPos ++ text)
  | inChunkPayload {count : Nat} {block rest text : List Byte} (nothing : stream.readBuffer.length ≤ stream.readPos)
      (open_ : stream.eof = false) (counts : stream.Counts count)
      (awaits : stream.Awaits .chunkPayload block rest)
      (means : Block primitives stream.cipher stream.decKey stream.decIv trailing count block rest
        text) :
      Stands primitives trailing stream text
  | ended (nothing : stream.readBuffer.length ≤ stream.readPos) (past : stream.eof = true)
      (left : stream.inner.wire = trailing) : Stands primitives trailing stream []

variable {stream : VmessStream} {text rest block : List Byte} {stage : DownlinkStage}

/-- The stream after an attempt to fill its buffer. -/
def filledWith (stream : VmessStream) (fill : Scratch) (inner : Incoming) : VmessStream :=
  { stream with fill := fill, inner := inner }

/-- A block that is on the wire is assembled, or the transport runs out of time
and the stream still waits for it. -/
theorem fillStage_of_awaits (idles : Idles stream.inner.polls)
    (awaits : stream.Awaits stage block rest) :
    (∃ polls fill, stream.fillStage = (.ok true, stream.filledWith fill ⟨rest, polls⟩) ∧
      fill.bytes = block ∧ rest.length < stream.inner.wire.length ∧
      polls <:+ stream.inner.polls) ∨
    ∃ polls fill wire, stream.fillStage = (.ok false, stream.filledWith fill ⟨wire, polls⟩) ∧
      (stream.filledWith fill ⟨wire, polls⟩).Awaits stage block rest ∧
      polls <:+ stream.inner.polls ∧ polls.length < stream.inner.polls.length := by
  have inside : stream.fill.Fits := Nat.le_of_lt awaits.partly
  have assembled_length := Scratch.length_assembled inside
  have partly := awaits.partly
  have total := congrArg List.length awaits.wire
  rw [List.length_append, List.length_append, assembled_length, ← awaits.length] at total
  have filling := Scratch.filling_fill inside stream.inner
  rw [fillStage]
  generalize stream.fill.fill stream.inner = result at filling
  cases filling with
  | @full fill left polls length whole same later =>
      have split := List.append_inj (same.symm.trans awaits.wire) (length.trans awaits.length)
      rw [split.2]
      exact Or.inl ⟨polls, fill, rfl, split.1, by omega, later⟩
  | @short fill polls length partly' same taken later =>
      have less := congrArg List.length same
      rw [List.length_append, assembled_length, ← taken] at less
      omega
  | @failed fill left error polls length partly' same later =>
      have running := idles error (later.subset List.mem_cons_self)
      dsimp only
      rw [if_pos running]
      refine Or.inr ⟨polls, fill, left, rfl, ?_, (List.suffix_cons _ polls).trans later,
        later.length_le⟩
      exact ⟨awaits.stage, length.trans awaits.length, partly', same.symm.trans awaits.wire⟩

/-- An idle poll. -/
def RanOut (error : IoError) : Prop :=
  error.kind = .wouldBlock

/-- The text is ahead of a reader whose transport only ever runs out of time. -/
def Ahead (primitives : Primitives) (trailing : List Byte) (stream : VmessStream)
    (text : List Byte) : Prop :=
  Idles stream.inner.polls ∧ stream.Stands primitives trailing text

/-- What the transport may still do instead of giving bytes. -/
def effort (stream : VmessStream) : Nat :=
  stream.inner.polls.length

/-- The terms that the reader delivers by: it is over where the stream of the
server is. -/
def terms (primitives : Primitives) (trailing : List Byte) : Terms VmessStream where
  idle := RanOut
  ahead := Ahead primitives trailing
  effort := effort
  ended stream := stream.inner.wire = trailing

/-- What one turn of `read` has to do: stand elsewhere in the same text, behind
a byte that it took off the transport, or deliver. -/
def TurnDelivers (primitives : Primitives) (trailing text : List Byte) (room before : Nat)
    (stream : VmessStream) : Prop :=
  (stream.turn primitives room).Meets
    (fun next => next.Ahead primitives trailing text ∧ next.effort ≤ before)
    (fun next => next.inner.wire.length)
    (Delivery (terms primitives trailing) text room before) stream.inner.wire.length

variable {room before : Nat} {trailing : List Byte}

/-- A turn that fills the buffer of a stage goes on with the stage behind it, or
stands where it stood. -/
theorem turnDelivers_of_awaits (idles : Idles stream.inner.polls) (used : stream.effort ≤ before)
    (nothing : stream.readBuffer.length ≤ stream.readPos) (open_ : stream.eof = false)
    (awaits : stream.Awaits stage block rest)
    (advances : ∀ fill polls, fill.bytes = block → ∃ next : VmessStream,
      (stream.filledWith fill ⟨rest, polls⟩).advanceStage primitives = (.ok (), next) ∧
        next.inner = ⟨rest, polls⟩ ∧ next.Stands primitives trailing text)
    (waits : ∀ fill wire polls, (stream.filledWith fill ⟨wire, polls⟩).Awaits stage block rest →
      (stream.filledWith fill ⟨wire, polls⟩).Stands primitives trailing text) :
    stream.TurnDelivers primitives trailing text room before := by
  rw [TurnDelivers, turn, if_neg (Nat.not_lt.mpr nothing), if_neg (by simp [open_])]
  rcases fillStage_of_awaits idles awaits with
    ⟨polls, fill, completed, whole, shorter, later⟩ |
    ⟨polls, fill, wire, paused, awaits', later, fewer⟩
  · rcases advances fill polls whole with ⟨next, advanced, inner, stands⟩
    have going : (stream.filledWith fill ⟨rest, polls⟩).eof = false := open_
    rw [completed]
    dsimp only
    rw [if_neg (by simp [going]), if_neg (by simp), advanced]
    dsimp only [Turn.Meets]
    rw [Ahead, effort, inner]
    exact ⟨⟨⟨idles.suffix later, stands⟩, later.length_le.trans used⟩, shorter⟩
  · have going : (stream.filledWith fill ⟨wire, polls⟩).eof = false := open_
    rw [paused]
    dsimp only
    rw [if_neg (by simp [going]), if_pos (by simp)]
    exact Delivery.idles rfl ⟨idles.suffix later, waits fill wire polls awaits'⟩
      (Nat.lt_of_lt_of_le fewer used)

theorem stands_beginChunkLength {wire : List Byte} {polls : List Poll} {count : Nat}
    (inner : stream.inner = ⟨wire, polls⟩) (open_ : stream.eof = false)
    (counts : stream.Counts count) (carries : stream.Carries primitives trailing count wire text) :
    stream.beginChunkLength.Stands primitives trailing
      (stream.readBuffer.drop stream.readPos ++ text) := by
  refine @Stands.atChunkLength primitives trailing stream.beginChunkLength count text open_
    (counts.same rfl rfl) rfl rfl (by decide : 0 < 2) ?_
  change stream.Carries primitives trailing count ([] ++ stream.inner.wire) text
  rw [inner]
  exact carries

theorem turn_inLegacyHeader (opens : primitives.Opens) (idles : Idles stream.inner.polls)
    (used : stream.effort ≤ before) (nothing : stream.readBuffer.length ≤ stream.readPos) (open_ : stream.eof = false)
    (counts : stream.Counts 0) (length : block.length = 4)
    (echo : stream.expectedResponseHeader = some (block.getD 0 0))
    (noPort : block.getD 2 0 = 0)
    (awaits : stream.Awaits .legacyHeader
      (aes128CfbEncrypt primitives stream.decKey stream.decIv block) rest)
    (carries : stream.Carries primitives trailing 0 rest text) :
    stream.TurnDelivers primitives trailing text room before := by
  refine turnDelivers_of_awaits idles used nothing open_ awaits ?_ ?_
  · intro fill polls whole
    refine ⟨beginChunkLength { stream.filledWith fill ⟨rest, polls⟩ with
      expectedResponseHeader := none }, ?_, rfl, ?_⟩
    · have stage : (stream.filledWith fill ⟨rest, polls⟩).stage = .legacyHeader := awaits.stage
      have expected : (stream.filledWith fill ⟨rest, polls⟩).expectedResponseHeader =
          some (block.getD 0 0) := echo
      have block_eq : aes128CfbDecrypt primitives (stream.filledWith fill ⟨rest, polls⟩).decKey
          (stream.filledWith fill ⟨rest, polls⟩).decIv
          (stream.filledWith fill ⟨rest, polls⟩).fill.bytes = block := by
        change aes128CfbDecrypt primitives stream.decKey stream.decIv fill.bytes = block
        rw [whole, aes128CfbDecrypt_aes128CfbEncrypt opens]
      rw [advanceStage, stage]
      dsimp only
      rw [block_eq, expected]
      dsimp only
      rw [if_neg (fun differs => differs rfl), if_neg (fun set => set noPort), ← stage]
    · have stands := @stands_beginChunkLength primitives
        { stream.filledWith fill ⟨rest, polls⟩ with expectedResponseHeader := none } text trailing
        rest polls 0 rfl open_ (counts.same rfl rfl) carries
      rwa [filledWith, List.drop_eq_nil_of_le nothing, List.nil_append] at stands
  · intro fill wire polls awaits'
    exact Stands.inLegacyHeader nothing open_ (counts.same rfl rfl)
      length echo noPort awaits' carries

section

variable (opens : primitives.Opens) (idles : Idles stream.inner.polls)
  (used : stream.effort ≤ before) {plain : List Byte}
  (nothing : stream.readBuffer.length ≤ stream.readPos) (open_ : stream.eof = false)
  (counts : stream.Counts 0) (long : 4 ≤ plain.length)

include opens idles used nothing open_ counts long

theorem turn_inHeaderLength (short : plain.length ≤ vmessResponseHeaderMax)
    (echo : stream.expectedResponseHeader = some (plain.getD 0 0))
    (awaits : stream.Awaits .headerLength
      (sealResponseHeaderLength primitives stream.decKey stream.decIv plain.length)
      (sealResponseHeaderPayload primitives stream.decKey stream.decIv plain ++ rest))
    (carries : stream.Carries primitives trailing 0 rest text) :
    stream.TurnDelivers primitives trailing text room before := by
  refine turnDelivers_of_awaits idles used nothing open_ awaits ?_ ?_
  · intro fill polls whole
    let payload := sealResponseHeaderPayload primitives stream.decKey stream.decIv plain
    refine ⟨{ stream.filledWith fill ⟨payload ++ rest, polls⟩ with
      fill := .zeroed (plain.length + vmessAeadAuthLen)
      stage := .headerPayload }, ?_, rfl, ?_⟩
    · have stage : (stream.filledWith fill ⟨payload ++ rest, polls⟩).stage = .headerLength :=
        awaits.stage
      have opened : openResponseHeaderLength primitives stream.decKey stream.decIv fill.bytes =
          .ok plain.length := by
        rw [whole, openResponseHeaderLength_seal opens _ _ (Nat.lt_of_le_of_lt short (by decide))]
      rw [advanceStage, stage]
      dsimp only [filledWith]
      rw [opened]
      dsimp only
      rw [if_neg (Nat.not_lt.mpr short)]
    · have length : payload.length = plain.length + vmessAeadAuthLen :=
        opens.aes128Gcm.length_encrypt _ _ _
      refine Stands.inHeaderPayload nothing open_
        (counts.same rfl rfl) long echo ⟨rfl, ?_, ?_, rfl⟩ carries
      · exact (List.length_replicate).trans length.symm
      · change 0 < (List.replicate (plain.length + vmessAeadAuthLen) (0 : Byte)).length
        rw [List.length_replicate]
        omega
  · intro fill wire polls awaits'
    exact Stands.inHeaderLength nothing open_ (counts.same rfl rfl) long
      short echo awaits' carries

theorem turn_inHeaderPayload (echo : stream.expectedResponseHeader = some (plain.getD 0 0))
    (awaits : stream.Awaits .headerPayload
      (sealResponseHeaderPayload primitives stream.decKey stream.decIv plain) rest)
    (carries : stream.Carries primitives trailing 0 rest text) :
    stream.TurnDelivers primitives trailing text room before := by
  refine turnDelivers_of_awaits idles used nothing open_ awaits ?_ ?_
  · intro fill polls whole
    refine ⟨beginChunkLength { stream.filledWith fill ⟨rest, polls⟩ with
      expectedResponseHeader := none }, ?_, rfl, ?_⟩
    · have stage : (stream.filledWith fill ⟨rest, polls⟩).stage = .headerPayload := awaits.stage
      have opened : openResponseHeaderPayload primitives stream.decKey stream.decIv fill.bytes =
          .ok plain := by
        rw [whole, openResponseHeaderPayload_seal opens]
      rw [advanceStage, stage]
      dsimp only [filledWith]
      rw [opened, echo]
      dsimp only
      rw [if_neg (Nat.not_lt.mpr long), if_neg (fun differs => differs rfl)]
      rfl
    · have stands := @stands_beginChunkLength primitives
        { stream.filledWith fill ⟨rest, polls⟩ with expectedResponseHeader := none } text trailing
        rest polls 0 rfl open_ (counts.same rfl rfl) carries
      rwa [filledWith, List.drop_eq_nil_of_le nothing, List.nil_append] at stands
  · intro fill wire polls awaits'
    exact Stands.inHeaderPayload nothing open_ (counts.same rfl rfl) long
      echo awaits' carries

end

theorem turn_buffered (idles : Idles stream.inner.polls) (used : stream.effort ≤ before)
    {count : Nat} (some : stream.readPos < stream.readBuffer.length) (open_ : stream.eof = false)
    (counts : stream.Counts count) (stage : stream.stage = .chunkLength)
    (length : stream.fill.bytes.length = 2) (partly : stream.fill.filled < 2)
    (carries : stream.Carries primitives trailing count (stream.fill.assembled ++ stream.inner.wire)
      text) :
    stream.TurnDelivers primitives trailing (stream.readBuffer.drop stream.readPos ++ text) room before := by
  have taken_length : (slice stream.readBuffer stream.readPos
      (min (stream.readBuffer.length - stream.readPos) room)).length =
      min (stream.readBuffer.length - stream.readPos) room := by
    rw [slice, List.length_take, List.length_drop]
    omega
  have split : stream.readBuffer.drop stream.readPos ++ text =
      slice stream.readBuffer stream.readPos
        (min (stream.readBuffer.length - stream.readPos) room) ++
      (stream.readBuffer.drop (stream.readPos +
        min (stream.readBuffer.length - stream.readPos) room) ++ text) := by
    rw [slice, ← List.append_assoc, ← List.drop_drop, List.take_append_drop]
  have nonempty : slice stream.readBuffer stream.readPos
      (min (stream.readBuffer.length - stream.readPos) room) = [] → room = 0 := by
    intro empty
    rw [empty, List.length_nil] at taken_length
    omega
  have fits : (slice stream.readBuffer stream.readPos
      (min (stream.readBuffer.length - stream.readPos) room)).length ≤ room := by
    rw [taken_length]
    exact Nat.min_le_right _ _
  rw [TurnDelivers, turn, if_pos some]
  dsimp only
  generalize min (stream.readBuffer.length - stream.readPos) room = taken at *
  by_cases all : stream.readBuffer.length ≤ stream.readPos + taken
  · rw [if_pos all]
    rw [List.drop_eq_nil_of_le all] at split
    exact Delivery.gives split fits (fun empty => Or.inl (nonempty empty))
      ⟨idles, @Stands.atChunkLength primitives trailing { stream with readBuffer := [], readPos := 0 }
        count text open_ (counts.same rfl rfl) stage length partly carries⟩ used
  · rw [if_neg all]
    exact Delivery.gives split fits (fun empty => Or.inl (nonempty empty))
      ⟨idles, @Stands.atChunkLength primitives trailing
        { stream with readPos := stream.readPos + taken }
        count text open_ (counts.same rfl rfl) stage length partly carries⟩ used

theorem turn_closed (idles : Idles stream.inner.polls) (used : stream.effort ≤ before)
    {count : Nat} (nothing : stream.readBuffer.length ≤ stream.readPos)
    (open_ : stream.eof = false) (counts : stream.Counts count)
    (stage : stream.stage = .chunkLength) (length : stream.fill.bytes.length = 2)
    (partly : stream.fill.filled < 2)
    (empty : stream.fill.assembled ++ stream.inner.wire = []) (none : trailing = []) :
    stream.TurnDelivers primitives trailing [] room before := by
  have inside : stream.fill.Fits := by
    rw [Scratch.Fits, length]
    exact Nat.le_of_lt partly
  rw [TurnDelivers, turn, if_neg (Nat.not_lt.mpr nothing), if_neg (by simp [open_]), fillStage]
  have filling := Scratch.filling_fill inside stream.inner
  generalize stream.fill.fill stream.inner = result at filling
  cases filling with
  | @full fill left polls length' whole same later =>
      have total := congrArg List.length same
      rw [empty, List.length_append, length', length, List.length_nil] at total
      omega
  | @short fill polls length' partly' same taken later =>
      have zero : fill.filled = 0 := by
        rw [taken, ← same, empty, List.length_nil]
      dsimp only
      rw [if_pos (by simp [stage, zero])]
      dsimp only
      rw [if_pos rfl]
      exact @Delivery.gives _ _ _ _ _ [] [] _ rfl (Nat.zero_le _)
        (fun _ => Or.inr ⟨rfl, none.symm⟩) ⟨idles.suffix later, Stands.ended nothing rfl none.symm⟩
        (later.length_le.trans used)
  | @failed fill left error polls length' partly' same later =>
      have running := idles error (later.subset List.mem_cons_self)
      have stands := @Stands.atChunkLength primitives trailing
        { stream with fill := fill, inner := ⟨left, polls⟩ } count [] open_
        (counts.same rfl rfl) stage (length'.trans length) (length ▸ length' ▸ partly') (by
          change Body _ _ _ _ _ count (fill.assembled ++ left) []
          rw [← same, empty]
          exact Body.closed count none)
      dsimp only at stands
      rw [List.drop_eq_nil_of_le nothing] at stands
      dsimp only
      rw [if_pos running]
      dsimp only
      rw [if_neg (by simp [open_]), if_pos (by simp)]
      exact Delivery.idles rfl ⟨idles.suffix ((List.suffix_cons _ polls).trans later), stands⟩
        (Nat.lt_of_lt_of_le later.length_le used)

theorem turn_atChunkLength (opens : primitives.Opens) (idles : Idles stream.inner.polls)
    (used : stream.effort ≤ before) {count : Nat}
    (nothing : stream.readBuffer.length ≤ stream.readPos) (open_ : stream.eof = false)
    (counts : stream.Counts count) (stage : stream.stage = .chunkLength)
    (length : stream.fill.bytes.length = 2) (partly : stream.fill.filled < 2)
    (carries : stream.Carries primitives trailing count (stream.fill.assembled ++ stream.inner.wire)
      text) : stream.TurnDelivers primitives trailing text room before := by
  rcases Body.cases opens carries with
    ⟨empty, none, rfl⟩ | ⟨block, rest, small, wire, means⟩
  · exact turn_closed idles used nothing open_ counts stage length partly empty none
  have awaits : stream.Awaits .chunkLength (toBeBytes 2 (BitVec.ofNat 16 block.length))
      (block ++ rest) :=
    ⟨stage, length.trans (length_toBeBytes 2 _).symm, length ▸ partly, wire⟩
  refine turnDelivers_of_awaits idles used nothing open_ awaits ?_ ?_
  · intro fill polls whole
    have value : ofBeBytes (slice fill.bytes 0 2) = block.length := by
      rw [whole, ← List.append_nil (toBeBytes 2 (BitVec.ofNat 16 block.length)),
        slice_here (length_toBeBytes 2 _), ofBeBytes_toBeBytes, BitVec.toNat_ofNat]
      omega
    have stage' : (stream.filledWith fill ⟨block ++ rest, polls⟩).stage = .chunkLength := stage
    have means' : block = [] → rest = trailing ∧ text = [] := by
      intro empty
      rcases means with ⟨_, none⟩ | means
      · exact none
      · cases means with
        | ended _ => exact ⟨rfl, rfl⟩
        | chunk nonempty _ _ =>
            have total := congrArg List.length empty
            rw [length_sealChunk opens, List.length_nil] at total
            exact absurd (List.length_eq_zero_iff.mp (Nat.eq_zero_of_add_eq_zero_right total))
              nonempty
    by_cases zero : block.length = 0
    · refine ⟨{ stream.filledWith fill ⟨block ++ rest, polls⟩ with eof := true }, ?_, rfl, ?_⟩
      · rw [advanceStage, stage']
        dsimp only [filledWith]
        rw [value, if_pos zero, ← stage]
      · have empty := List.length_eq_zero_iff.mp zero
        rw [(means' empty).2]
        refine Stands.ended nothing rfl ?_
        change block ++ rest = trailing
        rw [empty, (means' empty).1, List.nil_append]
    · refine ⟨{ stream.filledWith fill ⟨block ++ rest, polls⟩ with
        fill := .zeroed block.length
        stage := .chunkPayload }, ?_, rfl, ?_⟩
      · rw [advanceStage, stage']
        dsimp only [filledWith]
        rw [value, if_neg zero]
      · rcases means with ⟨empty, _⟩ | means
        · exact absurd (congrArg List.length empty) zero
        · refine @Stands.inChunkPayload primitives trailing _ count block rest text nothing open_
            (counts.same rfl rfl) ⟨rfl, List.length_replicate, ?_, rfl⟩ means
          change 0 < (List.replicate block.length (0 : Byte)).length
          rw [List.length_replicate]
          exact Nat.pos_of_ne_zero zero
  · intro fill left polls awaits'
    have stands := @Stands.atChunkLength primitives trailing (stream.filledWith fill ⟨left, polls⟩) count
      text open_ (counts.same rfl rfl) stage (awaits'.length.trans (length_toBeBytes 2 _))
      (length_toBeBytes 2 (BitVec.ofNat 16 block.length) ▸ awaits'.length ▸ awaits'.partly) (by
        rw [awaits'.wire, ← wire]
        exact carries)
    change Stands primitives trailing _ (stream.readBuffer.drop stream.readPos ++ text) at stands
    rwa [List.drop_eq_nil_of_le nothing, List.nil_append] at stands

theorem Counts.next {other : VmessStream} {count : Nat} (counts : stream.Counts count)
    (counted : count < 2 ^ 16) (value : other.decCount = stream.decCount + 1)
    (exhausted : other.decExhausted =
      (stream.decExhausted || decide (stream.decCount = BitVec.allOnes 16))) :
    other.Counts (count + 1) := by
  refine ⟨counted, ?_, ?_⟩
  · rw [value, counts.value, BitVec.ofNat_add]
    rfl
  · rw [exhausted, counts.exhausted, decide_eq_false (Nat.ne_of_lt counted), Bool.false_or,
      counts.value]
    congr 1
    rw [← BitVec.toNat_inj, BitVec.toNat_ofNat, BitVec.toNat_allOnes, Nat.mod_eq_of_lt counted,
      eq_iff_iff]
    omega

/-- The stream behind a chunk that was opened. -/
def opened (stream : VmessStream) : VmessStream :=
  { stream with
    decExhausted := stream.decExhausted || stream.decCount = BitVec.allOnes 16
    decCount := stream.decCount + 1 }

variable (opens : primitives.Opens)

include opens

theorem advanceStage_chunkPayload (stage : stream.stage = .chunkPayload)
    (fresh : stream.decExhausted = false) {data : List Byte}
    (whole : stream.fill.bytes =
      sealChunk primitives stream.cipher data stream.decKey stream.decIv stream.decCount) :
    stream.advanceStage primitives = (.ok (),
      if data = [] then { stream.opened with eof := true }
      else { stream.opened with readBuffer := data, readPos := 0 }.beginChunkLength) := by
  rw [advanceStage, stage]
  dsimp only
  rw [if_neg (by simp [fresh]), whole, decryptChunkStatic_sealChunk opens]
  dsimp only
  by_cases empty : data = []
  · rw [if_pos empty, if_pos empty, ← stage]
    rfl
  · rw [if_neg empty, if_neg empty]
    rfl

theorem turn_inChunkPayload (idles : Idles stream.inner.polls) (used : stream.effort ≤ before)
    {count : Nat} (nothing : stream.readBuffer.length ≤ stream.readPos) (open_ : stream.eof = false)
    (counts : stream.Counts count) (awaits : stream.Awaits .chunkPayload block rest)
    (means : Block primitives stream.cipher stream.decKey stream.decIv trailing count block rest
      text) :
    stream.TurnDelivers primitives trailing text room before := by
  refine turnDelivers_of_awaits idles used nothing open_ awaits ?_ ?_
  · intro fill polls whole
    have stage : (stream.filledWith fill ⟨rest, polls⟩).stage = .chunkPayload := awaits.stage
    have unused : count < 2 ^ 16 → (stream.filledWith fill ⟨rest, polls⟩).decExhausted = false := by
      intro counted
      exact counts.exhausted.trans (decide_eq_false (Nat.ne_of_lt counted))
    cases means with
    | ended counted =>
        rw [← counts.value] at whole
        refine ⟨_, advanceStage_chunkPayload opens stage (unused counted) whole, ?_, ?_⟩
        · rw [if_pos rfl]
          rfl
        · rw [if_pos rfl]
          exact Stands.ended nothing rfl rfl
    | @chunk data _ later nonempty counted carries =>
        rw [← counts.value] at whole
        refine ⟨_, advanceStage_chunkPayload opens stage (unused counted) whole, ?_, ?_⟩
        · rw [if_neg nonempty]
          rfl
        · rw [if_neg nonempty]
          exact @stands_beginChunkLength primitives
            { (stream.filledWith fill ⟨rest, polls⟩).opened with readBuffer := data, readPos := 0 }
            later trailing rest polls (count + 1) rfl open_
            (Counts.next counts counted rfl rfl) carries
  · intro fill left polls awaits'
    exact Stands.inChunkPayload nothing open_ (counts.same rfl rfl) awaits' means

/-- Wherever the reader stands, a turn stands elsewhere in the same text or
delivers. -/
theorem turn_delivers (ahead : stream.Ahead primitives trailing text)
    (used : stream.effort ≤ before) : stream.TurnDelivers primitives trailing text room before := by
  rcases ahead with ⟨idles, stands⟩
  cases stands with
  | inLegacyHeader nothing open_ counts length echo noPort awaits carries =>
      exact turn_inLegacyHeader opens idles used nothing open_ counts length echo noPort awaits
        carries
  | inHeaderLength nothing open_ counts long short echo awaits carries =>
      exact turn_inHeaderLength opens idles used nothing open_ counts long short echo awaits carries
  | inHeaderPayload nothing open_ counts long echo awaits carries =>
      exact turn_inHeaderPayload opens idles used nothing open_ counts long echo awaits carries
  | @atChunkLength count text open_ counts stage length partly carries =>
      by_cases some : stream.readPos < stream.readBuffer.length
      · exact turn_buffered idles used some open_ counts stage length partly carries
      · have nothing := Nat.le_of_not_lt some
        rw [List.drop_eq_nil_of_le nothing, List.nil_append]
        exact turn_atChunkLength opens idles used nothing open_ counts stage length partly carries
  | inChunkPayload nothing open_ counts awaits means =>
      exact turn_inChunkPayload opens idles used nothing open_ counts awaits means
  | ended nothing past left =>
      rw [TurnDelivers, turn, if_neg (Nat.not_lt.mpr nothing), if_pos past]
      exact @Delivery.gives _ _ _ _ _ [] [] _ rfl (Nat.zero_le _) (fun _ => Or.inr ⟨rfl, left⟩)
        ⟨idles, Stands.ended nothing past left⟩ used

/-- Every read delivers what is ahead of it. -/
theorem read_delivers :
    Delivers (read primitives) (terms primitives trailing) := by
  intro stream text room ahead
  exact loop_returns
    (fun next : VmessStream => next.Ahead primitives trailing text ∧ next.effort ≤ stream.effort)
    (fun next => next.inner.wire.length)
    (Delivery (terms primitives trailing) text room stream.effort)
    (fun next holds => turn_delivers opens holds.1 holds.2)
    (⟨ahead, Nat.le_refl _⟩ : _ ∧ stream.effort ≤ stream.effort)
    (Nat.lt_succ_self stream.inner.wire.length)

theorem ahead_new {cipher : VmessCipher} {encKey encIv decKey decIv : Octets 16} {expected : Byte}
    {legacy : Bool} {header wire : List Byte} {polls : List Poll} (idles : Idles polls)
    (begins : Header primitives decKey decIv expected legacy header)
    (carries : Body primitives cipher decKey decIv trailing 0 wire text) :
    Ahead primitives trailing
      (new ⟨header ++ wire, polls⟩ cipher encKey encIv decKey decIv expected legacy) text := by
  refine ⟨idles, ?_⟩
  have counts : Counts (new ⟨header ++ wire, polls⟩ cipher encKey encIv decKey decIv expected
      legacy) 0 := ⟨Nat.zero_le _, rfl, rfl⟩
  cases begins with
  | @legacy block length echo noPort =>
      refine Stands.inLegacyHeader (Nat.le_refl _) rfl counts length (echo ▸ rfl) noPort
        ⟨rfl, ?_, (by decide : 0 < 4), rfl⟩ carries
      rw [length_aes128CfbEncrypt opens, length]
      rfl
  | @aead plain long short echo =>
      refine Stands.inHeaderLength (Nat.le_refl _) rfl counts long short (echo ▸ rfl)
        ⟨rfl, ?_, (by decide : 0 < 18), ?_⟩ carries
      · change (List.replicate 18 (0 : Byte)).length =
          (sealResponseHeaderLength primitives decKey decIv plain.length).length
        rw [sealResponseHeaderLength, opens.aes128Gcm.length_encrypt, length_toBeBytes,
          List.length_replicate]
      · exact List.append_assoc _ _ _

end VmessStream

end Corduit.Engine.Outbound.Vmess

/-!
# The stream of a server

A server seals one chunk after the other, with a counter for each, and may say
behind them that there is no more.
-/

namespace Corduit.Engine.Outbound.Vmess

open Crypto Transport Word

/-- How the chunks of a stream end: with the wire, with a length of zero or with
a chunk that has no text; something may follow an end that is said. -/
inductive Finish where
  | closed
  | bare (trailing : List Byte)
  | sealed (trailing : List Byte)
deriving DecidableEq

namespace Finish

/-- What follows the end. -/
def trailing : Finish → List Byte
  | closed => []
  | bare trailing => trailing
  | sealed trailing => trailing

/-- The counters that the end needs. -/
def counters : Finish → Nat
  | closed => 0
  | bare _ => 0
  | sealed _ => 1

/-- The end on the wire. -/
def encode (primitives : Primitives) (cipher : VmessCipher) (key iv : Octets 16) (count : Nat) :
    Finish → List Byte
  | closed => []
  | bare trailing => toBeBytes 2 (0 : BitVec 16) ++ trailing
  | sealed trailing =>
      encryptChunkStatic primitives cipher [] key iv (BitVec.ofNat 16 count) ++ trailing

end Finish

/-- The chunks of a server from some counter on, and the end. -/
def sealChunks (primitives : Primitives) (cipher : VmessCipher) (key iv : Octets 16)
    (finish : Finish) : Nat → List (List Byte) → List Byte
  | count, [] => finish.encode primitives cipher key iv count
  | count, data :: later =>
      encryptChunkStatic primitives cipher data key iv (BitVec.ofNat 16 count) ++
        sealChunks primitives cipher key iv finish (count + 1) later

/-- Chunks that a server can send: each has a text that fits its length, and
there is a counter for each of them and for a sealed end. -/
structure Sendable (cipher : VmessCipher) (finish : Finish) (count : Nat)
    (chunks : List (List Byte)) : Prop where
  nonempty : ∀ data ∈ chunks, data ≠ []
  fits : ∀ data ∈ chunks, data.length + overhead cipher < 2 ^ 16
  counted : count + chunks.length + finish.counters ≤ 2 ^ 16

theorem body_sealChunks (primitives : Primitives) {cipher : VmessCipher} (key iv : Octets 16)
    {finish : Finish} {count : Nat} {chunks : List (List Byte)}
    (sendable : Sendable cipher finish count chunks) :
    Body primitives cipher key iv finish.trailing count
      (sealChunks primitives cipher key iv finish count chunks) chunks.flatten := by
  induction chunks generalizing count with
  | nil =>
      have counted := sendable.counted
      cases finish with
      | closed => exact Body.closed count rfl
      | bare trailing => exact Body.bare count
      | sealed trailing => exact Body.ended (Nat.lt_of_succ_le counted)
  | cons data later ih =>
      have counted := sendable.counted
      rw [List.length_cons] at counted
      have tail : Sendable cipher finish (count + 1) later :=
        ⟨fun other member => sendable.nonempty other (List.mem_cons_of_mem _ member),
          fun other member => sendable.fits other (List.mem_cons_of_mem _ member), by omega⟩
      rw [sealChunks, List.flatten_cons]
      exact Body.chunk (sendable.nonempty data List.mem_cons_self)
        (sendable.fits data List.mem_cons_self) (by omega) (ih tail)

/-- Functions for examples: a cipher that names its key and nonce, and hashes
that forget everything. -/
def Primitives.naming : Primitives where
  aes128Gcm := Aead.tagging
  chacha20Poly1305 := Aead.tagging
  md5 _ := List.replicate 16 0
  sha256 _ := List.replicate 32 0
  aesBlock _ _ := List.replicate 16 0

theorem Primitives.opens_naming : Primitives.naming.Opens :=
  ⟨Aead.opens_tagging, Aead.opens_tagging, fun _ _ => rfl⟩

namespace VmessStream

/-- A read of a server's stream gives the texts of its chunks in order, whatever
the transport and the buffers do; it is idle only by `WouldBlock`, and says the
end when all of them and the end were taken off the wire, neither before nor
never. -/
theorem read_spells_chunks {primitives : Primitives} (opens : primitives.Opens)
    {cipher : VmessCipher} (encKey encIv : Octets 16) {decKey decIv : Octets 16} {expected : Byte}
    {legacy : Bool} {header : List Byte}
    (begins : Header primitives decKey decIv expected legacy header) {finish : Finish}
    {chunks : List (List Byte)} (sendable : Sendable cipher finish 0 chunks) {polls : List Poll}
    (idles : Idles polls) (rooms : List Nat) :
    ∃ answers stream,
      session (read primitives)
        (new ⟨header ++ sealChunks primitives cipher decKey decIv finish 0 chunks, polls⟩ cipher
          encKey encIv decKey decIv expected legacy) rooms = some (answers, stream) ∧
      Spells RanOut rooms answers chunks.flatten ∧
      (chunks.flatten.length + polls.length < (rooms.filter (0 < ·)).length →
        Ends rooms answers ∧ received answers = chunks.flatten) ∧
      ∀ earlier answers' room, rooms = earlier ++ [room] → answers = answers' ++ [.ok []] →
        0 < room → stream.inner.wire = finish.trailing := by
  have ahead : Ahead primitives finish.trailing
      (new ⟨header ++ sealChunks primitives cipher decKey decIv finish 0 chunks, polls⟩ cipher
        encKey encIv decKey decIv expected legacy) chunks.flatten :=
    ahead_new opens idles begins (body_sealChunks primitives decKey decIv sendable)
  have delivers : Delivers (read primitives) (terms primitives finish.trailing) :=
    read_delivers opens
  rcases delivers.spells ahead rooms with ⟨answers, stream, _, done, spells, _, _⟩
  refine ⟨answers, stream, done, spells, fun enough => delivers.ends ahead done enough, ?_⟩
  intro earlier answers' room rooms_eq answers_eq positive
  subst rooms_eq answers_eq
  exact delivers.ended ahead positive done

/-- Two chunks and an end, over a transport that pauses inside of the header and
of a chunk. -/
theorem read_spells_chunks_pauses :
    ∃ answers stream,
      session (read .naming)
        (new ⟨(sealResponseHeaderLength .naming (.filled 16 1) (.filled 16 2) 4 ++
          sealResponseHeaderPayload .naming (.filled 16 1) (.filled 16 2) [7, 0, 0, 0]) ++
          sealChunks .naming .aes128Gcm (.filled 16 1) (.filled 16 2) (.sealed [0xff]) 0
            [[1, 2], [3]], [.gives 4, .fails ⟨.wouldBlock, ""⟩, .gives 50, .fails ⟨.timedOut, ""⟩]⟩
          .aes128Gcm (.filled 16 3) (.filled 16 4) (.filled 16 1) (.filled 16 2) 7 false)
        (List.replicate 8 2) = some (answers, stream) ∧
      Ends (List.replicate 8 2) answers ∧ received answers = [1, 2, 3] := by
  have idles : Idles [.gives 4, .fails ⟨.wouldBlock, ""⟩, .gives 50, .fails ⟨.timedOut, ""⟩] := by
    intro error member
    simp at member
    rcases member with rfl | rfl <;> rfl
  have begins : Header .naming (.filled 16 1) (.filled 16 2) 7 false
      (sealResponseHeaderLength .naming (.filled 16 1) (.filled 16 2) 4 ++
        sealResponseHeaderPayload .naming (.filled 16 1) (.filled 16 2) [7, 0, 0, 0]) :=
    @Header.aead _ _ _ _ [7, 0, 0, 0] (by decide) (by decide) rfl
  have sendable : Sendable .aes128Gcm (.sealed [0xff]) 0 [[1, 2], [3]] :=
    ⟨by decide, by decide, by decide⟩
  rcases read_spells_chunks Primitives.opens_naming (.filled 16 3) (.filled 16 4) begins sendable
    idles (List.replicate 8 2) with ⟨answers, stream, done, _, ends, _⟩
  exact ⟨answers, stream, done, ends (by decide)⟩

end VmessStream

end Corduit.Engine.Outbound.Vmess
