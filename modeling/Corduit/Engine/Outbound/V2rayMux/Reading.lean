import Corduit.Engine.Outbound.V2rayMux.Core

/-!
# What the reader returns

The frames that a server sends for the session, and the text that they carry:
the payloads of the KEEP frames up to the END frame.  Wherever the reader stands
within a frame, what it has assembled and what is still to come carry the rest
of the text.
-/

namespace Corduit.Engine.Outbound.V2rayMux

open Transport Word

/-- The status of a frame that a server sends. -/
inductive Status where
  | keep
  | keepAlive
  | ends
deriving DecidableEq

/-- The byte of a status. -/
def Status.byte : Status → Byte
  | keep => sessionStatusKeep
  | keepAlive => sessionStatusKeepAlive
  | ends => sessionStatusEnd

/-- A frame of a server: metadata of 4 to 512 bytes, of which 4 are the session,
the status and the option, and a payload when the option says so. -/
structure ServerFrame where
  status : Status
  option : Byte
  metadata : List Byte
  data : Option (List Byte)
  metadata_le : metadata.length + 4 ≤ maxMetadata
  data_lt : ∀ payload ∈ data, payload.length < 2 ^ 16
  option_data : option &&& optionData ≠ 0 ↔ data.isSome

namespace ServerFrame

/-- The payload with its size. -/
def encodeData (data : Option (List Byte)) : List Byte :=
  match data with
  | none => []
  | some payload => toBeBytes 2 (BitVec.ofNat 16 payload.length) ++ payload

/-- The six bytes at the head of the frame. -/
def head (frame : ServerFrame) : List Byte :=
  toBeBytes 2 (BitVec.ofNat 16 (frame.metadata.length + 4)) ++ [0x00, 0x00] ++
    [frame.status.byte, frame.option]

/-- The frame on the wire. -/
def encode (frame : ServerFrame) : List Byte :=
  frame.head ++ (frame.metadata ++ encodeData frame.data)

/-- What a frame carries. -/
def text (frame : ServerFrame) : List Byte :=
  if frame.status = .keep then frame.data.getD [] else []

end ServerFrame

/-- The wire carries the text: frames one after the other, up to the end of the
wire or to an END frame, behind which anything may follow. -/
inductive Carries : List Byte → List Byte → Prop
  | closed : Carries [] []
  | ended {frame : ServerFrame} (rest : List Byte) (ends : frame.status = .ends) :
      Carries (frame.encode ++ rest) []
  | frame {frame : ServerFrame} {rest text : List Byte} (goesOn : frame.status ≠ .ends)
      (later : Carries rest text) : Carries (frame.encode ++ rest) (frame.text ++ text)

namespace ServerFrame

theorem length_head (frame : ServerFrame) : frame.head.length = 6 := by
  simp [head]

theorem encode_append (frame : ServerFrame) (rest : List Byte) :
    frame.encode ++ rest = frame.head ++ (frame.metadata ++ (encodeData frame.data ++ rest)) := by
  simp only [encode, List.append_assoc]

end ServerFrame

theorem Carries.cases {wire text : List Byte} (carries : Carries wire text) :
    (wire = [] ∧ text = []) ∨ ∃ (frame : ServerFrame) (rest : List Byte),
      wire = frame.head ++ (frame.metadata ++ (ServerFrame.encodeData frame.data ++ rest)) ∧
      ((frame.status = .ends ∧ text = []) ∨
        frame.status ≠ .ends ∧ ∃ later, Carries rest later ∧ text = frame.text ++ later) := by
  cases carries with
  | closed => exact Or.inl ⟨rfl, rfl⟩
  | @ended frame rest ends =>
      exact Or.inr ⟨frame, rest, frame.encode_append rest, Or.inl ⟨ends, rfl⟩⟩
  | @frame frame rest text goesOn later =>
      exact Or.inr ⟨frame, rest, frame.encode_append rest, Or.inr ⟨goesOn, text, later, rfl⟩⟩

/-- The payloads of the KEEP frames up to the END frame. -/
def sessionText : List ServerFrame → List Byte
  | [] => []
  | frame :: frames => if frame.status = .ends then [] else frame.text ++ sessionText frames

/-- Frames carry their text; only behind an END frame may something else
follow. -/
theorem carries_frames {frames : List ServerFrame} {trailing : List Byte}
    (closed : trailing = [] ∨ ∃ frame ∈ frames, frame.status = .ends) :
    Carries (frames.flatMap ServerFrame.encode ++ trailing) (sessionText frames) := by
  induction frames with
  | nil =>
      rcases closed with rfl | ⟨_, impossible, _⟩
      · exact Carries.closed
      · exact absurd impossible List.not_mem_nil
  | cons frame frames ih =>
      rw [List.flatMap_cons, List.append_assoc, sessionText]
      by_cases ends : frame.status = .ends
      · rw [if_pos ends]
        exact Carries.ended _ ends
      · rw [if_neg ends]
        refine Carries.frame ends (ih ?_)
        rcases closed with none | ⟨other, member, past⟩
        · exact Or.inl none
        · rcases List.mem_cons.mp member with rfl | later
          · exact absurd past ends
          · exact Or.inr ⟨other, later, past⟩

namespace MuxStream

/-- The buffers have their lengths. -/
structure Shaped (stream : MuxStream) : Prop where
  head : stream.head.bytes.length = 6
  size : stream.size.bytes.length = 2

/-- What the frame whose head was read last carries. -/
def carried (stream : MuxStream) (data : Option (List Byte)) : List Byte :=
  if stream.head.bytes.getD 4 0 = sessionStatusKeep then data.getD [] else []

/-- The reader stands somewhere in a frame, and what is to come carries the
text. -/
inductive Stands (stream : MuxStream) : List Byte → Prop
  | atHead {text : List Byte} (shaped : stream.Shaped) (going : stream.sawEnd = false)
      (partly : stream.head.filled < 6) (unsized : stream.size.filled = 0)
      (noSize : stream.sizeExpected = false) (noData : stream.dataRemaining = 0)
      (noSkip : stream.skipRemaining = 0)
      (carries : Carries (stream.head.assembled ++ stream.inner.wire) text) : Stands stream text
  | inBody {text skipped rest : List Byte} {data : Option (List Byte)} (shaped : stream.Shaped)
      (going : stream.sawEnd = false) (noHead : stream.head.filled = 0)
      (partly : stream.size.filled < 2) (unsized : 0 < stream.skipRemaining → stream.size.filled = 0)
      (sized : stream.sizeExpected = data.isSome) (noData : stream.dataRemaining = 0)
      (length : skipped.length = stream.skipRemaining)
      (underway : 0 < stream.skipRemaining ∨ data.isSome)
      (fits : ∀ payload ∈ data, payload.length < 2 ^ 16)
      (wire : stream.size.assembled ++ stream.inner.wire =
        skipped ++ (ServerFrame.encodeData data ++ rest))
      (carries : Carries rest text) : Stands stream (stream.carried data ++ text)
  | serving {payload text rest : List Byte} (shaped : stream.Shaped)
      (going : stream.sawEnd = false) (noHead : stream.head.filled = 0)
      (unsized : stream.size.filled = 0) (noSize : stream.sizeExpected = false)
      (noSkip : stream.skipRemaining = 0) (underway : 0 < stream.dataRemaining)
      (length : payload.length = stream.dataRemaining)
      (wire : stream.inner.wire = payload ++ rest) (carries : Carries rest text) :
      Stands stream (payload ++ text)
  | ended (past : stream.sawEnd = true) (noHead : stream.head.filled = 0)
      (noData : stream.dataRemaining = 0)
      (there : stream.skipRemaining ≤ stream.inner.wire.length) : Stands stream []

variable {stream : MuxStream} {text rest : List Byte}

section

variable (shaped : stream.Shaped) (going : stream.sawEnd = false) (noHead : stream.head.filled = 0)
  (unsized : stream.size.filled = 0)

include shaped going noHead unsized

theorem stands_between (noSize : stream.sizeExpected = false) (noData : stream.dataRemaining = 0)
    (noSkip : stream.skipRemaining = 0) (carries : Carries stream.inner.wire text) :
    stream.Stands text := by
  refine Stands.atHead shaped going ?_ unsized noSize noData noSkip ?_
  · rw [noHead]
    exact Nat.succ_pos 5
  · rw [Scratch.assembled, noHead]
    exact carries

theorem stands_body {data : Option (List Byte)} (sized : stream.sizeExpected = data.isSome)
    (noData : stream.dataRemaining = 0) {skipped : List Byte}
    (length : skipped.length = stream.skipRemaining)
    (fits : ∀ payload ∈ data, payload.length < 2 ^ 16)
    (wire : stream.inner.wire = skipped ++ (ServerFrame.encodeData data ++ rest))
    (carries : Carries rest text) : stream.Stands (stream.carried data ++ text) := by
  by_cases underway : 0 < stream.skipRemaining ∨ data.isSome
  · refine Stands.inBody shaped going noHead ?_ (fun _ => unsized) sized noData length underway fits
      ?_ carries
    · rw [unsized]
      exact Nat.succ_pos 1
    · rw [Scratch.assembled, unsized]
      exact wire
  · rcases not_or.mp underway with ⟨noSkip, noPayload⟩
    have noSkip := Nat.eq_zero_of_not_pos noSkip
    have none := Option.not_isSome_iff_eq_none.mp noPayload
    have empty : skipped = [] := List.length_eq_zero_iff.mp (length.trans noSkip)
    subst none empty
    have nothing : stream.carried none = [] := by
      rw [carried]
      split <;> rfl
    rw [nothing]
    exact stands_between shaped going noHead unsized sized noData noSkip (wire ▸ carries)

end

theorem takeHead_of_frame {frame : ServerFrame} (same : stream.head.bytes = frame.head) :
    stream.takeHead = .ok { stream with
      sawEnd := stream.sawEnd || frame.status = .ends
      skipRemaining := stream.skipRemaining + frame.metadata.length
      sizeExpected := stream.sizeExpected || frame.data.isSome } := by
  have short := frame.metadata_le
  have length : ofBeBytes (slice frame.head 0 2) = frame.metadata.length + 4 := by
    change ofBeBytes (toBeBytes 2 (BitVec.ofNat 16 (frame.metadata.length + 4))) = _
    rw [ofBeBytes_toBeBytes, BitVec.toNat_ofNat]
    unfold maxMetadata at short
    omega
  have session : ofBeBytes (slice frame.head 2 2) = 0 := rfl
  have status : frame.head.getD 4 0 = frame.status.byte := rfl
  have option : frame.head.getD 5 0 = frame.option := rfl
  have sized : decide (frame.option &&& optionData ≠ 0) = frame.data.isSome := by
    rw [Bool.eq_iff_iff, decide_eq_true_iff]
    exact frame.option_data
  rw [takeHead, same, length, session, status, option, Nat.add_sub_cancel]
  cases known : frame.status <;>
    simp [Status.byte, sessionStatusNew, sessionStatusKeep, sessionStatusKeepAlive,
      sessionStatusEnd, short, ← sized]

/-- The transport ran out of time. -/
def RanOut (error : IoError) : Prop :=
  error.kind.isReadIntervalElapsed = true

/-- The text is ahead of a reader whose transport only ever runs out of time. -/
def Ahead (stream : MuxStream) (text : List Byte) : Prop :=
  Idles stream.inner.polls ∧ stream.Stands text

/-- What the transport may still do instead of giving bytes. -/
def effort (stream : MuxStream) : Nat :=
  stream.inner.polls.length

/-- The terms that the reader delivers by. -/
def terms : Terms MuxStream where
  idle := RanOut
  ahead := Ahead
  effort := effort
  ended _ := True

/-- What one turn of `read` has to do: stand elsewhere in the same text, behind
a byte that it took off the transport, or deliver. -/
def TurnDelivers (text : List Byte) (room before : Nat) (stream : MuxStream) : Prop :=
  (stream.turn room).Meets (fun next => next.Ahead text ∧ next.effort ≤ before)
    (fun next => next.inner.wire.length) (Delivery terms text room before)
    stream.inner.wire.length

variable {room before : Nat}

theorem not_over (going : stream.sawEnd = false) :
    ¬ (stream.sawEnd && stream.head.filled = 0 && stream.skipRemaining = 0) = true := by
  rw [going, Bool.false_and, Bool.false_and]
  exact Bool.false_ne_true

theorem turn_serving (idles : Idles stream.inner.polls) (used : stream.effort ≤ before)
    (positive : 0 < room) {payload : List Byte} (shaped : stream.Shaped)
    (going : stream.sawEnd = false) (noHead : stream.head.filled = 0)
    (unsized : stream.size.filled = 0) (noSize : stream.sizeExpected = false)
    (noSkip : stream.skipRemaining = 0) (underway : 0 < stream.dataRemaining)
    (length : payload.length = stream.dataRemaining)
    (wire : stream.inner.wire = payload ++ rest) (carries : Carries rest text) :
    stream.TurnDelivers (payload ++ text) room before := by
  rw [TurnDelivers, turn, if_pos underway, drainPayload]
  rcases stream.inner.read_cases (Nat.lt_min.mpr ⟨underway, positive⟩) with
    ⟨count, polls, gives, some, fits, later⟩ | ⟨error, polls, fails, first⟩
  · have within : count ≤ payload.length := by omega
    have taken : stream.inner.wire.take count = payload.take count := by
      rw [wire, List.take_append_of_le_length within]
    have left : stream.inner.wire.drop count = payload.drop count ++ rest := by
      rw [wire, List.drop_append_of_le_length within]
    have taken_length : (payload.take count).length = count := List.length_take_of_le within
    rw [gives, taken, left]
    obtain ⟨byte, bytes, cons⟩ := List.exists_cons_of_length_pos (taken_length.symm ▸ some)
    rw [cons]
    dsimp only [Turn.Meets]
    rw [← cons, taken_length]
    refine @Delivery.gives _ _ _ _ _ _ (payload.drop count ++ text) _ ?_ ?_ ?_ ⟨?_, ?_⟩ ?_
    · rw [← List.append_assoc, List.take_append_drop]
    · rw [taken_length]
      omega
    · intro empty
      rw [empty, List.length_nil] at taken_length
      omega
    · exact idles.suffix later
    · by_cases done : count = payload.length
      · rw [done, List.drop_length]
        refine stands_between ⟨shaped.head, shaped.size⟩ going noHead unsized noSize ?_ noSkip
          carries
        dsimp only
        omega
      · refine Stands.serving ⟨shaped.head, shaped.size⟩ going noHead unsized noSize noSkip ?_ ?_
          rfl carries
        · dsimp only
          omega
        · rw [List.length_drop, length]
    · exact later.length_le.trans used
  · have running : RanOut error := idles error (first ▸ List.mem_cons_self)
    rw [fails]
    dsimp only [Turn.Meets]
    have shorter : polls.length < stream.inner.polls.length := by
      rw [← first]
      exact Nat.lt_succ_self _
    refine Delivery.idles running ⟨?_, ?_⟩ (Nat.lt_of_lt_of_le shorter used)
    · exact idles.suffix (first ▸ List.suffix_cons _ polls)
    · exact Stands.serving ⟨shaped.head, shaped.size⟩ going noHead unsized noSize noSkip underway
        length wire carries

theorem drainSkip_cases (there : stream.skipRemaining ≤ stream.inner.wire.length) :
    (∃ polls, stream.drainSkip = (.ok (),
        { stream with
          inner := ⟨stream.inner.wire.drop stream.skipRemaining, polls⟩
          skipRemaining := 0 }) ∧ polls <:+ stream.inner.polls) ∨
    ∃ count error polls, stream.drainSkip = (.error error,
        { stream with
          inner := ⟨stream.inner.wire.drop count, polls⟩
          skipRemaining := stream.skipRemaining - count }) ∧
      count < stream.skipRemaining ∧ .fails error :: polls <:+ stream.inner.polls := by
  rw [drainSkip]
  rcases Incoming.fill_cases (by decide : 0 < 4096) stream.inner stream.skipRemaining with
    ⟨polls, filled, _, rest⟩ | ⟨_, _, less, _⟩ | ⟨count, error, polls, failed, fewer, most, _, rest⟩
  · rw [filled]
    refine Or.inl ⟨polls, ?_, rest⟩
    dsimp only
    rw [List.length_take_of_le there, Nat.sub_self]
  · exact absurd there (Nat.not_le_of_lt less)
  · rw [failed]
    refine Or.inr ⟨count, error, polls, ?_, fewer, rest⟩
    dsimp only
    rw [List.length_take_of_le most]

section

variable (idles : Idles stream.inner.polls) (used : stream.effort ≤ before)

include idles used

/-- The reader skips metadata or a payload that is not the session's. -/
theorem turn_skipping {skipped : List Byte} {data : Option (List Byte)} (shaped : stream.Shaped)
    (going : stream.sawEnd = false) (noHead : stream.head.filled = 0)
    (unsized : stream.size.filled = 0) (sized : stream.sizeExpected = data.isSome)
    (noData : stream.dataRemaining = 0) (some : 0 < stream.skipRemaining)
    (length : skipped.length = stream.skipRemaining)
    (fits : ∀ payload ∈ data, payload.length < 2 ^ 16)
    (wire : stream.inner.wire = skipped ++ (ServerFrame.encodeData data ++ rest))
    (carries : Carries rest text) :
    stream.TurnDelivers (stream.carried data ++ text) room before := by
  have there : stream.skipRemaining ≤ stream.inner.wire.length := by
    rw [wire, List.length_append, length]
    exact Nat.le_add_right _ _
  rw [TurnDelivers, turn, if_neg (Nat.not_lt.mpr (Nat.le_zero.mpr noData)),
    if_neg (not_over going), if_pos some]
  rcases drainSkip_cases there with
    ⟨polls, drained, later⟩ | ⟨count, error, polls, failed, fewer, later⟩
  · rw [drained]
    dsimp only [Turn.Meets]
    refine ⟨⟨⟨idles.suffix later, ?_⟩, later.length_le.trans used⟩, ?_⟩
    · have left : stream.inner.wire.drop stream.skipRemaining =
          [] ++ (ServerFrame.encodeData data ++ rest) := by
        rw [wire, ← length, List.drop_left, List.nil_append]
      exact @stands_body
        { stream with
          inner := ⟨stream.inner.wire.drop stream.skipRemaining, polls⟩
          skipRemaining := 0 }
        text rest ⟨shaped.head, shaped.size⟩ going noHead unsized data sized noData []
        List.length_nil fits left carries
    · rw [List.length_drop]
      omega
  · have running : RanOut error := idles error (later.subset List.mem_cons_self)
    rw [failed]
    dsimp only [Turn.Meets]
    refine Delivery.idles running ⟨?_, ?_⟩ ?_
    · exact (idles.suffix later).suffix (List.suffix_cons _ polls)
    · have left : stream.inner.wire.drop count =
          skipped.drop count ++ (ServerFrame.encodeData data ++ rest) := by
        rw [wire, List.drop_append_of_le_length (by omega)]
      have fewer' : (skipped.drop count).length = stream.skipRemaining - count := by
        rw [List.length_drop, length]
      exact @stands_body
        { stream with
          inner := ⟨stream.inner.wire.drop count, polls⟩
          skipRemaining := stream.skipRemaining - count }
        text rest ⟨shaped.head, shaped.size⟩ going noHead unsized data sized noData
        (skipped.drop count) fewer' fits left carries
    · exact Nat.lt_of_lt_of_le (Nat.lt_of_lt_of_le (Nat.lt_succ_self _) later.length_le) used

theorem turn_sizing {payload : List Byte} (shaped : stream.Shaped) (going : stream.sawEnd = false)
    (noHead : stream.head.filled = 0) (partly : stream.size.filled < 2)
    (sized : stream.sizeExpected = true) (noData : stream.dataRemaining = 0)
    (noSkip : stream.skipRemaining = 0) (fits : payload.length < 2 ^ 16)
    (wire : stream.size.assembled ++ stream.inner.wire =
      ServerFrame.encodeData (some payload) ++ rest)
    (carries : Carries rest text) :
    stream.TurnDelivers (stream.carried (some payload) ++ text) room before := by
  have size_length := shaped.size
  have inside : stream.size.Fits := by
    rw [Scratch.Fits, size_length]
    exact Nat.le_of_lt partly
  have assembled_length := Scratch.length_assembled inside
  have total := congrArg List.length wire
  rw [List.length_append, assembled_length, ServerFrame.encodeData, List.length_append,
    List.length_append, length_toBeBytes] at total
  rw [TurnDelivers, turn, if_neg (Nat.not_lt.mpr (Nat.le_zero.mpr noData)),
    if_neg (not_over going), if_neg (Nat.not_lt.mpr (Nat.le_zero.mpr noSkip)), if_pos sized]
  have filling := Scratch.filling_fill inside stream.inner
  generalize stream.size.fill stream.inner = result at filling
  cases filling with
  | @full size left polls length whole same later =>
      rw [size_length] at length
      rw [ServerFrame.encodeData, List.append_assoc] at wire
      have split := List.append_inj (same.symm.trans wire)
        (length.trans (length_toBeBytes 2 _).symm)
      have value : ofBeBytes size.bytes = payload.length := by
        rw [split.1, ofBeBytes_toBeBytes, BitVec.toNat_ofNat]
        omega
      have left_length := congrArg List.length split.2
      rw [List.length_append] at left_length
      dsimp only
      rw [value]
      by_cases keeps : stream.head.bytes.getD 4 0 = sessionStatusKeep
      · rw [if_pos keeps]
        dsimp only [Turn.Meets]
        refine ⟨⟨⟨idles.suffix later, ?_⟩, later.length_le.trans used⟩, by omega⟩
        rw [carried, if_pos keeps]
        by_cases empty : payload = []
        · subst empty
          exact stands_between ⟨shaped.head, length⟩ going noHead rfl rfl rfl noSkip
            (split.2 ▸ carries)
        · exact Stands.serving ⟨shaped.head, length⟩ going noHead rfl rfl noSkip
            (List.length_pos_iff.mpr empty) rfl split.2 carries
      · rw [if_neg keeps]
        dsimp only [Turn.Meets]
        refine ⟨⟨⟨idles.suffix later, ?_⟩, later.length_le.trans used⟩, by omega⟩
        have skips : stream.carried (some payload) = stream.carried none := by
          rw [carried, carried, if_neg keeps, if_neg keeps]
        rw [skips, noSkip, Nat.zero_add]
        exact @stands_body
          { stream with
            inner := ⟨left, polls⟩
            size := { size with filled := 0 }
            sizeExpected := false
            skipRemaining := payload.length }
          text rest ⟨shaped.head, length⟩ going noHead rfl none rfl noData payload rfl
          (fun _ member => nomatch member) split.2 carries
  | @short size polls length partly' same taken later =>
      have less := Scratch.length_assembled (Nat.le_of_lt partly')
      rw [← same, List.length_append, assembled_length] at less
      omega
  | @failed size left error polls length partly' same later =>
      have running : RanOut error := idles error (later.subset List.mem_cons_self)
      dsimp only [Turn.Meets]
      refine Delivery.idles running ⟨?_, ?_⟩ ?_
      · exact (idles.suffix later).suffix (List.suffix_cons _ polls)
      · rw [length, size_length] at partly'
        rw [wire] at same
        exact @Stands.inBody
          { stream with inner := ⟨left, polls⟩, size := size } text [] rest (some payload)
          ⟨shaped.head, length.trans size_length⟩ going noHead partly'
          (fun some => absurd noSkip (Nat.ne_of_gt some)) sized noData noSkip.symm (Or.inr rfl)
          (fun _ member => Option.mem_some_iff.mp member ▸ fits) same.symm carries
      · exact Nat.lt_of_lt_of_le (Nat.lt_of_lt_of_le (Nat.lt_succ_self _) later.length_le) used

theorem turn_atHead (shaped : stream.Shaped) (going : stream.sawEnd = false)
    (partly : stream.head.filled < 6) (unsized : stream.size.filled = 0)
    (noSize : stream.sizeExpected = false) (noData : stream.dataRemaining = 0)
    (noSkip : stream.skipRemaining = 0)
    (carries : Carries (stream.head.assembled ++ stream.inner.wire) text) :
    stream.TurnDelivers text room before := by
  have head_length := shaped.head
  have inside : stream.head.Fits := by
    rw [Scratch.Fits, head_length]
    exact Nat.le_of_lt partly
  rw [TurnDelivers, turn, if_neg (Nat.not_lt.mpr (Nat.le_zero.mpr noData)),
    if_neg (not_over going), if_neg (Nat.not_lt.mpr (Nat.le_zero.mpr noSkip)),
    if_neg (Bool.not_eq_true _ ▸ noSize)]
  have filling := Scratch.filling_fill inside stream.inner
  generalize stream.head.fill stream.inner = result at filling
  cases filling with
  | @full head left polls length whole same later =>
      have wires := congrArg List.length same
      rw [List.length_append, List.length_append, Scratch.length_assembled inside, length,
        head_length] at wires
      rw [same] at carries
      rcases carries.cases with ⟨nothing, _⟩ | ⟨frame, rest, wire, meaning⟩
      · have empty := congrArg List.length nothing
        rw [List.length_append, length, head_length, List.length_nil] at empty
        omega
      have split := List.append_inj wire
        (length.trans (head_length.trans frame.length_head.symm))
      have behind := congrArg List.length split.2
      rw [List.length_append] at behind
      dsimp only
      rw [takeHead_of_frame split.1]
      dsimp only [Turn.Meets]
      refine ⟨⟨⟨idles.suffix later, ?_⟩, later.length_le.trans used⟩, by omega⟩
      rcases meaning with ⟨ends, rfl⟩ | ⟨goesOn, text', carries', rfl⟩
      · refine Stands.ended ?_ rfl noData ?_
        · rw [decide_eq_true ends, Bool.or_true]
        · dsimp only
          omega
      · have keeps : frame.status.byte = sessionStatusKeep ↔ frame.status = .keep := by
          cases frame.status <;> decide
        have byte : head.bytes.getD 4 0 = frame.status.byte := by
          rw [split.1]
          rfl
        have expects : (stream.sizeExpected || frame.data.isSome) = frame.data.isSome := by
          rw [noSize, Bool.false_or]
        have open_ : (stream.sawEnd || decide (frame.status = .ends)) = false := by
          rw [going, decide_eq_false goesOn, Bool.false_or]
        have skips : frame.metadata.length = stream.skipRemaining + frame.metadata.length := by
          rw [noSkip, Nat.zero_add]
        have stands := @stands_body
          { stream with
            inner := ⟨left, polls⟩
            head := { head with filled := 0 }
            sawEnd := stream.sawEnd || frame.status = .ends
            skipRemaining := stream.skipRemaining + frame.metadata.length
            sizeExpected := stream.sizeExpected || frame.data.isSome }
          text' rest ⟨length.trans head_length, shaped.size⟩ open_ rfl unsized frame.data expects
          noData frame.metadata skips frame.data_lt split.2 carries'
        rw [carried] at stands
        dsimp only at stands
        rw [byte] at stands
        simp only [keeps] at stands
        exact stands
  | @short head polls length partly' same taken later =>
      rw [same] at carries
      rw [length, head_length, taken] at partly'
      rcases carries.cases with ⟨nothing, rfl⟩ | ⟨frame, rest, wire, _⟩
      · have empty : head.filled = 0 := by
          rw [taken, nothing, List.length_nil]
        dsimp only
        rw [if_pos empty]
        refine @Delivery.gives _ _ _ _ _ [] [] _ rfl (Nat.zero_le _) (fun _ => Or.inr ⟨rfl, trivial⟩)
          ⟨idles.suffix later, ?_⟩ (later.length_le.trans used)
        exact stands_between ⟨length.trans head_length, shaped.size⟩ going empty unsized noSize
          noData noSkip Carries.closed
      · have long := congrArg List.length wire
        rw [List.length_append, frame.length_head] at long
        omega
  | @failed head left error polls length partly' same later =>
      have running : RanOut error := idles error (later.subset List.mem_cons_self)
      dsimp only [Turn.Meets]
      refine Delivery.idles running ⟨?_, ?_⟩ ?_
      · exact (idles.suffix later).suffix (List.suffix_cons _ polls)
      · rw [length, head_length] at partly'
        rw [same] at carries
        exact Stands.atHead ⟨length.trans head_length, shaped.size⟩ going partly' unsized noSize
          noData noSkip carries
      · exact Nat.lt_of_lt_of_le (Nat.lt_of_lt_of_le (Nat.lt_succ_self _) later.length_le) used

/-- Behind the END frame the reader skips the rest of its metadata and reports
the end. -/
theorem turn_ended (past : stream.sawEnd = true) (noHead : stream.head.filled = 0)
    (noData : stream.dataRemaining = 0) (there : stream.skipRemaining ≤ stream.inner.wire.length) :
    stream.TurnDelivers [] room before := by
  rw [TurnDelivers, turn, if_neg (Nat.not_lt.mpr (Nat.le_zero.mpr noData))]
  by_cases noSkip : stream.skipRemaining = 0
  · rw [if_pos (by simp [past, noHead, noSkip])]
    exact @Delivery.gives _ _ _ _ _ [] [] _ rfl (Nat.zero_le _) (fun _ => Or.inr ⟨rfl, trivial⟩)
      ⟨idles, Stands.ended past noHead noData there⟩ used
  · have some := Nat.pos_of_ne_zero noSkip
    rw [if_neg (by simp [noSkip]), if_pos some]
    rcases drainSkip_cases there with
      ⟨polls, drained, later⟩ | ⟨count, error, polls, failed, fewer, later⟩
    · rw [drained]
      dsimp only [Turn.Meets]
      refine ⟨⟨⟨idles.suffix later, Stands.ended past noHead noData (Nat.zero_le _)⟩,
        later.length_le.trans used⟩, ?_⟩
      rw [List.length_drop]
      omega
    · have running : RanOut error := idles error (later.subset List.mem_cons_self)
      rw [failed]
      dsimp only [Turn.Meets]
      refine Delivery.idles running
        ⟨(idles.suffix later).suffix (List.suffix_cons _ polls),
          Stands.ended past noHead noData ?_⟩ ?_
      · dsimp only
        rw [List.length_drop]
        omega
      · exact Nat.lt_of_lt_of_le (Nat.lt_of_lt_of_le (Nat.lt_succ_self _) later.length_le) used

end

/-- Wherever the reader stands, a turn stands elsewhere in the same text or
delivers. -/
theorem turn_delivers (ahead : stream.Ahead text) (used : stream.effort ≤ before)
    (positive : 0 < room) : stream.TurnDelivers text room before := by
  rcases ahead with ⟨idles, stands⟩
  cases stands with
  | atHead shaped going partly unsized noSize noData noSkip carries =>
      exact turn_atHead idles used shaped going partly unsized noSize noData noSkip carries
  | @inBody text skipped rest data shaped going noHead partly unsized sized noData length
      underway fits wire carries =>
      by_cases some : 0 < stream.skipRemaining
      · have fresh := unsized some
        rw [Scratch.assembled, fresh, List.take_zero, List.nil_append] at wire
        exact turn_skipping idles used shaped going noHead fresh sized noData some length fits wire
          carries
      · have noSkip := Nat.eq_zero_of_not_pos some
        have empty : skipped = [] := List.length_eq_zero_iff.mp (length.trans noSkip)
        subst empty
        rcases Option.isSome_iff_exists.mp (underway.resolve_left some) with ⟨payload, rfl⟩
        exact turn_sizing idles used shaped going noHead partly sized noData noSkip
          (fits payload rfl) wire carries
  | serving shaped going noHead unsized noSize noSkip underway length wire carries =>
      exact turn_serving idles used positive shaped going noHead unsized noSize noSkip underway
        length wire carries
  | ended past noHead noData there => exact turn_ended idles used past noHead noData there

/-- Every read delivers what is ahead of it. -/
theorem read_delivers : Delivers read terms := by
  intro stream text room ahead
  by_cases none : room = 0
  · refine ⟨.ok [], stream, if_pos none, ?_⟩
    exact @Delivery.gives _ _ _ _ _ [] text _ rfl (Nat.zero_le _) (fun _ => Or.inl none) ahead
      (Nat.le_refl _)
  · have returned := loop_returns
      (fun next : MuxStream => next.Ahead text ∧ next.effort ≤ stream.effort)
      (fun next => next.inner.wire.length)
      (Delivery terms text room stream.effort)
      (fun next holds => turn_delivers holds.1 holds.2 (Nat.pos_of_ne_zero none))
      (⟨ahead, Nat.le_refl _⟩ : stream.Ahead text ∧ stream.effort ≤ stream.effort)
      (Nat.lt_succ_self stream.inner.wire.length)
    rw [read, if_neg none]
    exact returned

theorem ahead_of_carries {wire text : List Byte} {polls : List Poll} (idles : Idles polls)
    (carries : Carries wire text) : MuxStream.Ahead { inner := ⟨wire, polls⟩ } text :=
  ⟨idles, @stands_between { inner := ⟨wire, polls⟩ } text ⟨rfl, rfl⟩ rfl rfl rfl rfl rfl rfl
    carries⟩

end MuxStream

end Corduit.Engine.Outbound.V2rayMux
