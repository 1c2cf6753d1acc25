import Corduit.Engine.Outbound.V2rayMux.Reading
import Corduit.Word.Framing

/-!
# What the writer puts on the wire

The frames of the format, with the target that a NEW frame names, and their
reader.  What a session of writes emits is one NEW frame and then KEEP frames
whose payloads are the written bytes.
-/

namespace Corduit.Engine.Outbound.V2rayMux

open Collection Transport Word

/-- A frame: the metadata, with what follows the option in it, and the payload. -/
structure Frame where
  session : Nat
  status : Byte
  option : Byte
  target : List Byte
  data : Option (List Byte)
deriving DecidableEq

namespace Frame

/-- The fields fit their lengths, and a payload comes with the option. -/
structure Sized (frame : Frame) : Prop where
  session : frame.session < 2 ^ 16
  target : frame.target.length + 4 < 2 ^ 16
  data : ∀ payload ∈ frame.data, payload.length < 2 ^ 16
  option : frame.option &&& optionData ≠ 0 ↔ frame.data.isSome

/-- The frame on the wire. -/
def encode (frame : Frame) : List Byte :=
  toBeBytes 2 (BitVec.ofNat 16 (frame.target.length + 4)) ++
    (toBeBytes 2 (BitVec.ofNat 16 frame.session) ++
      ([frame.status, frame.option] ++ (frame.target ++ ServerFrame.encodeData frame.data)))

/-- The payload with its size at the head of `written`, and its length. -/
def decodeData (written : List Byte) : Except Unit (List Byte × Nat) :=
  let size := ofBeBytes (slice written 0 2)
  if written.length < 2 + size then .error ()
  else .ok (slice written 2 size, 2 + size)

/-- The frame at the head of `written`, and its length. -/
def decode (written : List Byte) : Except Unit (Frame × Nat) :=
  let length := ofBeBytes (slice written 0 2)
  if length < 4 ∨ written.length < 2 + length then .error ()
  else
    let session := ofBeBytes (slice written 2 2)
    let status := written.getD 4 0
    let option := written.getD 5 0
    let target := slice written 6 (length - 4)
    if option &&& optionData = 0 then
      .ok (⟨session, status, option, target, none⟩, 2 + length)
    else
      match decodeData (written.drop (2 + length)) with
      | .error () => .error ()
      | .ok (payload, used) =>
          .ok (⟨session, status, option, target, some payload⟩, 2 + length + used)

theorem decodeData_encodeData {payload : List Byte} (fits : payload.length < 2 ^ 16)
    (rest : List Byte) :
    decodeData (ServerFrame.encodeData (some payload) ++ rest) =
      .ok (payload, 2 + payload.length) := by
  have size : ofBeBytes (slice (ServerFrame.encodeData (some payload) ++ rest) 0 2) =
      payload.length := by
    rw [ServerFrame.encodeData, List.append_assoc, slice_here (length_toBeBytes 2 _),
      ofBeBytes_toBeBytes, BitVec.toNat_ofNat]
    omega
  have length : (ServerFrame.encodeData (some payload) ++ rest).length =
      2 + payload.length + rest.length := by
    simp [ServerFrame.encodeData, Nat.add_assoc]
  rw [decodeData, size, length, if_neg (by omega)]
  rw [ServerFrame.encodeData, List.append_assoc, slice_skip (by simp)]
  simp [slice_here]

theorem length_encode (frame : Frame) : frame.encode.length =
    6 + frame.target.length + (ServerFrame.encodeData frame.data).length := by
  simp only [encode, List.length_append, length_toBeBytes, List.length_cons, List.length_nil]
  omega

/-- A frame is read back, whatever follows it. -/
theorem decode_encode {frame : Frame} (sized : frame.Sized) (rest : List Byte) :
    decode (frame.encode ++ rest) = .ok (frame, frame.encode.length) := by
  have short := sized.target
  have wire : frame.encode ++ rest =
      toBeBytes 2 (BitVec.ofNat 16 (frame.target.length + 4)) ++
        (toBeBytes 2 (BitVec.ofNat 16 frame.session) ++ ([frame.status, frame.option] ++
          (frame.target ++ (ServerFrame.encodeData frame.data ++ rest)))) := by
    simp only [encode, List.append_assoc]
  have length : ofBeBytes (slice (frame.encode ++ rest) 0 2) = frame.target.length + 4 := by
    rw [wire, slice_here (length_toBeBytes 2 _), ofBeBytes_toBeBytes, BitVec.toNat_ofNat]
    omega
  have session : ofBeBytes (slice (frame.encode ++ rest) 2 2) = frame.session := by
    have small := sized.session
    rw [wire, slice_skip (length_toBeBytes 2 _).le, length_toBeBytes, Nat.sub_self,
      slice_here (length_toBeBytes 2 _), ofBeBytes_toBeBytes, BitVec.toNat_ofNat]
    omega
  have status : (frame.encode ++ rest).getD 4 0 = frame.status := by
    rw [wire]
    rfl
  have option : (frame.encode ++ rest).getD 5 0 = frame.option := by
    rw [wire]
    rfl
  have six : (toBeBytes 2 (BitVec.ofNat 16 (frame.target.length + 4)) ++
      (toBeBytes 2 (BitVec.ofNat 16 frame.session) ++ [frame.status, frame.option])).length = 6 := by
    simp
  have split : frame.encode ++ rest = (toBeBytes 2 (BitVec.ofNat 16 (frame.target.length + 4)) ++
      (toBeBytes 2 (BitVec.ofNat 16 frame.session) ++ [frame.status, frame.option])) ++
        (frame.target ++ (ServerFrame.encodeData frame.data ++ rest)) := by
    rw [wire]
    simp only [List.append_assoc]
  have behind : (frame.encode ++ rest).drop (2 + (frame.target.length + 4)) =
      ServerFrame.encodeData frame.data ++ rest := by
    rw [split, ← List.append_assoc]
    refine List.drop_left' ?_
    rw [List.length_append, six]
    omega
  have target : slice (frame.encode ++ rest) 6 frame.target.length = frame.target := by
    rw [split, slice_skip six.le, six, Nat.sub_self, slice_here rfl]
  have total := frame.length_encode
  rw [decode, length, session, status, option, Nat.add_sub_cancel, target, behind,
    if_neg (by rw [List.length_append]; omega)]
  cases payload : frame.data with
  | none =>
      have plain : frame.option &&& optionData = 0 := by
        by_contra set
        exact absurd (sized.option.mp set) (by simp [payload])
      rw [if_pos plain]
      rw [payload] at total
      change frame.encode.length = 6 + frame.target.length + 0 at total
      rw [total, ← payload]
      congr 2
      omega
  | some bytes =>
      have set : ¬ frame.option &&& optionData = 0 := sized.option.mpr (by simp [payload])
      have size : (ServerFrame.encodeData (some bytes)).length = 2 + bytes.length := by
        rw [ServerFrame.encodeData, List.length_append, length_toBeBytes]
      rw [payload, size] at total
      rw [if_neg set, decodeData_encodeData (sized.data bytes payload)]
      dsimp only
      rw [total, ← payload]
      congr 2
      omega

theorem framed : Framed encode decode Sized (fun _ => True) (fun _ => false) where
  nonempty frame _ empty := by
    have length := frame.length_encode
    rw [empty, List.length_nil] at length
    omega
  sound _ _ _ _ := trivial
  alone frame sized _ := by
    have read := decode_encode sized []
    rwa [List.append_nil] at read
  delimited _ rest sized _ _ := decode_encode sized rest
  absorbs _ _ _ _ _ impossible := nomatch impossible

/-- The opening frame: session 0, over TCP, to port 0 of `127.0.0.1`. -/
def opening : Frame :=
  ⟨0, sessionStatusNew, 0, newFrame.drop 6, none⟩

/-- A KEEP frame with a payload. -/
def keep (payload : List Byte) : Frame :=
  ⟨0, sessionStatusKeep, optionData, [], some payload⟩

theorem encode_opening : opening.encode = newFrame :=
  rfl

theorem encode_keep (payload : List Byte) : (keep payload).encode = MuxStream.keepFrame payload := by
  simp only [encode, keep, MuxStream.keepFrame, ServerFrame.encodeData, List.nil_append,
    List.append_assoc]
  rfl

theorem sized_opening : opening.Sized where
  session := by decide
  target := by decide
  data _ member := nomatch member
  option := by decide

theorem sized_keep {payload : List Byte} (fits : payload.length < 2 ^ 16) :
    (keep payload).Sized where
  session := Nat.two_pow_pos 16
  target := (by decide : 0 + 4 < 2 ^ 16)
  data _ member := Option.mem_some_iff.mp member ▸ fits
  option := iff_of_true (by decide : optionData &&& optionData ≠ 0) rfl

end Frame

namespace MuxStream

/-- What writes of these buffers put on the wire. -/
def writes : MuxStream → List (List Byte) → List Byte
  | _, [] => []
  | stream, buf :: bufs => (stream.write buf).1 ++ writes (stream.write buf).2 bufs

/-- The payloads of the frames that a write of `buf` makes. -/
def payloads (bufs : List (List Byte)) : List (List Byte) :=
  bufs.flatMap (chunks maxFramePayload)

theorem flatten_payloads (bufs : List (List Byte)) : (payloads bufs).flatten = bufs.flatten := by
  induction bufs with
  | nil => rfl
  | cons buf bufs ih =>
      rw [payloads, List.flatMap_cons, List.flatten_append, flatten_chunks (by decide),
        List.flatten_cons, ← ih]
      rfl

theorem writes_of_opened {stream : MuxStream} (opened : stream.newPending = false)
    (bufs : List (List Byte)) :
    stream.writes bufs = (payloads bufs).flatMap keepFrame := by
  induction bufs generalizing stream with
  | nil => rfl
  | cons buf bufs ih =>
      rw [writes, payloads, List.flatMap_cons, List.flatMap_append, write]
      by_cases empty : buf = []
      · rw [if_pos empty, empty, chunks_nil]
        exact ih opened
      · rw [if_neg empty, opened]
        exact congrArg _ (ih rfl)

section

variable {stream : MuxStream} (pending : stream.newPending = true) {bufs : List (List Byte)}
  (some : bufs.flatten ≠ [])

include pending some

theorem writes_of_pending :
    stream.writes bufs = newFrame ++ (payloads bufs).flatMap keepFrame := by
  induction bufs generalizing stream with
  | nil => exact absurd rfl some
  | cons buf bufs ih =>
      rw [writes, payloads, List.flatMap_cons, List.flatMap_append, write]
      by_cases empty : buf = []
      · rw [if_pos empty, empty, chunks_nil]
        rw [empty, List.flatten_cons, List.nil_append] at some
        exact ih pending some
      · rw [if_neg empty, pending, if_pos rfl]
        dsimp only
        rw [writes_of_opened rfl, List.append_assoc]
        rfl

/-- What a session of writes emits reads as one NEW frame and then KEEP frames. -/
theorem decodeAll_writes :
    decodeAll Frame.decode (stream.writes bufs).length (stream.writes bufs) =
      .ok (Frame.opening :: (payloads bufs).map Frame.keep) := by
  have wire : stream.writes bufs =
      (Frame.opening :: (payloads bufs).map Frame.keep).flatMap Frame.encode := by
    rw [writes_of_pending pending some, List.flatMap_cons, Frame.encode_opening, List.flatMap_map]
    simp only [Frame.encode_keep]
  rw [wire, Frame.framed.decodeAll_eq_iff ?_ (Nat.le_refl _)]
  · exact ⟨fun _ _ => trivial, fun _ _ => rfl⟩
  · intro frame member
    rcases List.mem_cons.mp member with rfl | later
    · exact Frame.sized_opening
    · rcases List.mem_map.mp later with ⟨payload, cut, rfl⟩
      rcases List.mem_flatMap.mp cut with ⟨buf, _, piece⟩
      have fits := (mem_chunks (by decide) piece).2
      refine Frame.sized_keep (Nat.lt_of_le_of_lt fits ?_)
      decide

end

/-- The reader returns the text of the server's frames, whatever the transport
and the buffers do, and reports the end behind it; the writer emits one NEW
frame and KEEP frames with the written bytes. -/
theorem read_text_and_write_frames (frames : List ServerFrame) (trailing : List Byte)
    (closed : trailing = [] ∨ ∃ frame ∈ frames, frame.status = .ends) (polls : List Poll)
    (idles : Idles polls) (rooms : List Nat) (inner : Incoming) (bufs : List (List Byte)) :
    (∃ answers stream,
      session read { inner := ⟨frames.flatMap ServerFrame.encode ++ trailing, polls⟩ } rooms =
        some (answers, stream) ∧
      Spells RanOut rooms answers (sessionText frames) ∧
      ((sessionText frames).length + polls.length < (rooms.filter (0 < ·)).length →
        Ends rooms answers ∧ received answers = sessionText frames)) ∧
    ((writes { inner := inner } bufs = [] ∧ bufs.flatten = []) ∨
      ∃ payloads : List (List Byte),
        decodeAll Frame.decode (writes { inner := inner } bufs).length
          (writes { inner := inner } bufs) = .ok (Frame.opening :: payloads.map Frame.keep) ∧
        payloads.flatten = bufs.flatten) := by
  constructor
  · have ahead := ahead_of_carries idles (carries_frames closed)
    rcases read_delivers.spells ahead rooms with ⟨answers, stream, _, done, spells, _, _⟩
    exact ⟨answers, stream, done, spells, fun enough => read_delivers.ends ahead done enough⟩
  · by_cases some : bufs.flatten = []
    · refine Or.inl ⟨?_, some⟩
      clear closed idles
      induction bufs with
      | nil => rfl
      | cons buf bufs ih =>
          rcases List.append_eq_nil_iff.mp some with ⟨empty, later⟩
          rw [writes, write, if_pos empty, List.nil_append]
          exact ih later
    · exact Or.inr ⟨payloads bufs, decodeAll_writes rfl some, flatten_payloads bufs⟩

/-- A keep-alive with a payload to skip, a payload behind two bytes of metadata
and the end. -/
def pausedFrames : List ServerFrame :=
  [⟨.keepAlive, 1, [], some [7], by decide, by decide, by decide⟩,
    ⟨.keep, 1, [9, 9], some [1, 2], by decide, by decide, by decide⟩,
    ⟨.ends, 0, [], none, by decide, by decide, by decide⟩]

/-- A transport that pauses twice. -/
def pauses : List Poll :=
  [.gives 0, .fails ⟨.wouldBlock, ""⟩, .gives 0, .gives 7, .fails ⟨.timedOut, ""⟩]

theorem read_text_and_write_frames_pauses :
    ∃ answers stream,
      session read { inner := ⟨pausedFrames.flatMap ServerFrame.encode ++ [0xff], pauses⟩ }
        (List.replicate 9 1) = some (answers, stream) ∧
      Ends (List.replicate 9 1) answers ∧ received answers = [1, 2] := by
  have idles : Idles pauses := by
    intro error member
    simp [pauses] at member
    rcases member with rfl | rfl <;> rfl
  have framing := read_text_and_write_frames pausedFrames [0xff]
    (Or.inr ⟨_, List.mem_of_getLast? rfl, rfl⟩) pauses idles (List.replicate 9 1) ⟨[], []⟩ [[1]]
  rcases framing.1 with ⟨answers, stream, done, _, ends⟩
  exact ⟨answers, stream, done, ends (by decide)⟩

end MuxStream

end Corduit.Engine.Outbound.V2rayMux
