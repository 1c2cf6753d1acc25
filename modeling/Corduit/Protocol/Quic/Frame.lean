import Corduit.Protocol.Quic.Tls.Parameters
import Corduit.Word.Framing

/-!
# QUIC frames

The frames that the transport takes apart, with the fields it reads or writes.
Their encoding belongs to the packet library.
-/

namespace Corduit.Protocol.Quic

open Word

/-- The frames of a packet. -/
inductive Frame where
  | ack (largestAcked ackDelay : Nat) (ranges : List (Nat × Nat)) (ecn : Option (Nat × Nat × Nat))
  | crypto (offset : Nat) (data : List Byte)
  | stream (streamId : Nat) (offset : Option Nat) (data : List Byte) (length : Option Nat)
      (fin : Bool)
  | maxData (max : Nat)
  | maxStreamData (streamId max : Nat)
  | maxStreams (unidirectional : Bool) (max : Nat)
  | resetStream (streamId appErrorCode : Nat)
  | connectionClose (errorCode : Nat) (reason : List Byte)
  | handshakeDone
  | datagram (data : List Byte) (length : Option Nat)
  | stopSending
  | newConnectionId
  | retireConnectionId
  | newToken
  | pathChallenge
  | pathResponse
  | padding
  | dataBlocked
  | streamDataBlocked
  | streamsBlocked
  | ping
  deriving DecidableEq, Repr

/-!
# The rules of frames

A packet is a list of frames, one behind the other.  A STREAM or DATAGRAM frame
without a length extends to the end of the packet; every other frame that the
transport writes ends by itself.  Numbers are variable-length integers, and no
stream goes beyond the largest of them.
-/

open Transition

/-- Variable-length integers are below it. -/
def VARINT_LIMIT : Nat := 2 ^ 62

namespace Frame

/-- The frames that the transport writes into the packets of its loop. -/
def Written : Frame → Prop
  | .crypto _ _ => True
  | .stream _ offset _ length _ => offset.isSome = true ∧ length = none
  | .maxData _ => True
  | .maxStreamData _ _ => True
  | .datagram _ length => length = none
  | .ping => True
  | _ => False

/-- The numbers of a frame are variable-length integers. -/
def Integers : Frame → Prop
  | .crypto offset data => offset + data.length < VARINT_LIMIT
  | .stream streamId offset data _ _ =>
      streamId < VARINT_LIMIT ∧ offset.getD 0 + data.length < VARINT_LIMIT
  | .maxData max => max < VARINT_LIMIT
  | .maxStreamData streamId max => streamId < VARINT_LIMIT ∧ max < VARINT_LIMIT
  | _ => True

/-- The frame extends to the end of the packet. -/
def lengthless : Frame → Bool
  | .stream _ _ _ length _ => length.isNone
  | .datagram _ length => length.isNone
  | _ => false

end Frame

/-- A writer and a reader of frames that follow the rules. -/
def FrameRules (encode : Frame → List Byte)
    (decode : List Byte → Except String (Frame × Nat)) : Prop :=
  Framed encode decode Frame.Written Frame.Integers Frame.lengthless

theorem lt_of_readVarint {bytes rest : List Byte} {value : Nat}
    (read : readVarint bytes = .ok (value, rest)) : value < VARINT_LIMIT := by
  cases bytes with
  | nil => cases read
  | cons first behind =>
      rw [readVarint] at read
      split at read
      · cases read
      · cases read
        have code : (first >>> 6).toNat ≤ 3 := by
          rw [BitVec.toNat_ushiftRight, Nat.shiftRight_eq_div_pow]
          have small := first.isLt
          omega
        have size : 2 ^ (first >>> 6).toNat ≤ 8 :=
          (Nat.pow_le_pow_right (by decide) code).trans (by decide)
        have low : (first &&& 0x3f).toNat < 64 := by
          rw [BitVec.toNat_and]
          exact Nat.lt_of_le_of_lt Nat.and_le_right (by decide)
        have count : (behind.take (2 ^ (first >>> 6).toNat - 1)).length ≤ 7 := by
          rw [List.length_take]
          omega
        have tail := ofBeBytes_lt (behind.take (2 ^ (first >>> 6).toNat - 1))
        rw [ofBeBytes_cons]
        calc (first &&& 0x3f).toNat * 256 ^ _ + ofBeBytes _
            < (first &&& 0x3f).toNat * 256 ^ _ + 256 ^ _ := Nat.add_lt_add_left tail _
          _ = ((first &&& 0x3f).toNat + 1) * 256 ^ _ := (Nat.succ_mul _ _).symm
          _ ≤ 64 * 256 ^ 7 := Nat.mul_le_mul low (Nat.pow_le_pow_right (by decide) count)
          _ = VARINT_LIMIT := by decide

namespace Plain

/-- The frames as they stand on the wire. -/
def writeFrame : Frame → List Byte
  | .ping => [0x01]
  | .crypto offset data => 0x06 :: (varint offset ++ (varint data.length ++ data))
  | .stream streamId offset data _ fin =>
      (if fin then 0x0d else 0x0c) :: (varint streamId ++ (varint (offset.getD 0) ++ data))
  | .maxData max => 0x10 :: varint max
  | .maxStreamData streamId max => 0x11 :: (varint streamId ++ varint max)
  | .datagram data _ => 0x30 :: data
  | _ => [0x00]

/-- A CRYPTO frame. -/
def readCrypto (bytes : List Byte) : Except QuicError (Frame × List Byte) := do
  let (offset, bytes) ← readVarint bytes
  let (length, bytes) ← readVarint bytes
  if bytes.length < length || offset + length ≥ VARINT_LIMIT then
    .error (.protocol "malformed CRYPTO frame")
  else
    return (.crypto offset (bytes.take length), bytes.drop length)

/-- A STREAM frame. -/
def readStream (fin : Bool) (bytes : List Byte) : Except QuicError (Frame × List Byte) := do
  let (streamId, bytes) ← readVarint bytes
  let (offset, bytes) ← readVarint bytes
  if offset + bytes.length ≥ VARINT_LIMIT then
    .error (.protocol "malformed STREAM frame")
  else
    return (.stream streamId (some offset) bytes none fin, [])

/-- A MAX_DATA frame. -/
def readMaxData (bytes : List Byte) : Except QuicError (Frame × List Byte) := do
  let (max, bytes) ← readVarint bytes
  return (.maxData max, bytes)

/-- A MAX_STREAM_DATA frame. -/
def readMaxStreamData (bytes : List Byte) : Except QuicError (Frame × List Byte) := do
  let (streamId, bytes) ← readVarint bytes
  let (max, bytes) ← readVarint bytes
  return (.maxStreamData streamId max, bytes)

/-- The frame behind its type, and the bytes behind the frame. -/
def readBody (kind : Byte) (bytes : List Byte) : Except QuicError (Frame × List Byte) :=
  if kind = 0x01 then
    .ok (.ping, bytes)
  else if kind = 0x06 then
    readCrypto bytes
  else if kind = 0x0c then
    readStream false bytes
  else if kind = 0x0d then
    readStream true bytes
  else if kind = 0x10 then
    readMaxData bytes
  else if kind = 0x11 then
    readMaxStreamData bytes
  else if kind = 0x30 then
    .ok (.datagram bytes none, [])
  else
    .error (.protocol "unknown frame type")

/-- A frame and its length. -/
def readFrame : List Byte → Except String (Frame × Nat)
  | [] => .error "empty frame"
  | kind :: bytes =>
      match readBody kind bytes with
      | .error _ => .error "malformed frame"
      | .ok (frame, rest) => .ok (frame, bytes.length + 1 - rest.length)

variable {offset streamId max : Nat} {data bytes rest : List Byte} {fin : Bool} {frame : Frame}
  {kind : Byte}

theorem readCrypto_write (integers : offset + data.length < VARINT_LIMIT) (rest : List Byte) :
    readCrypto (varint offset ++ (varint data.length ++ data) ++ rest) =
      .ok (.crypto offset data, rest) := by
  have small : offset < 2 ^ 62 := Nat.lt_of_le_of_lt (Nat.le_add_right _ _) integers
  have short : data.length < 2 ^ 62 := Nat.lt_of_le_of_lt (Nat.le_add_left _ _) integers
  rw [List.append_assoc, List.append_assoc, readCrypto, readVarint_varint small]
  change (readVarint (varint data.length ++ (data ++ rest)) >>= _) = _
  rw [readVarint_varint short]
  simp [bind, Except.bind, pure, Except.pure, Nat.not_le.mpr integers]

theorem readStream_write (small : streamId < VARINT_LIMIT)
    (integers : offset + data.length < VARINT_LIMIT) (fin : Bool) :
    readStream fin (varint streamId ++ (varint offset ++ data)) =
      .ok (.stream streamId (some offset) data none fin, []) := by
  have start : offset < 2 ^ 62 := Nat.lt_of_le_of_lt (Nat.le_add_right _ _) integers
  rw [readStream, readVarint_varint small]
  change (readVarint (varint offset ++ data) >>= _) = _
  rw [readVarint_varint start]
  simp [bind, Except.bind, pure, Except.pure, Nat.not_le.mpr integers]

theorem readMaxData_write (small : max < VARINT_LIMIT) (rest : List Byte) :
    readMaxData (varint max ++ rest) = .ok (.maxData max, rest) := by
  rw [readMaxData, readVarint_varint small]
  rfl

theorem readMaxStreamData_write (stream : streamId < VARINT_LIMIT) (small : max < VARINT_LIMIT)
    (rest : List Byte) :
    readMaxStreamData (varint streamId ++ varint max ++ rest) =
      .ok (.maxStreamData streamId max, rest) := by
  rw [List.append_assoc, readMaxStreamData, readVarint_varint stream]
  change (readVarint (varint max ++ rest) >>= _) = _
  rw [readVarint_varint small]
  rfl

theorem readStream_spec (read : readStream fin bytes = .ok (frame, rest)) :
    rest = [] ∧ frame.Integers := by
  rcases bind_eq_ok_iff.mp read with ⟨⟨streamId, middle⟩, first, read⟩
  rcases bind_eq_ok_iff.mp read with ⟨⟨offset, behind⟩, second, read⟩
  dsimp only at read
  split at read
  · cases read
  · rename_i bound
    cases read
    exact ⟨rfl, lt_of_readVarint first, Nat.not_le.mp bound⟩

theorem integers_readCrypto (read : readCrypto bytes = .ok (frame, rest)) : frame.Integers := by
  rcases bind_eq_ok_iff.mp read with ⟨⟨offset, middle⟩, first, read⟩
  rcases bind_eq_ok_iff.mp read with ⟨⟨length, behind⟩, second, read⟩
  dsimp only at read
  split at read
  · cases read
  · rename_i bound
    cases read
    have short : (behind.take length).length ≤ length := List.length_take_le _ _
    simp only [Bool.or_eq_true, decide_eq_true_eq, not_or, Nat.not_le] at bound
    exact Nat.lt_of_le_of_lt (Nat.add_le_add_left short _) bound.2

theorem integers_readBody (read : readBody kind bytes = .ok (frame, rest)) : frame.Integers := by
  unfold readBody at read
  split at read
  · cases read
    trivial
  split at read
  · exact integers_readCrypto read
  split at read
  · exact (readStream_spec read).2
  split at read
  · exact (readStream_spec read).2
  split at read
  · rcases bind_eq_ok_iff.mp read with ⟨⟨max, behind⟩, first, read⟩
    cases read
    exact lt_of_readVarint first
  split at read
  · rcases bind_eq_ok_iff.mp read with ⟨⟨streamId, middle⟩, first, read⟩
    rcases bind_eq_ok_iff.mp read with ⟨⟨max, behind⟩, second, read⟩
    cases read
    exact ⟨lt_of_readVarint first, lt_of_readVarint second⟩
  split at read
  · cases read
    trivial
  · cases read

theorem readFrame_eq {used : Nat} :
    readFrame (kind :: bytes) = .ok (frame, used) ↔
      ∃ rest, readBody kind bytes = .ok (frame, rest) ∧ used = bytes.length + 1 - rest.length := by
  rw [readFrame]
  cases read : readBody kind bytes with
  | error error => exact iff_of_false (fun impossible => by cases impossible) (by simp)
  | ok found =>
      rcases found with ⟨frame', rest⟩
      constructor
      · intro same
        cases same
        exact ⟨rest, rfl, rfl⟩
      · rintro ⟨_, ⟨⟩, rfl⟩
        rfl

theorem frameRules : FrameRules writeFrame readFrame where
  nonempty := fun item _ => by cases item <;> simp [writeFrame]
  sound := fun written item used read => by
    cases written with
    | nil => cases read
    | cons kind bytes =>
        rcases readFrame_eq.mp read with ⟨rest, read, _⟩
        exact integers_readBody read
  alone := fun item written integers => by
    cases item with
    | crypto offset data =>
        refine readFrame_eq.mpr ⟨[], ?_, rfl⟩
        have read := readCrypto_write integers []
        rwa [List.append_nil] at read
    | stream streamId offset data length fin =>
        rcases written with ⟨known, rfl⟩
        rcases Option.isSome_iff_exists.mp known with ⟨offset, rfl⟩
        cases fin with
        | false => exact readFrame_eq.mpr ⟨[], readStream_write integers.1 integers.2 false, rfl⟩
        | true => exact readFrame_eq.mpr ⟨[], readStream_write integers.1 integers.2 true, rfl⟩
    | maxData max =>
        refine readFrame_eq.mpr ⟨[], ?_, rfl⟩
        have read := readMaxData_write integers []
        rwa [List.append_nil] at read
    | maxStreamData streamId max =>
        refine readFrame_eq.mpr ⟨[], ?_, rfl⟩
        have read := readMaxStreamData_write integers.1 integers.2 []
        rwa [List.append_nil] at read
    | datagram data length =>
        cases written
        exact readFrame_eq.mpr ⟨[], rfl, rfl⟩
    | ping => rfl
    | _ => cases written
  delimited := fun item rest written integers ends => by
    cases item with
    | crypto offset data =>
        refine readFrame_eq.mpr ⟨rest, readCrypto_write integers rest, ?_⟩
        simp [writeFrame, List.length_append]
        omega
    | maxData max =>
        refine readFrame_eq.mpr ⟨rest, readMaxData_write integers rest, ?_⟩
        simp [writeFrame, List.length_append]
        omega
    | maxStreamData streamId max =>
        refine readFrame_eq.mpr ⟨rest, readMaxStreamData_write integers.1 integers.2 rest, ?_⟩
        simp [writeFrame, List.length_append]
        omega
    | ping =>
        refine readFrame_eq.mpr ⟨rest, rfl, ?_⟩
        simp [writeFrame]
    | stream streamId offset data length fin =>
        rcases written with ⟨_, rfl⟩
        cases ends
    | datagram data length =>
        cases written
        cases ends
    | _ => cases written
  absorbs := fun item rest other used written toEnd read => by
    cases item with
    | stream streamId offset data length fin =>
        cases fin with
        | false =>
            rcases readFrame_eq.mp read with ⟨behind, body, rfl⟩
            rw [(readStream_spec body).1]
            exact Nat.le_refl _
        | true =>
            rcases readFrame_eq.mp read with ⟨behind, body, rfl⟩
            rw [(readStream_spec body).1]
            exact Nat.le_refl _
    | datagram data length =>
        cases read
        exact Nat.le_refl _
    | crypto => cases toEnd
    | maxData => cases toEnd
    | maxStreamData => cases toEnd
    | ping => cases toEnd
    | _ => cases written

end Plain

end Corduit.Protocol.Quic
