import Corduit.Transport.Poll
import Corduit.Word.BigEndian

/-!
# Scratch buffers

A buffer that is filled across several attempts keeps what each of them took:
the bytes it has assembled and the bytes still to come are together always the
same, so an attempt that runs out of time loses nothing.
-/

namespace Corduit.Transport

open Word

/-- A buffer and how much of it is filled. -/
structure Scratch where
  bytes : List Byte
  filled : Nat
deriving DecidableEq

namespace Scratch

/-- An empty buffer of some length. -/
def zeroed (length : Nat) : Scratch :=
  ⟨List.replicate length 0, 0⟩

/-- The filled part. -/
def assembled (scratch : Scratch) : List Byte :=
  scratch.bytes.take scratch.filled

/-- Not filled beyond its length. -/
def Fits (scratch : Scratch) : Prop :=
  scratch.filled ≤ scratch.bytes.length

@[simp]
theorem assembled_zero (bytes : List Byte) : assembled ⟨bytes, 0⟩ = [] :=
  rfl

variable {scratch : Scratch}

theorem length_assembled (fits : scratch.Fits) :
    scratch.assembled.length = scratch.filled :=
  List.length_take_of_le fits

theorem assembled_of_full (whole : scratch.filled = scratch.bytes.length) :
    scratch.assembled = scratch.bytes := by
  rw [assembled, whole, List.take_length]

/-- Bytes behind the filled part. -/
def extend (scratch : Scratch) (bytes : List Byte) : Scratch :=
  ⟨writeAt scratch.bytes scratch.filled bytes, scratch.filled + bytes.length⟩

theorem assembled_extend (fits : scratch.Fits) (bytes : List Byte) :
    (scratch.extend bytes).assembled = scratch.assembled ++ bytes := by
  have length : (scratch.bytes.take scratch.filled ++ bytes).length =
      scratch.filled + bytes.length := by
    rw [List.length_append, List.length_take_of_le fits]
  rw [extend, assembled, writeAt, ← length, List.take_left]
  rfl

theorem length_extend {bytes : List Byte}
    (room : scratch.filled + bytes.length ≤ scratch.bytes.length) :
    (scratch.extend bytes).bytes.length = scratch.bytes.length := by
  rw [extend, writeAt, List.length_append, List.length_append, List.length_drop,
    List.length_take]
  omega

/-- Read into the rest of the buffer until it is full. -/
def fill (scratch : Scratch) (incoming : Incoming) : Ending × Scratch × Incoming :=
  let want := scratch.bytes.length - scratch.filled
  let fill := incoming.fill (fun _ => false) want want
  (fill.ending, scratch.extend fill.bytes, fill.incoming)

/-- The buffer is full, the bytes end before it is, or a read fails before it
is; what is assembled and what is still to come stay the same together. -/
inductive Filling (before : Scratch) (incoming : Incoming) : Ending × Scratch × Incoming → Prop
  | full {scratch : Scratch} {wire : List Byte} {polls : List Poll}
      (length : scratch.bytes.length = before.bytes.length)
      (whole : scratch.filled = scratch.bytes.length)
      (same : before.assembled ++ incoming.wire = scratch.bytes ++ wire)
      (rest : polls <:+ incoming.polls) :
      Filling before incoming (.filled, scratch, ⟨wire, polls⟩)
  | short {scratch : Scratch} {polls : List Poll}
      (length : scratch.bytes.length = before.bytes.length)
      (partly : scratch.filled < scratch.bytes.length)
      (same : before.assembled ++ incoming.wire = scratch.assembled)
      (taken : scratch.filled = scratch.assembled.length)
      (rest : polls <:+ incoming.polls) :
      Filling before incoming (.eof, scratch, ⟨[], polls⟩)
  | failed {scratch : Scratch} {wire : List Byte} {error : IoError} {polls : List Poll}
      (length : scratch.bytes.length = before.bytes.length)
      (partly : scratch.filled < scratch.bytes.length)
      (same : before.assembled ++ incoming.wire = scratch.assembled ++ wire)
      (rest : .fails error :: polls <:+ incoming.polls) :
      Filling before incoming (.failed error, scratch, ⟨wire, polls⟩)

theorem filling_fill (fits : scratch.Fits) (incoming : Incoming) :
    Filling scratch incoming (scratch.fill incoming) := by
  by_cases done : scratch.filled = scratch.bytes.length
  · -- Nothing is missing, so nothing is read.
    have nothing : scratch.fill incoming = (.filled, scratch.extend [], incoming) := by
      rcases incoming with ⟨wire, _ | ⟨poll, polls⟩⟩ <;>
        simp [fill, Incoming.fill, Incoming.fillFrom, done]
    have same : scratch.extend [] = scratch := by
      simp [extend, writeAt]
    rw [nothing, same]
    refine Filling.full rfl done ?_ (List.suffix_refl _)
    rw [assembled_of_full done]
  have missing : scratch.filled < scratch.bytes.length := Nat.lt_of_le_of_ne fits done
  rcases Incoming.fill_cases (Nat.sub_pos_of_lt missing) incoming
      (scratch.bytes.length - scratch.filled) with
    ⟨polls, filled, enough, rest⟩ | ⟨polls, ended, less, rest⟩ |
    ⟨count, error, polls, failed, before, there, _, rest⟩
  · have length : (incoming.wire.take (scratch.bytes.length - scratch.filled)).length =
        scratch.bytes.length - scratch.filled := List.length_take_of_le enough
    have bytes_length := @length_extend scratch
      (incoming.wire.take (scratch.bytes.length - scratch.filled)) (by omega)
    have whole : (scratch.extend (incoming.wire.take
        (scratch.bytes.length - scratch.filled))).filled =
        (scratch.extend (incoming.wire.take
          (scratch.bytes.length - scratch.filled))).bytes.length := by
      rw [bytes_length, extend, length]
      exact Nat.add_sub_of_le fits
    rw [fill, filled]
    refine Filling.full bytes_length whole ?_ rest
    rw [← assembled_of_full whole, assembled_extend fits, List.append_assoc,
      List.take_append_drop]
  · have assembled_eq := assembled_extend fits incoming.wire
    rw [fill, ended]
    have bytes_length := @length_extend scratch incoming.wire (by omega)
    refine Filling.short bytes_length ?_ assembled_eq.symm ?_ rest
    · rw [bytes_length, extend]
      dsimp only
      omega
    · rw [assembled_eq, List.length_append, length_assembled fits]
      rfl
  · have length : (incoming.wire.take count).length = count := List.length_take_of_le there
    have bytes_length := @length_extend scratch (incoming.wire.take count) (by omega)
    rw [fill, failed]
    refine Filling.failed bytes_length ?_ ?_ rest
    · rw [bytes_length, extend, length]
      dsimp only
      omega
    · rw [assembled_extend fits, List.append_assoc, List.take_append_drop]

end Scratch

end Corduit.Transport
