import Corduit.Collection.Subsequence
import Corduit.Engine.RuleProvider
import Corduit.Text.Utf8
import Corduit.Transport.Session

/-!
# Reading a chunked body

The loops of `read_chunked`, one iteration a turn.  Between the turns stands
which loop is running; the bytes that have been read and not been used yet are
in a buffer, and every loop reads the transport in its own way.
-/

namespace Corduit.Engine.Inbound.Forward

open Collection Text Transport Word

/-- `MAX_RESPONSE_BODY_BYTES`. -/
def maxResponseBodyBytes : Nat :=
  64 * 1024 * 1024

/-- A carriage return. -/
def cr : Byte :=
  13

/-- A line feed. -/
def lf : Byte :=
  10

/-- The end of a line. -/
def crlf : List Byte :=
  [cr, lf]

/-- A semicolon. -/
def semicolon : Byte :=
  59

/-- Which loop is running. -/
inductive Phase where
  | sizeLine
  | trailers
  | data (target : Nat)
  | dataEnd
deriving DecidableEq

/-- The variables of `read_chunked`. -/
structure Dechunker where
  incoming : Incoming
  eof : Bool
  buf : List Byte
  out : List Byte
  phase : Phase
deriving DecidableEq

namespace Dechunker

/-- An iteration goes around again or returns. -/
abbrev Outcome :=
  Turn Dechunker (Except Error (List Byte))

variable (state : Dechunker)

/-- Return an error. -/
def fail (message : String) : Outcome :=
  .returns (.error (.network message)) state

/-- Read up to two kilobytes into the buffer. -/
def fetch (atEnd failed : String) : Outcome :=
  match state.incoming.read 2048 with
  | (.ok [], incoming) => fail { state with incoming := incoming, eof := true } atEnd
  | (.ok bytes, incoming) =>
      .again { state with incoming := incoming, buf := state.buf ++ bytes }
  | (.error error, incoming) =>
      if error.kind.isReadIntervalElapsed then .again { state with incoming := incoming }
      else fail { state with incoming := incoming } (failed ++ error.text)

/-- The size that a line states: hexadecimal digits in front of the extension. -/
def parseSize (line : List Byte) : Option Nat :=
  let stripped := if crlf <:+ line then line.take (line.length - 2) else line
  (fromUtf8 (stripped.takeWhile (· ≠ semicolon))).bind fun text =>
    fromStrRadix 16 (usizeMax + 1) (trim text)

/-- A size line has been read. -/
def begin (line : List Byte) : Outcome :=
  match parseSize line with
  | none => fail state "Invalid chunk size"
  | some size =>
      if size = 0 then .again { state with phase := .trailers }
      else if maxResponseBodyBytes < saturatingAdd state.out.length size then
        fail state "Response body exceeds limit"
      else .again { state with phase := .data (state.out.length + size) }

/-- The loop that reads a size line; `late` says whether the deadline is over. -/
def readSizeLine (late : Incoming → Bool) : Outcome :=
  match findSubsequence crlf state.buf with
  | some pos => begin { state with buf := state.buf.drop (pos + 2) } (state.buf.take (pos + 2))
  | none =>
      if 1024 < state.buf.length then fail state "Chunk size line too long"
      else if late state.incoming then fail state "Timed out reading chunk size"
      else fetch state "EOF in chunk size line" "Failed to read chunk size: "

/-- The loop behind the last chunk. -/
def readTrailers : Outcome :=
  if crlf <+: state.buf then .returns (.ok state.out) { state with buf := state.buf.drop 2 }
  else
    match findSubsequence crlf state.buf with
    | some pos => .returns (.ok state.out) { state with buf := state.buf.drop (pos + 2) }
    | none => fetch state "EOF in trailers" "Failed to read trailers: "

/-- The loop that reads the data of a chunk. -/
def readData (target : Nat) : Outcome :=
  if state.out.length < target then
    if state.buf ≠ [] then
      let take := min (target - state.out.length) state.buf.length
      .again { state with buf := state.buf.drop take, out := state.out ++ state.buf.take take }
    else fetch state "EOF in chunk data" "Failed to read chunk data: "
  else .again { state with phase := .dataEnd }

/-- The line end behind the data: one read, and whatever it gives is dropped. -/
def readDataEnd : Outcome :=
  let next := { state with phase := .sizeLine }
  if state.buf = [] then
    match state.incoming.read 2 with
    | (.ok [], incoming) => fail { state with incoming := incoming, eof := true } "EOF in chunk CRLF"
    | (.ok _, incoming) => .again { next with incoming := incoming }
    | (.error error, incoming) =>
        -- An idle poll goes around the outer loop, which looks for a size line.
        if error.kind.isReadIntervalElapsed then .again { next with incoming := incoming }
        else fail { state with incoming := incoming } ("Failed to read chunk CRLF: " ++ error.text)
  else .again { next with buf := state.buf.drop (min 2 state.buf.length) }

/-- One iteration. -/
def turn (late : Incoming → Bool) (state : Dechunker) : Outcome :=
  match state.phase with
  | .sizeLine => state.readSizeLine late
  | .trailers => state.readTrailers
  | .data target => state.readData target
  | .dataEnd => state.readDataEnd

/-- `read_chunked` at its start, with what the head left behind. -/
def initial (pending : List Byte) (incoming : Incoming) : Dechunker :=
  ⟨incoming, false, pending, [], .sizeLine⟩

/-- Every iteration uses up bytes or polls. -/
def effort (state : Dechunker) : Nat :=
  2 * (state.buf.length + state.incoming.wire.length) + state.incoming.wire.length +
    state.incoming.polls.length +
    match state.phase with
    | .data _ => 1
    | _ => 0

end Dechunker

/-- `read_chunked`; on success the buffer is what becomes of `pending`. -/
def readChunked (late : Incoming → Bool) (pending : List Byte) (incoming : Incoming) :
    Option (Except Error (List Byte) × Dechunker) :=
  let start := Dechunker.initial pending incoming
  loop (Dechunker.turn late) (start.effort + 1) start

/-- The states in which an iteration of `read_chunked` starts. -/
def readChunkedVisits (late : Incoming → Bool) (pending : List Byte) (incoming : Incoming) :
    List Dechunker :=
  let start := Dechunker.initial pending incoming
  visits (Dechunker.turn late) (start.effort + 1) start

/-!
# The chunked transfer coding

What a conforming origin may send: chunks that are not empty, each behind a
line with its size in hexadecimal digits (any case, any number of leading
zeros) and perhaps an extension, then a last line with the size zero, the
trailer section and an empty line.  A size line is read back, also where the
line feed of the line before is still in front of it.
-/

/-- A line that states a size. -/
structure SizeLine (size : Nat) where
  digits : List Char
  extension : List Byte
  written : numeral 16 digits = some size
  separated : extension = [] ∨ ∃ rest, extension = semicolon :: rest
  unbroken : cr ∉ extension

/-- A chunk: its data and the line in front of it. -/
structure Chunk where
  data : List Byte
  line : SizeLine data.length
  nonempty : data ≠ []

/-- A line of the trailer section. -/
structure Trailer where
  text : List Byte
  nonempty : text ≠ []
  unbroken : cr ∉ text

/-- A body as it is sent. -/
structure ChunkedBody where
  chunks : List Chunk
  last : SizeLine 0
  trailers : List Trailer

/-- The line without its end. -/
def SizeLine.text {size : Nat} (line : SizeLine size) : List Byte :=
  asBytes (String.ofList line.digits) ++ line.extension

/-- The chunks on the wire. -/
def encodeChunks (chunks : List Chunk) : List Byte :=
  chunks.flatMap fun chunk => chunk.line.text ++ crlf ++ chunk.data ++ crlf

/-- The data of the chunks, one after the other. -/
def dataOf (chunks : List Chunk) : List Byte :=
  chunks.flatMap Chunk.data

namespace ChunkedBody

variable (body : ChunkedBody)

/-- The trailer section and the empty line. -/
def trailerSection : List Byte :=
  body.trailers.flatMap (fun trailer => trailer.text ++ crlf) ++ crlf

/-- The body on the wire. -/
def encode : List Byte :=
  encodeChunks body.chunks ++ (body.last.text ++ crlf ++ body.trailerSection)

/-- The decoded body. -/
def data : List Byte :=
  dataOf body.chunks

theorem trailerSection_eq : ∃ first more, body.trailerSection = first ++ crlf ++ more ∧
    cr ∉ first ∧ (body.trailers = [] → first = [] ∧ more = []) := by
  unfold trailerSection
  cases body.trailers with
  | nil => exact ⟨[], [], rfl, List.not_mem_nil, fun _ => ⟨rfl, rfl⟩⟩
  | cons trailer trailers =>
      refine ⟨trailer.text, trailers.flatMap (fun trailer => trailer.text ++ crlf) ++ crlf, ?_,
        trailer.unbroken, nofun⟩
      rw [List.flatMap_cons, List.append_assoc]

end ChunkedBody

namespace SizeLine

variable {size : Nat} (line : SizeLine size)

theorem toNat_digit {char : Char} (digit : char ∈ line.digits) :
    ('0'.toNat ≤ char.toNat ∧ char.toNat ≤ '9'.toNat) ∨
      ('a'.toNat ≤ char.toNat ∧ char.toNat ≤ 'z'.toNat) ∨
      ('A'.toNat ≤ char.toNat ∧ char.toNat ≤ 'Z'.toNat) :=
  toNat_of_toDigit (isSome_toDigit_of_numeral line.written char digit)

/-- What stands in front of the digits: nothing, or a line feed. -/
def Front (front : List Char) : Prop :=
  front = [] ∨ front = ['\n']

variable {front : List Char}

theorem asBytes_front (fronted : Front front) :
    asBytes (String.ofList (front ++ line.digits)) =
      (front ++ line.digits).map fun char => BitVec.ofNat 8 char.toNat := by
  apply asBytes_ofList
  intro char member
  rcases List.mem_append.mp member with leading | digit
  · rcases fronted with rfl | rfl
    · exact absurd leading List.not_mem_nil
    · rw [List.mem_singleton.mp leading]
      decide
  · have range := line.toNat_digit digit
    simp only [Char.reduceToNat] at range
    omega

/-- No character up to the extension has a code that is neither a line feed's
nor a digit's. -/
theorem not_mem_front (fronted : Front front) {byte : Byte} (feed : byte ≠ lf)
    (other : byte.toNat < 48 ∨ (57 < byte.toNat ∧ byte.toNat < 65)) :
    byte ∉ asBytes (String.ofList (front ++ line.digits)) := by
  rw [line.asBytes_front fronted]
  intro member
  rcases List.mem_map.mp member with ⟨char, found, rfl⟩
  rcases List.mem_append.mp found with leading | digit
  · rcases fronted with rfl | rfl
    · exact absurd leading List.not_mem_nil
    · rw [List.mem_singleton.mp leading] at feed
      exact feed (by decide)
  · have range := line.toNat_digit digit
    simp only [Char.reduceToNat] at range
    rw [BitVec.toNat_ofNat] at other
    omega

/-- The line with what stands in front of it. -/
def fronted (line : SizeLine size) (front : List Char) : List Byte :=
  asBytes (String.ofList (front ++ line.digits)) ++ line.extension

theorem fronted_eq (fronted : Front front) :
    line.fronted front = asBytes (String.ofList front) ++ line.text := by
  rcases fronted with rfl | rfl
  · rfl
  · have digits : asBytes (String.ofList line.digits) =
        line.digits.map fun char => BitVec.ofNat 8 char.toNat :=
      line.asBytes_front (Or.inl rfl)
    rw [SizeLine.fronted, text, line.asBytes_front (Or.inr rfl), digits]
    rfl

theorem cr_not_mem (fronted : Front front) : cr ∉ line.fronted front := by
  rw [SizeLine.fronted, List.mem_append, not_or]
  exact ⟨line.not_mem_front fronted (by decide) (by decide), line.unbroken⟩

theorem takeWhile_fronted (fronted : Front front) :
    (line.fronted front).takeWhile (· ≠ semicolon) =
      asBytes (String.ofList (front ++ line.digits)) := by
  have none : ∀ byte ∈ asBytes (String.ofList (front ++ line.digits)),
      decide (byte ≠ semicolon) = true := by
    intro byte member
    rw [decide_eq_true_iff]
    rintro rfl
    exact line.not_mem_front fronted (by decide) (by decide) member
  have ended : line.extension.takeWhile (· ≠ semicolon) = [] := by
    rcases line.separated with empty | ⟨rest, started⟩
    · rw [empty]
      rfl
    · rw [started, List.takeWhile_cons_of_neg]
      simp
  rw [SizeLine.fronted, List.takeWhile_append_of_pos none, ended, List.append_nil]

theorem parseSize_fronted (fronted : Front front) (representable : size ≤ usizeMax) :
    Dechunker.parseSize (line.fronted front ++ crlf) = some size := by
  have stripped : (line.fronted front ++ crlf).take ((line.fronted front ++ crlf).length - 2) =
      line.fronted front := by
    rw [List.length_append]
    exact List.take_left
  have blank : ∀ char ∈ front, isWhitespace char = true := by
    rcases fronted with rfl | rfl
    · nofun
    · intro char mem
      rw [List.mem_singleton.mp mem]
      rfl
  have solid : ∀ char ∈ line.digits, isWhitespace char = false := fun char digit =>
    not_isWhitespace_of_toDigit (isSome_toDigit_of_numeral line.written char digit)
  dsimp only [Dechunker.parseSize]
  rw [if_pos (List.suffix_append _ _), stripped, line.takeWhile_fronted fronted,
    fromUtf8_eq_some_iff.mpr rfl, Option.bind_some, trim_ofList blank solid]
  exact fromStrRadix_of_numeral line.written (Nat.lt_succ_of_le representable)

end SizeLine

end Corduit.Engine.Inbound.Forward
