import Corduit.Engine.Outbound.Hysteria2.Udp
import Corduit.Transport.Deadline

/-!
# The answer to a TCP request

The server answers with a status, a message and padding, the last two behind
their lengths, and what it relays follows at once.  The message and the padding
are skipped up to a bound, and what goes wrong behind the status is ignored, so
that the stream may be handed on inside the answer.
-/

namespace Corduit.Engine.Outbound.Hysteria2

open Engine
open Protocol.Quic (varint_cases or_code)
open Transport Word

/-- The longest string of a response. -/
def MAX_RESPONSE_STRING : Nat :=
  4096

section Reading

variable (late : List Poll → Bool)

/-- The bytes behind the first one of a variable-length integer. -/
def readVarintFrom : Nat → Nat → Reading Nat
  | 0, value => pure value
  | count + 1, value => do
      let b ← readExactDeadline late 1
      readVarintFrom count (256 * value + (b.headD 0).toNat)

/-- A variable-length integer. -/
def readVarint : Reading Nat := do
  let b ← readExactDeadline late 1
  let first := b.headD 0
  let len := 1 <<< (first >>> 6).toNat
  readVarintFrom late (len - 1) (first &&& 0x3f).toNat

/-- The loop of `skip_bounded`. -/
def skipFrom (remaining : Nat) : Reading Unit :=
  if remaining = 0 then pure ()
  else do
    let take := min remaining 512
    let _ ← readExactDeadline late take
    skipFrom (remaining - take)
termination_by remaining

/-- At most `MAX_RESPONSE_STRING` bytes are skipped. -/
def skipBounded (total : Nat) : Reading Unit :=
  skipFrom late (min total MAX_RESPONSE_STRING)

/-- The length of a string is read and the string skipped.  Whether the length was there is told,
what became of the string is not. -/
def skipString (incoming : Incoming) : Bool × Incoming :=
  match readVarint late incoming with
  | (.error _, incoming) => (false, incoming)
  | (.ok len, incoming) => (true, (skipBounded late len incoming).2)

/-- What is done behind the status: a message is skipped and then padding. -/
def skipStrings (incoming : Incoming) : Incoming :=
  match skipString late incoming with
  | (false, incoming) => incoming
  | (true, incoming) => (skipString late incoming).2

/-- The status; the strings are skipped. -/
def readTcpResponse (incoming : Incoming) : Except Error Byte × Incoming :=
  match readExactDeadline late 1 incoming with
  | (.error error, incoming) =>
      (.error (.network ("Failed to read TCP response: " ++ error.text)), incoming)
  | (.ok b, incoming) => (.ok (b.headD 0), skipStrings late incoming)

end Reading

/-- A variable-length integer: a length code in front of the bytes of the value. -/
structure Varint (value : Nat) where
  code : Fin 4
  head : Byte
  tail : List Byte
  small : head.toNat < 64
  length_tail : tail.length + 1 = 2 ^ code.val
  spells : ofBeBytes (head :: tail) = value

namespace Varint

variable {value : Nat} (number : Varint value)

/-- How the number is written. -/
def bytes : List Byte :=
  (BitVec.ofNat 8 (64 * number.code.val) ||| number.head) :: number.tail

theorem bytes_ne_nil : number.bytes ≠ [] :=
  List.cons_ne_nil _ _

theorem exists_bytes_eq (bound : value < 2 ^ 62) :
    ∃ number : Varint value, number.bytes = writeVarint value := by
  rcases varint_cases bound with ⟨code, head, tail, varint_eq, small, length_eq, spells, _⟩
  rw [writeVarint_eq, varint_eq]
  exact ⟨⟨code, head, tail, small, length_eq, spells⟩, rfl⟩

/-- Zero in one byte. -/
def zero : Varint 0 :=
  ⟨0, 0, [], by decide, rfl, rfl⟩

end Varint

variable {late : List Poll → Bool}

theorem takes_readVarintFrom (bytes : List Byte) (value : Nat) :
    Takes late (readVarintFrom late bytes.length value) (List.replicate bytes.length 1) bytes
      (bytes.foldl (fun value byte => 256 * value + byte.toNat) value) := by
  induction bytes generalizing value with
  | nil => exact Takes.pure value
  | cons byte bytes ih => exact (takes_readExactDeadline [byte]).bind (ih _)

theorem length_writeVarint (value : Nat) : (writeVarint value).length = varintLen value := by
  rw [writeVarint, varintLen]
  split
  · rfl
  split
  · rfl
  split <;> rfl

/-- Every variable-length integer is read to its end, byte after byte. -/
theorem takes_readVarint {value : Nat} (number : Varint value) :
    Takes late (readVarint late) (List.replicate number.bytes.length 1) number.bytes value := by
  rcases or_code number.code number.head number.small with ⟨code_eq, head_eq, _⟩
  have len : 1 <<< number.code.val - 1 = number.tail.length := by
    rw [Nat.one_shiftLeft, ← number.length_tail, Nat.add_sub_cancel]
  have behind := @takes_readVarintFrom late number.tail number.head.toNat
  have value_eq := number.spells
  rw [ofBeBytes, List.foldl_cons, Nat.mul_zero, Nat.zero_add] at value_eq
  rw [value_eq] at behind
  apply (takes_readExactDeadline [BitVec.ofNat 8 (64 * number.code.val) ||| number.head]).bind
  dsimp only [List.headD]
  rw [code_eq, head_eq, len]
  exact behind

/-- The sizes of the reads that skip so many bytes. -/
def skipSizes (remaining : Nat) : List Nat :=
  if remaining = 0 then []
  else min remaining 512 :: skipSizes (remaining - min remaining 512)
termination_by remaining

theorem takes_skipFrom (bytes : List Byte) :
    Takes late (skipFrom late bytes.length) (skipSizes bytes.length) bytes () := by
  induction length_eq : bytes.length using Nat.strong_induction_on generalizing bytes with
  | _ remaining ih =>
      rw [skipFrom, skipSizes]
      by_cases none : remaining = 0
      · obtain rfl := List.length_eq_zero_iff.mp (length_eq.trans none)
        rw [if_pos none, if_pos none]
        exact Takes.pure ()
      · rw [if_neg none, if_neg none]
        have first := @takes_readExactDeadline late (bytes.take (min remaining 512))
        have behind := ih (remaining - min remaining 512) (by omega)
          (bytes.drop (min remaining 512)) (by rw [List.length_drop, length_eq])
        have both : Takes late
            (readExactDeadline late (bytes.take (min remaining 512)).length >>= fun _ =>
              skipFrom late (remaining - min remaining 512)) _ _ _ := first.bind behind
        rw [List.length_take_of_le (length_eq ▸ Nat.min_le_left _ _), List.take_append_drop] at both
        exact both

/-- A text is skipped whole when it is within the bound and arrives; otherwise some of it is
left. -/
theorem skipBounded_cases (text rest : List Byte) (polls : List Poll) :
    (text.length ≤ MAX_RESPONSE_STRING ∧
      ∃ later, arrives late polls (skipSizes text.length) = some later ∧
        skipBounded late text.length ⟨text ++ rest, polls⟩ = (.ok (), ⟨rest, later⟩)) ∨
    (¬ (text.length ≤ MAX_RESPONSE_STRING ∧
        (arrives late polls (skipSizes text.length)).isSome = true) ∧
      ∃ result behind later,
        skipBounded late text.length ⟨text ++ rest, polls⟩ = (result, ⟨behind ++ rest, later⟩) ∧
          behind ≠ [] ∧ behind <:+ text) := by
  rw [skipBounded]
  by_cases within : text.length ≤ MAX_RESPONSE_STRING
  · rw [Nat.min_eq_left within]
    rcases takes_skipFrom text polls rest with
      ⟨later, came, took⟩ | ⟨lost, error, behind, later, failed, left⟩
    · exact Or.inl ⟨within, later, came, took⟩
    · rw [lost]
      exact Or.inr ⟨fun both => Bool.false_ne_true both.2, _, behind, later, failed, left⟩
  · right
    constructor
    · exact fun both => within both.1
    · have long := Nat.lt_of_not_le within
      have front : (text.take MAX_RESPONSE_STRING).length = MAX_RESPONSE_STRING :=
        List.length_take_of_le long.le
      have back : text.drop MAX_RESPONSE_STRING ≠ [] := by
        rw [Ne, List.drop_eq_nil_iff]
        exact within
      have split : text ++ rest =
          text.take MAX_RESPONSE_STRING ++ (text.drop MAX_RESPONSE_STRING ++ rest) := by
        rw [← List.append_assoc, List.take_append_drop]
      have takes := @takes_skipFrom late (text.take MAX_RESPONSE_STRING)
      rw [front] at takes
      rw [Nat.min_eq_right long.le, split]
      rcases takes polls (text.drop MAX_RESPONSE_STRING ++ rest) with
        ⟨later, _, took⟩ | ⟨_, error, behind, later, failed, left, before, suffix⟩
      · exact ⟨_, _, later, took, back, List.drop_suffix _ text⟩
      · refine ⟨.error error, behind ++ text.drop MAX_RESPONSE_STRING, later, ?_, ?_, before, ?_⟩
        · rw [failed, List.append_assoc]
        · exact List.append_ne_nil_of_left_ne_nil left _
        · rw [← List.append_assoc, suffix, List.take_append_drop]

/-- A string and its length are skipped when the string is within the bound and all of it
arrives; otherwise some of it is left. -/
theorem skipString_cases {length : Nat} (number : Varint length) {text : List Byte}
    (length_eq : text.length = length) (rest : List Byte) (polls : List Poll) :
    (length ≤ MAX_RESPONSE_STRING ∧
      ∃ later, arrives late polls
          (List.replicate number.bytes.length 1 ++ skipSizes length) = some later ∧
        skipString late ⟨number.bytes ++ (text ++ rest), polls⟩ = (true, ⟨rest, later⟩)) ∨
    (¬ (length ≤ MAX_RESPONSE_STRING ∧ (arrives late polls
        (List.replicate number.bytes.length 1 ++ skipSizes length)).isSome = true) ∧
      ∃ found behind later,
        skipString late ⟨number.bytes ++ (text ++ rest), polls⟩ =
            (found, ⟨behind ++ rest, later⟩) ∧
          behind ≠ [] ∧ (found = true → behind <:+ text)) := by
  subst length_eq
  rw [skipString, arrives_append]
  rcases takes_readVarint number polls (text ++ rest) with
    ⟨between, came, took⟩ | ⟨lost, error, behind, later, failed, left, _⟩
  · rw [came, took]
    rcases skipBounded_cases text rest between with
      ⟨within, later, came', took'⟩ | ⟨short, result, behind, later, took', left, suffix⟩
    · exact Or.inl ⟨within, later, came', by simp only [took']⟩
    · exact Or.inr ⟨short, true, behind, later, by simp only [took'], left, fun _ => suffix⟩
  · rw [lost, failed]
    right
    constructor
    · exact fun both => Bool.false_ne_true both.2
    · refine ⟨false, behind ++ text, later, ?_, ?_, fun found => nomatch found⟩
      · rw [List.append_assoc]
      · exact List.append_ne_nil_of_left_ne_nil left text

theorem skipString_zero (rest : List Byte) (polls : List Poll) :
    ∃ found behind later,
      skipString late ⟨0 :: rest, polls⟩ = (found, ⟨behind ++ rest, later⟩) := by
  rcases @skipString_cases late 0 .zero [] rfl rest polls with
    ⟨_, later, _, took⟩ | ⟨_, found, behind, later, took, _⟩
  · exact ⟨true, [], later, took⟩
  · exact ⟨found, behind, later, took⟩

/-- The lengths in an answer. -/
structure Shape where
  messageLength : Nat
  messageVarint : Varint messageLength
  paddingLength : Nat
  paddingVarint : Varint paddingLength

/-- The sizes of the reads that take an answer behind its status. -/
def Shape.sizes (shape : Shape) : List Nat :=
  (List.replicate shape.messageVarint.bytes.length 1 ++ skipSizes shape.messageLength) ++
    (List.replicate shape.paddingVarint.bytes.length 1 ++ skipSizes shape.paddingLength)

/-- An answer with these lengths. -/
structure Response (shape : Shape) where
  status : Byte
  message : List Byte
  padding : List Byte
  length_message : message.length = shape.messageLength
  length_padding : padding.length = shape.paddingLength

namespace Response

variable {shape : Shape} (response : Response shape)

/-- What is behind the status. -/
def strings : List Byte :=
  shape.messageVarint.bytes ++ (response.message ++
    (shape.paddingVarint.bytes ++ response.padding))

/-- How the response is written. -/
def bytes : List Byte :=
  response.status :: response.strings

/-- An answer of zeros. -/
def zeros (shape : Shape) : Response shape :=
  ⟨0, List.replicate shape.messageLength 0, List.replicate shape.paddingLength 0,
    List.length_replicate, List.length_replicate⟩

end Response

/-- The strings are within the bounds, and all of them arrives. -/
def Shape.Arrives (shape : Shape) (late : List Poll → Bool) (polls : List Poll) : Prop :=
  (shape.messageLength ≤ MAX_RESPONSE_STRING ∧ shape.paddingLength ≤ MAX_RESPONSE_STRING) ∧
    (arrives late polls shape.sizes).isSome = true

instance (shape : Shape) (late : List Poll → Bool) (polls : List Poll) :
    Decidable (shape.Arrives late polls) :=
  inferInstanceAs (Decidable (_ ∧ _))

section

variable {shape : Shape} (response : Response shape) (app : List Byte)

/-- Strings that arrive are skipped to their end; of strings of zeros that do not, some is left. -/
theorem skipStrings_cases (polls : List Poll) :
    (shape.Arrives late polls ∧
      ∃ later, skipStrings late ⟨response.strings ++ app, polls⟩ = ⟨app, later⟩) ∨
    (¬ shape.Arrives late polls ∧
      (response = .zeros shape → ∃ behind later,
        skipStrings late ⟨response.strings ++ app, polls⟩ = ⟨behind ++ app, later⟩ ∧
          behind ≠ [])) := by
  have layout : response.strings ++ app = shape.messageVarint.bytes ++ (response.message ++
      (shape.paddingVarint.bytes ++ (response.padding ++ app))) := by
    simp [Response.strings]
  rw [layout, skipStrings, Shape.Arrives, Shape.sizes, arrives_append]
  rcases @skipString_cases late _ shape.messageVarint _ response.length_message
      (shape.paddingVarint.bytes ++ (response.padding ++ app)) polls with
    ⟨messageFits, between, came, took⟩ | ⟨short, found, behind, later, took, left, suffix⟩
  · rw [came, took]
    rcases @skipString_cases late _ shape.paddingVarint _ response.length_padding app between with
      ⟨paddingFits, later, came', took'⟩ | ⟨short, _, behind, later, took', left, _⟩
    · rw [Option.bind_some, came']
      exact Or.inl ⟨⟨⟨messageFits, paddingFits⟩, rfl⟩, later, congrArg Prod.snd took'⟩
    · right
      constructor
      · rintro ⟨⟨_, paddingFits⟩, arrived⟩
        exact short ⟨paddingFits, arrived⟩
      · exact fun _ => ⟨behind, later, congrArg Prod.snd took', left⟩
  · right
    constructor
    · rintro ⟨⟨messageFits, _⟩, arrived⟩
      apply short
      constructor
      · exact messageFits
      · rw [Option.isSome_bind] at arrived
        exact Option.isSome_of_any arrived
    · intro zeros
      rw [took]
      cases found with
      | false =>
          refine ⟨behind ++ (shape.paddingVarint.bytes ++ response.padding), later, by simp, ?_⟩
          exact List.append_ne_nil_of_left_ne_nil left _
      | true =>
          -- What is left of the message begins with a zero, which is taken for the padding's length.
          have all : ∀ byte ∈ behind, byte = 0 := by
            intro byte member
            have inside := (suffix rfl).subset member
            rw [zeros] at inside
            exact List.eq_of_mem_replicate inside
          rcases List.exists_cons_of_ne_nil left with ⟨byte, bytes, rfl⟩
          obtain rfl := all byte List.mem_cons_self
          rcases @skipString_zero late (bytes ++ (shape.paddingVarint.bytes ++
              (response.padding ++ app))) later with ⟨found, more, last, took'⟩
          refine ⟨more ++ bytes ++ shape.paddingVarint.bytes ++ response.padding, last, ?_, ?_⟩
          · dsimp only [List.cons_append]
            rw [took']
            simp
          · simp [Varint.bytes_ne_nil]

theorem readTcpResponse_status {polls later : List Poll} (came : arrive late polls 1 = some later) :
    readTcpResponse late ⟨response.bytes ++ app, polls⟩ =
      (.ok response.status, skipStrings late ⟨response.strings ++ app, later⟩) := by
  have single : arrives late polls [1] = some later := by
    rw [arrives_cons, came]
    rfl
  rw [readTcpResponse, Response.bytes, List.cons_append]
  rcases @takes_readExactDeadline late [response.status] polls (response.strings ++ app) with
    ⟨later', came', took⟩ | ⟨lost, _⟩
  · obtain rfl : later = later' := Option.some.inj (single.symm.trans came')
    simp only [List.singleton_append, List.length_singleton] at took
    rw [took]
    rfl
  · cases lost.symm.trans single

theorem readTcpResponse_lost {polls : List Poll} (lost : arrive late polls 1 = none) :
    ∃ error incoming, readTcpResponse late ⟨response.bytes ++ app, polls⟩ =
      (.error error, incoming) := by
  have single : arrives late polls [1] = none := by
    rw [arrives_cons, lost]
    rfl
  rw [readTcpResponse, Response.bytes, List.cons_append]
  rcases @takes_readExactDeadline late [response.status] polls (response.strings ++ app) with
    ⟨later, came, _⟩ | ⟨_, error, behind, later, failed, _⟩
  · cases came.symm.trans single
  · simp only [List.singleton_append, List.length_singleton] at failed
    rw [failed]
    exact ⟨_, _, rfl⟩

end

/-- An answer is read to its end exactly when its strings are within the bounds and all of it
arrives, or when there is no result because not even its status does; and variable-length
integers are read back as they were written. -/
theorem response_consumed_iff (late : List Poll → Bool) (polls : List Poll) (shape : Shape) :
    ((∀ (response : Response shape) (app : List Byte) (status : Byte) (incoming : Incoming),
        readTcpResponse late ⟨response.bytes ++ app, polls⟩ = (.ok status, incoming) →
          incoming.wire = app) ↔
      ∀ later, arrive late polls 1 = some later → shape.Arrives late later) ∧
    ∀ value < 2 ^ 62,
      Takes late (readVarint late) (List.replicate (varintLen value) 1) (writeVarint value) value ∧
        (writeVarint value).length = varintLen value ∧
        ∀ rest, readVarintSlice (writeVarint value ++ rest) = .ok (value, rest) := by
  constructor
  · constructor
    · intro consumed later came
      rcases @skipStrings_cases late shape (.zeros shape) [] later with
        ⟨arrived, _⟩ | ⟨_, zeros⟩
      · exact arrived
      · rcases zeros rfl with ⟨behind, last, skipped, left⟩
        have nothing := consumed _ _ _ _ (readTcpResponse_status (.zeros shape) [] came)
        rw [skipped, List.append_nil] at nothing
        exact absurd nothing left
    · intro arrival response app status incoming result
      cases came : arrive late polls 1 with
      | none =>
          rcases readTcpResponse_lost response app came with ⟨error, last, failed⟩
          rw [failed] at result
          cases result
      | some later =>
          rw [readTcpResponse_status response app came] at result
          cases result
          rcases skipStrings_cases response app later with ⟨_, last, skipped⟩ | ⟨missing, _⟩
          · rw [skipped]
          · exact absurd (arrival later came) missing
  · intro value bound
    rcases Varint.exists_bytes_eq bound with ⟨number, written⟩
    have length_eq : (writeVarint value).length = varintLen value := length_writeVarint value
    constructor
    · have takes := @takes_readVarint late value number
      rw [written, length_eq] at takes
      exact takes
    · exact ⟨length_eq, readVarintSlice_writeVarint bound⟩

/-- A message of one byte more than is skipped at most. -/
def longShape : Shape :=
  ⟨4097, ⟨1, 0x10, [0x01], by decide, rfl, rfl⟩, 0, .zero⟩

/-- The stream is handed on inside an answer with a message that is too long. -/
theorem longShape_not_consumed :
    ∃ incoming, readTcpResponse (fun _ => false) ⟨(Response.zeros longShape).bytes ++ [1, 2], []⟩ =
      (.ok 0, incoming) ∧ incoming.wire ≠ [1, 2] := by
  have long : ¬ longShape.Arrives (fun _ => false) [] := fun arrived =>
    absurd arrived.1.1 (by decide)
  have reads := readTcpResponse_status (.zeros longShape) [1, 2]
    (rfl : arrive (fun _ => false) [] 1 = some [])
  rcases skipStrings_cases (.zeros longShape) [1, 2] [] with ⟨arrived, _⟩ | ⟨_, zeros⟩
  · exact absurd arrived long
  · rcases zeros rfl with ⟨behind, last, skipped, left⟩
    refine ⟨_, reads, ?_⟩
    rw [skipped]
    simpa using left

end Corduit.Engine.Outbound.Hysteria2
