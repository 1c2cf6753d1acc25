import Corduit.Protocol.Quic.Tls.Codec

/-!
# Writing transport parameters

Every parameter is written as its identifier, the length of its value and the
value.  An integer is written as a variable-length integer, and the connection
id behind its length; the parser takes the value as it stands, so that what it
reads is the encoding.
-/

namespace Corduit.Protocol.Quic

open Transition Word

/-- A variable-length integer. -/
def varint (v : Nat) : List Byte :=
  if v < 64 then
    [BitVec.ofNat 8 v]
  else if v < 16384 then
    [0x40 ||| BitVec.ofNat 8 (v >>> 8), BitVec.ofNat 8 (v &&& 0xff)]
  else if v < 1 <<< 30 then
    [0x80 ||| BitVec.ofNat 8 (v >>> 24), BitVec.ofNat 8 (v >>> 16), BitVec.ofNat 8 (v >>> 8),
      BitVec.ofNat 8 v]
  else
    [0xc0 ||| BitVec.ofNat 8 (v >>> 56), BitVec.ofNat 8 (v >>> 48), BitVec.ofNat 8 (v >>> 40),
      BitVec.ofNat 8 (v >>> 32), BitVec.ofNat 8 (v >>> 24), BitVec.ofNat 8 (v >>> 16),
      BitVec.ofNat 8 (v >>> 8), BitVec.ofNat 8 v]

theorem or_code (code : Fin 4) (head : Byte) (small : head.toNat < 64) :
    let first := BitVec.ofNat 8 (64 * code.val) ||| head
    (first >>> 6).toNat = code.val ∧ first &&& 0x3f = head ∧
      first.toNat = 64 * code.val + head.toNat := by
  have all : ∀ (code : Fin 4) (head : Fin 256), head.val < 64 →
      ((BitVec.ofNat 8 (64 * code.val) ||| BitVec.ofFin head) >>> 6).toNat = code.val ∧
        (BitVec.ofNat 8 (64 * code.val) ||| BitVec.ofFin head) &&& 0x3f = BitVec.ofFin head ∧
        (BitVec.ofNat 8 (64 * code.val) ||| BitVec.ofFin head).toNat =
          64 * code.val + head.val := by
    decide +kernel
  exact all code head.toFin small

/-- What a variable-length integer consists of: a length code in front of the
bytes of the value. -/
theorem varint_cases {v : Nat} (bound : v < 2 ^ 62) :
    ∃ (code : Fin 4) (head : Byte) (tail : List Byte),
      varint v = (BitVec.ofNat 8 (64 * code.val) ||| head) :: tail ∧ head.toNat < 64 ∧
        tail.length + 1 = 2 ^ code.val ∧ ofBeBytes (head :: tail) = v ∧ (code = 0 ↔ v < 64) := by
  unfold varint
  have shift : 1 <<< 30 = 2 ^ 30 := rfl
  split
  · rename_i small
    refine ⟨0, BitVec.ofNat 8 v, [], by simp, ?_, rfl, ?_, by simp [small]⟩
    · rw [BitVec.toNat_ofNat]
      omega
    · simp [ofBeBytes]
      omega
  split
  · refine ⟨1, BitVec.ofNat 8 (v >>> 8), [BitVec.ofNat 8 (v &&& 0xff)], rfl, ?_, rfl, ?_, ?_⟩
    · rw [BitVec.toNat_ofNat, Nat.shiftRight_eq_div_pow]
      omega
    · have low : v &&& 255 = v % 256 := Nat.and_two_pow_sub_one_eq_mod v 8
      simp [ofBeBytes, Nat.shiftRight_eq_div_pow, low]
      omega
    · simp; omega
  split
  · refine ⟨2, BitVec.ofNat 8 (v >>> 24), [BitVec.ofNat 8 (v >>> 16), BitVec.ofNat 8 (v >>> 8),
      BitVec.ofNat 8 v], rfl, ?_, rfl, ?_, ?_⟩
    · rw [BitVec.toNat_ofNat, Nat.shiftRight_eq_div_pow]
      omega
    · simp [ofBeBytes, Nat.shiftRight_eq_div_pow]
      omega
    · simp; omega
  · refine ⟨3, BitVec.ofNat 8 (v >>> 56), [BitVec.ofNat 8 (v >>> 48), BitVec.ofNat 8 (v >>> 40),
      BitVec.ofNat 8 (v >>> 32), BitVec.ofNat 8 (v >>> 24), BitVec.ofNat 8 (v >>> 16),
      BitVec.ofNat 8 (v >>> 8), BitVec.ofNat 8 v], rfl, ?_, rfl, ?_, ?_⟩
    · rw [BitVec.toNat_ofNat, Nat.shiftRight_eq_div_pow]
      omega
    · simp [ofBeBytes, Nat.shiftRight_eq_div_pow]
      omega
    · simp; omega

theorem readVarint_varint {v : Nat} (bound : v < 2 ^ 62) (rest : List Byte) :
    readVarint (varint v ++ rest) = .ok (v, rest) := by
  rcases varint_cases bound with ⟨code, head, tail, varint_eq, small, length_eq, value_eq, _⟩
  rcases or_code code head small with ⟨code_eq, head_eq, _⟩
  have count : 2 ^ code.val - 1 = tail.length := by omega
  rw [varint_eq, List.cons_append, readVarint, code_eq, head_eq, count, List.take_left,
    List.drop_left, value_eq, if_neg]
  rw [List.length_append]
  omega

/-- Taken as it stands, the encoding spells the value only when it is the value. -/
theorem ofBeBytes_varint_eq_iff {v : Nat} (bound : v < 2 ^ 62) :
    ofBeBytes (varint v) = v ↔ v < 64 := by
  rcases varint_cases bound with ⟨code, head, tail, varint_eq, small, _, value_eq, code_iff⟩
  rcases or_code code head small with ⟨_, _, first_eq⟩
  rw [← code_iff, varint_eq, ofBeBytes_cons, first_eq]
  rw [ofBeBytes_cons] at value_eq
  have positive : 0 < 256 ^ tail.length := Nat.pow_pos (by decide)
  rw [Nat.add_mul]
  constructor
  · intro same
    have zero : 64 * code.val * 256 ^ tail.length = 0 := by omega
    rcases Nat.mul_eq_zero.mp zero with none | none
    · exact Fin.ext (by simpa using none)
    · omega
  · rintro rfl
    simpa using value_eq

/-- An entry at the end. -/
def pushTp (out : List Byte) (id : Nat) (value : List Byte) : List Byte :=
  out ++ varint id ++ varint value.length ++ value

/-- The value of `TP_INITIAL_SOURCE_CONNECTION_ID` that is written. -/
def scidValue (scid : List Byte) : List Byte :=
  varint scid.length ++ scid

/-- The parameters that the client sends. -/
def encodeClientTp (tp : TransportParameters) (scid : List Byte) : List Byte :=
  let out := []
  let out := pushTp out 0x04 (varint tp.initialMaxData)
  let out := pushTp out 0x05 (varint tp.initialMaxStreamDataBidiLocal)
  let out := pushTp out 0x06 (varint tp.initialMaxStreamDataBidiRemote)
  let out := pushTp out 0x07 (varint tp.initialMaxStreamDataUni)
  let out := pushTp out 0x08 (varint tp.initialMaxStreamsBidi)
  let out := pushTp out 0x09 (varint tp.initialMaxStreamsUni)
  let out := pushTp out 0x03 (varint tp.maxUdpPayloadSize)
  let out := pushTp out 0x0a (varint tp.ackDelayExponent)
  let out := pushTp out 0x0b (varint tp.maxAckDelay)
  let out := pushTp out 0x0c []
  pushTp out 0x0f (scidValue scid)

/-- The parameters as the entries they are written as. -/
def clientEntries (tp : TransportParameters) (scid : List Byte) : List (Nat × List Byte) :=
  [(0x04, varint tp.initialMaxData), (0x05, varint tp.initialMaxStreamDataBidiLocal),
    (0x06, varint tp.initialMaxStreamDataBidiRemote), (0x07, varint tp.initialMaxStreamDataUni),
    (0x08, varint tp.initialMaxStreamsBidi), (0x09, varint tp.initialMaxStreamsUni),
    (0x03, varint tp.maxUdpPayloadSize), (0x0a, varint tp.ackDelayExponent),
    (0x0b, varint tp.maxAckDelay), (0x0c, []), (0x0f, scidValue scid)]

theorem encodeClientTp_eq (tp : TransportParameters) (scid : List Byte) :
    encodeClientTp tp scid =
      (clientEntries tp scid).flatMap fun entry => pushTp [] entry.1 entry.2 := by
  simp only [encodeClientTp, clientEntries, List.flatMap_cons, List.flatMap_nil]
  simp [pushTp]

section Parsing

variable {tp : TransportParameters}

theorem parseTpFrom_pushTp {id : Nat} {value : List Byte} (idBound : id < 2 ^ 62)
    (valueBound : value.length < 2 ^ 62) (bound : Nat) (rest : List Byte) :
    parseTpFrom (bound + 1) tp (pushTp [] id value ++ rest) =
      tp.set id value >>= fun tp => parseTpFrom bound tp rest := by
  have written : pushTp [] id value ++ rest =
      varint id ++ (varint value.length ++ (value ++ rest)) := by
    simp [pushTp]
  have nonempty : (pushTp [] id value ++ rest).isEmpty = false := by
    rcases varint_cases idBound with ⟨_, _, _, varint_eq, _⟩
    simp [written, varint_eq]
  rw [parseTpFrom, nonempty, if_neg Bool.false_ne_true, written, readVarint_varint idBound]
  change (readVarint (varint value.length ++ (value ++ rest)) >>= _) = _
  rw [readVarint_varint valueBound]
  change (if (value ++ rest).length < value.length then _ else _) = _
  rw [if_neg (by rw [List.length_append]; omega), List.take_left, List.drop_left]

theorem parseTpFrom_entries {entries : List (Nat × List Byte)}
    (small : ∀ entry ∈ entries, entry.1 < 2 ^ 62 ∧ entry.2.length < 2 ^ 62) {bound : Nat}
    (enough : entries.length ≤ bound) :
    parseTpFrom bound tp (entries.flatMap fun entry => pushTp [] entry.1 entry.2) =
      entries.foldlM (fun tp entry => tp.set entry.1 entry.2) tp := by
  induction entries generalizing tp bound with
  | nil => cases bound <;> rfl
  | cons entry entries ih =>
      cases bound with
      | zero => simp at enough
      | succ bound =>
          rcases small entry List.mem_cons_self with ⟨idBound, valueBound⟩
          rw [List.flatMap_cons, parseTpFrom_pushTp idBound valueBound, List.foldlM_cons]
          refine bind_congr fun tp => ?_
          exact ih (fun other member => small other (List.mem_cons_of_mem entry member))
            (Nat.le_of_succ_le_succ enough)

theorem length_varint_le (v : Nat) : (varint v).length ≤ 8 := by
  unfold varint
  split
  · simp
  split
  · simp
  split <;> simp

theorem one_le_length_varint (v : Nat) : 1 ≤ (varint v).length := by
  unfold varint
  split
  · simp
  split
  · simp
  split <;> simp

theorem length_le_length_entries (entries : List (Nat × List Byte)) :
    entries.length ≤ (entries.flatMap fun entry => pushTp [] entry.1 entry.2).length := by
  induction entries with
  | nil => exact Nat.zero_le _
  | cons entry entries ih =>
      have positive := one_le_length_varint entry.1
      rw [List.flatMap_cons, List.length_append, List.length_cons, pushTp, List.length_append,
        List.length_append, List.length_append]
      omega

theorem parseTpU64_varint (v : Nat) : parseTpU64 (varint v) = .ok (ofBeBytes (varint v)) := by
  rw [parseTpU64, if_neg (by have := length_varint_le v; omega)]

/-- What the parser makes of the client's parameters: every value as it stands. -/
def parsedClientTp (tp : TransportParameters) (scid : List Byte) : TransportParameters where
  initialMaxData := ofBeBytes (varint tp.initialMaxData)
  initialMaxStreamDataBidiLocal := ofBeBytes (varint tp.initialMaxStreamDataBidiLocal)
  initialMaxStreamDataBidiRemote := ofBeBytes (varint tp.initialMaxStreamDataBidiRemote)
  initialMaxStreamDataUni := ofBeBytes (varint tp.initialMaxStreamDataUni)
  initialMaxStreamsBidi := ofBeBytes (varint tp.initialMaxStreamsBidi)
  initialMaxStreamsUni := ofBeBytes (varint tp.initialMaxStreamsUni)
  maxUdpPayloadSize := ofBeBytes (varint tp.maxUdpPayloadSize)
  ackDelayExponent := ofBeBytes (varint tp.ackDelayExponent)
  maxAckDelay := ofBeBytes (varint tp.maxAckDelay)
  initialSourceConnectionId := scidValue scid
  disableActiveMigration := true

theorem parseTp_encodeClientTp (tp : TransportParameters) {scid : List Byte}
    (short : scid.length ≤ 20) :
    parseTp (encodeClientTp tp scid) = .ok (parsedClientTp tp scid) := by
  have small : ∀ entry ∈ clientEntries tp scid, entry.1 < 2 ^ 62 ∧ entry.2.length < 2 ^ 62 := by
    have integers := length_varint_le
    have id : (scidValue scid).length < 2 ^ 62 := by
      rw [scidValue, List.length_append]
      have := integers scid.length
      omega
    intro entry member
    simp only [clientEntries, List.mem_cons, List.not_mem_nil, or_false] at member
    rcases member with rfl | rfl | rfl | rfl | rfl | rfl | rfl | rfl | rfl | rfl | rfl
    case inr.inr.inr.inr.inr.inr.inr.inr.inr.inr => exact ⟨by simp, id⟩
    case inr.inr.inr.inr.inr.inr.inr.inr.inr.inl => exact ⟨by simp, by simp⟩
    all_goals exact ⟨by simp, (integers _).trans_lt (by decide)⟩
  have enough : (clientEntries tp scid).length ≤ (encodeClientTp tp scid).length := by
    rw [encodeClientTp_eq]
    exact length_le_length_entries _
  rw [parseTp, show parseTpFrom (encodeClientTp tp scid).length {} (encodeClientTp tp scid) =
    parseTpFrom (encodeClientTp tp scid).length {}
      ((clientEntries tp scid).flatMap fun entry => pushTp [] entry.1 entry.2) by
    rw [← encodeClientTp_eq], parseTpFrom_entries small enough]
  simp only [clientEntries, List.foldlM_cons, List.foldlM_nil, TransportParameters.set,
    parseTpU64_varint]
  rfl

end Parsing

/-- The integers of the parameters. -/
def TransportParameters.integers (tp : TransportParameters) : List Nat :=
  [tp.initialMaxData, tp.initialMaxStreamDataBidiLocal, tp.initialMaxStreamDataBidiRemote,
    tp.initialMaxStreamDataUni, tp.initialMaxStreamsBidi, tp.initialMaxStreamsUni,
    tp.maxUdpPayloadSize, tp.ackDelayExponent, tp.maxAckDelay]

/-- The parameters are read back as they were written, the connection id too. -/
def TransportParameters.RoundTrips (tp : TransportParameters) (scid : List Byte) : Prop :=
  ∃ parsed, parseTp (encodeClientTp tp scid) = .ok parsed ∧ parsed.integers = tp.integers ∧
    parsed.initialSourceConnectionId = scid

theorem integers_parsedClientTp (tp : TransportParameters) (scid : List Byte) :
    (parsedClientTp tp scid).integers = tp.integers.map fun v => ofBeBytes (varint v) :=
  rfl

theorem map_eq_self_iff {α : Type} {f : α → α} {items : List α} :
    items.map f = items ↔ ∀ item ∈ items, f item = item := by
  induction items with
  | nil => simp
  | cons item items ih => rw [List.map_cons, List.cons.injEq, ih, List.forall_mem_cons]

theorem scidValue_ne (scid : List Byte) : scidValue scid ≠ scid := by
  intro same
  have lengths := congrArg List.length same
  have positive := one_le_length_varint scid.length
  rw [scidValue, List.length_append] at lengths
  omega

/-- Variable-length integers are read back.  The parameters never are: they are
parsed, but the connection id comes back with its length in front, and the
integers come back as they were only when all of them are below 64. -/
theorem encodeClientTp_never_round_trips {tp : TransportParameters} {scid : List Byte}
    (bounded : ∀ v ∈ tp.integers, v < 2 ^ 62) (short : scid.length ≤ 20) :
    (∀ v < 2 ^ 62, ∀ rest, readVarint (varint v ++ rest) = .ok (v, rest)) ∧
      ¬tp.RoundTrips scid ∧
      ∃ parsed, parseTp (encodeClientTp tp scid) = .ok parsed ∧
        parsed.initialSourceConnectionId ≠ scid ∧
        (parsed.integers = tp.integers ↔ ∀ v ∈ tp.integers, v < 64) := by
  have parses := parseTp_encodeClientTp tp short
  refine ⟨fun v bound rest => readVarint_varint bound rest, ?_, parsedClientTp tp scid, parses,
    scidValue_ne scid, ?_⟩
  · rintro ⟨parsed, reads, _, same⟩
    rw [parses] at reads
    obtain rfl := Except.ok.inj reads
    exact scidValue_ne scid same
  · rw [integers_parsedClientTp, map_eq_self_iff]
    exact forall₂_congr fun v member => ofBeBytes_varint_eq_iff (bounded v member)

theorem encodeClientTp_never_round_trips_small :
    ¬TransportParameters.RoundTrips { ackDelayExponent := 3 } [7] ∧
      ∃ parsed, parseTp (encodeClientTp { ackDelayExponent := 3 } [7]) = .ok parsed ∧
        parsed.initialSourceConnectionId ≠ [7] ∧
        (parsed.integers = [0, 0, 0, 0, 0, 0, 0, 3, 0] ↔
          ∀ v ∈ [0, 0, 0, 0, 0, 0, 0, 3, 0], v < 64) :=
  (@encodeClientTp_never_round_trips { ackDelayExponent := 3 } [7] (by decide) (by decide)).2

/-- A window of 65536 bytes is read as one of more than two billion, the
connection id with a byte for its length. -/
theorem encodeClientTp_misread :
    ¬TransportParameters.RoundTrips { initialMaxData := 65536 } [1, 2, 3, 4, 5, 6, 7, 8] ∧
      ∃ parsed, parseTp (encodeClientTp { initialMaxData := 65536 } [1, 2, 3, 4, 5, 6, 7, 8]) =
          .ok parsed ∧
        parsed.initialMaxData = 2147549184 ∧
        parsed.initialSourceConnectionId = [8, 1, 2, 3, 4, 5, 6, 7, 8] := by
  have reads : parseTp (encodeClientTp { initialMaxData := 65536 } [1, 2, 3, 4, 5, 6, 7, 8]) =
      .ok (parsedClientTp { initialMaxData := 65536 } [1, 2, 3, 4, 5, 6, 7, 8]) := by
    decide +kernel
  refine ⟨?_, _, reads, by decide, by decide⟩
  rintro ⟨parsed, reads', _, same⟩
  rw [reads] at reads'
  obtain rfl := Except.ok.inj reads'
  exact absurd same (by decide)

end Corduit.Protocol.Quic
