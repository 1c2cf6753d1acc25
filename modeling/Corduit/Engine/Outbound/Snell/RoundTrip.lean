import Corduit.Engine.Outbound.Snell.Core

/-!
# What a Snell reader returns

A writer's records, one behind the other, and a reader at the other end.  The
reader has opened some of the records and its nonce is the one that the writer
had behind them.
-/

namespace Corduit.Engine.Outbound.Snell

open Crypto Transport Word

variable {primitives : Primitives}

section

variable (opens : primitives.aes128Gcm.Opens) (direction : Direction) (plaintext : List Byte)

include opens

theorem Direction.openNext_sealNext :
    direction.openNext primitives (direction.sealNext primitives plaintext).1 =
      .ok (plaintext, (direction.sealNext primitives plaintext).2) := by
  rw [openNext, sealNext, opens.decrypt_encrypt]

theorem Direction.length_sealNext :
    (direction.sealNext primitives plaintext).1.length = plaintext.length + aeadTagLen :=
  opens.length_encrypt _ _ _

end

/-- A record that a peer sends; its data may be empty. -/
structure Record where
  padding : List Byte
  data : List Byte
  narrow : padding.length < 2 ^ 16
  short : data.length ≤ maxPayloadLen

namespace SnellStream

/-- What a session of writes put on the wire, the bytes that it took, and the
stream behind it. -/
structure Written where
  wire : List Byte
  text : List Byte
  stream : SnellStream

/-- Calls of `write`, one after the other. -/
def writes (primitives : Primitives) : SnellStream → List Draw → Written
  | stream, [] => ⟨[], [], stream⟩
  | stream, draw :: draws =>
      match stream.writeFrom primitives draw with
      | (count, bytes, stream') =>
          let later := writes primitives stream' draws
          ⟨bytes ++ later.wire, draw.buf.take count ++ later.text, later.stream⟩

variable {stream : SnellStream}

theorem writes_append (first second : List Draw) :
    writes primitives stream (first ++ second) =
      ⟨(writes primitives stream first).wire ++
          (writes primitives (writes primitives stream first).stream second).wire,
        (writes primitives stream first).text ++
          (writes primitives (writes primitives stream first).stream second).text,
        (writes primitives (writes primitives stream first).stream second).stream⟩ := by
  induction first generalizing stream with
  | nil => rfl
  | cons draw first ih =>
      simp only [List.cons_append, writes, ih, List.append_assoc]

variable {draw : Draw} {polls : List Poll}

theorem writes_cons_of_empty (empty : draw.buf = []) (draws : List Draw) :
    writes primitives stream (draw :: draws) = writes primitives stream draws := by
  rw [writes, writeFrom, if_pos empty, empty]
  rfl

/-- The salt in front of the first record, and the direction that it gives. -/
def opening (primitives : Primitives) (stream : SnellStream) (draw : Draw) :
    List Byte × Direction :=
  match stream.write with
  | some direction => ([], direction)
  | none => (draw.salt, Direction.new (deriveKey primitives stream.psk draw.salt))

/-- The piece of its buffer that a write takes. -/
def Draw.taken (draw : Draw) : List Byte :=
  draw.buf.take maxPayloadLen

/-- The record of a write. -/
def record (primitives : Primitives) (stream : SnellStream) (draw : Draw) :
    List Byte × Direction :=
  sealRecord primitives (stream.opening primitives draw).2 draw.padding draw.taken

theorem writes_cons_of_ne_nil (some : draw.buf ≠ []) (draws : List Draw) :
    writes primitives stream (draw :: draws) =
      let later := writes primitives
        { stream with write := Option.some (stream.record primitives draw).2 } draws
      ⟨(stream.opening primitives draw).1 ++ (stream.record primitives draw).1 ++ later.wire,
        draw.taken ++ later.text, later.stream⟩ := by
  have taken_eq : draw.buf.take (min draw.buf.length maxPayloadLen) = draw.taken := by
    rw [Draw.taken, Nat.min_comm, ← List.take_eq_take_min]
  rw [writes, writeFrom, if_neg some, writeRecord, record, opening]
  cases stream.write with
  | none => simp only [taken_eq]
  | some direction => simp only [taken_eq]

theorem length_sealRecord_pos (opens : primitives.aes128Gcm.Opens) (direction : Direction)
    (padding data : List Byte) : 0 < (sealRecord primitives direction padding data).1.length := by
  rw [sealRecord, List.append_assoc, List.length_append, Direction.length_sealNext opens]
  exact Nat.add_pos_left (Nat.succ_pos _) _

/-- The sizes that a record is read in: the header, and what it announces. -/
def recordSizes (primitives : Primitives) (direction : Direction) (wire : List Byte) : List Nat :=
  match direction.openNext primitives (wire.take headerCipherLen) with
  | .error _ => [headerCipherLen]
  | .ok (plain, _) =>
      match decodeHeader plain with
      | .error _ => [headerCipherLen]
      | .ok (paddingLen, payloadLen) => [headerCipherLen, paddingLen, payloadLen + aeadTagLen]

/-- The sizes that the next record is read in, with the salt in front of the first. -/
def sizes (primitives : Primitives) (stream : SnellStream) : List Nat :=
  match stream.read with
  | some direction => recordSizes primitives direction stream.inner.wire
  | none => saltLen :: recordSizes primitives
      (Direction.new (deriveKey primitives stream.psk (stream.inner.wire.take saltLen)))
      (stream.inner.wire.drop saltLen)

/-- What became of reading a record that is on the wire: there it is, or a read ran out of
time. -/
inductive Opened (next : List Poll → SnellStream) (polls : List Poll) {ρ : Type} (whole : ρ) :
    Except IoError ρ × SnellStream → (inTime : Prop) → Prop
  | opened {polls' : List Poll} (suffix : polls' <:+ polls) :
      Opened next polls whole (.ok whole, next polls') True
  | late {error : IoError} {after : SnellStream} : Opened next polls whole (.error error, after) False

theorem Opened.record {next : List Poll → SnellStream} {polls between : List Poll}
    {result : Except IoError Unit × SnellStream} {inTime : Prop} (suffix : between <:+ polls) :
    Opened next between () result inTime → Opened next polls true
      (match result with
        | (.error error, last) => (.error error, last)
        | (.ok (), last) => (.ok true, last)) inTime := by
  intro payload
  cases payload with
  | opened suffix' => exact Opened.opened (suffix'.trans suffix)
  | late => exact Opened.late

theorem length_sealNext_header (opens : primitives.aes128Gcm.Opens) (direction : Direction)
    (paddingLen payloadLen : Nat) :
    (direction.sealNext primitives (encodeHeader paddingLen payloadLen)).1.length =
      headerCipherLen := by
  rw [Direction.length_sealNext opens]
  simp [encodeHeader, headerCipherLen, headerPlainLen]

theorem opened_payload (opens : primitives.aes128Gcm.Opens) (stream : SnellStream)
    (direction : Direction) (padding data rest : List Byte) {polls : List Poll} (idles : Idles polls)
    (wire : stream.inner = ⟨(swapEven padding (direction.sealNext primitives data).1).1 ++
      ((swapEven padding (direction.sealNext primitives data).1).2 ++ rest), polls⟩) :
    Opened (fun polls' => { stream with
        inner := ⟨rest, polls'⟩
        read := some (direction.sealNext primitives data).2
        decode := data
        decodePos := 0 }) polls ()
      (stream.readPayload primitives direction padding.length data.length)
      (stream.inner.failsAfter [padding.length, data.length + aeadTagLen] = none) := by
  have lengths := length_swapEven padding (direction.sealNext primitives data).1
  have payload_length := Direction.length_sealNext opens direction data
  have back := swapEven_swapEven padding (direction.sealNext primitives data).1
  have opened := Direction.openNext_sealNext opens direction data
  have tag : data.length + aeadTagLen = (direction.sealNext primitives data).1.length :=
    payload_length.symm
  generalize (direction.sealNext primitives data).1 = payload at *
  rw [readPayload, wire, tag]
  generalize swapEven padding payload = swapped at *
  have padded : (if 0 < padding.length then
      Incoming.readExact ⟨swapped.1 ++ (swapped.2 ++ rest), polls⟩ padding.length
      else (.ok [], ⟨swapped.1 ++ (swapped.2 ++ rest), polls⟩)) =
        Incoming.readExact ⟨swapped.1 ++ (swapped.2 ++ rest), polls⟩ padding.length := by
    split
    · rfl
    · rename_i none
      rw [Nat.eq_zero_of_not_pos none, Incoming.readExact_zero]
  rw [padded, ← lengths.1, ← lengths.2]
  rcases Incoming.failsAfter_block idles swapped.1 (swapped.2 ++ rest) [swapped.2.length] with
    ⟨between, read, suffix, inTime⟩ | ⟨⟨error, incoming, read⟩, late⟩
  · rw [read]
    dsimp only
    rcases Incoming.failsAfter_block (idles.suffix suffix) swapped.2 rest [] with
      ⟨polls', read', suffix', inTime'⟩ | ⟨⟨error, incoming, read'⟩, late⟩
    · have none_left : Incoming.failsAfter ⟨rest, polls'⟩ [] = none := rfl
      rw [inTime, inTime', eq_true none_left, read']
      dsimp only
      rw [back, opened]
      dsimp only
      rw [if_neg (fun differs => differs rfl)]
      exact Opened.opened (suffix'.trans suffix)
    · rw [inTime, eq_false late, read']
      exact Opened.late
  · rw [eq_false late, read]
    exact Opened.late

theorem recordSizes_sealRecord (opens : primitives.aes128Gcm.Opens) (direction : Direction)
    (record : Record) (rest : List Byte) :
    recordSizes primitives direction
        ((sealRecord primitives direction record.padding record.data).1 ++ rest) =
      [headerCipherLen, record.padding.length, record.data.length + aeadTagLen] := by
  simp only [recordSizes, sealRecord, List.append_assoc, List.take_left' (length_sealNext_header opens _ _ _),
    Direction.openNext_sealNext opens, decodeHeader_encodeHeader record.narrow record.short]

theorem opened_record (opens : primitives.aes128Gcm.Opens) (stream : SnellStream)
    {direction : Direction} (known : stream.read = some direction) (record : Record)
    (rest : List Byte) {polls : List Poll} (idles : Idles polls)
    (wire : stream.inner =
      ⟨(sealRecord primitives direction record.padding record.data).1 ++ rest, polls⟩) :
    Opened (fun polls' => { stream with
        inner := ⟨rest, polls'⟩
        read := some (sealRecord primitives direction record.padding record.data).2
        decode := record.data
        decodePos := 0 }) polls true
      (stream.readRecord primitives)
      (stream.inner.failsAfter (stream.sizes primitives) = none) := by
  have sizes_eq : stream.sizes primitives =
      [headerCipherLen, record.padding.length, record.data.length + aeadTagLen] := by
    rw [sizes, known, wire]
    exact recordSizes_sealRecord opens direction record rest
  have salt : stream.readSalt primitives = (.ok (some direction), stream) := by
    rw [readSalt, known]
  have header_length := length_sealNext_header opens direction record.padding.length
    record.data.length
  have opened := Direction.openNext_sealNext opens direction
    (encodeHeader record.padding.length record.data.length)
  rw [sizes_eq, readRecord, salt]
  dsimp only
  rw [wire]
  dsimp only [sealRecord]
  generalize direction.sealNext primitives
    (encodeHeader record.padding.length record.data.length) = header at *
  rw [List.append_assoc, List.append_assoc, ← header_length]
  rcases Incoming.failsAfter_block idles header.1
    ((swapEven record.padding (header.2.sealNext primitives record.data).1).1 ++
      ((swapEven record.padding (header.2.sealNext primitives record.data).1).2 ++ rest))
    [record.padding.length, record.data.length + aeadTagLen] with
    ⟨between, read, suffix, inTime⟩ | ⟨⟨error, incoming, read⟩, late⟩
  · rw [read]
    dsimp only
    rw [opened]
    dsimp only
    rw [decodeHeader_encodeHeader record.narrow record.short]
    dsimp only
    have payload := opened_payload opens { stream with
        inner := ⟨(swapEven record.padding (header.2.sealNext primitives record.data).1).1 ++
          ((swapEven record.padding (header.2.sealNext primitives record.data).1).2 ++ rest), between⟩
        read := some header.2 } header.2 record.padding record.data rest (idles.suffix suffix) rfl
    rw [inTime]
    exact Opened.record suffix payload
  · rw [eq_false late, read]
    exact Opened.late

/-- `read_or_eof` and `read_exact` take the same bytes, and differ at the end of the
transport only. -/
theorem readOrEof_cases {wire : List Byte} {polls : List Poll} (idles : Idles polls) {want : Nat}
    (some : 0 < want) :
    (∃ polls', readOrEof ⟨wire, polls⟩ want =
        (.ok (Option.some (wire.take want)), ⟨wire.drop want, polls'⟩) ∧
      Incoming.readExact ⟨wire, polls⟩ want = (.ok (wire.take want), ⟨wire.drop want, polls'⟩) ∧
      want ≤ wire.length ∧ polls' <:+ polls) ∨
    (∃ polls', readOrEof ⟨wire, polls⟩ want =
        (if wire = [] then .ok none
          else .error ⟨.unexpectedEof, "stream ended inside a Snell record"⟩, ⟨[], polls'⟩) ∧
      Incoming.readExact ⟨wire, polls⟩ want =
        (.error ⟨.unexpectedEof, "failed to fill whole buffer"⟩, ⟨[], polls'⟩) ∧
      wire.length < want ∧ polls' <:+ polls) ∨
    ∃ error incoming, readOrEof ⟨wire, polls⟩ want = (.error error, incoming) ∧
      Incoming.readExact ⟨wire, polls⟩ want = (.error error, incoming) ∧
      error.kind ≠ .unexpectedEof ∧ Poll.fails error ∈ polls := by
  have same : Incoming.fill (fun _ => false) want ⟨wire, polls⟩ want =
      Incoming.fill (· = .interrupted) want ⟨wire, polls⟩ want := by
    apply Incoming.fillFrom_congr
    intro error member
    have idle := idles error member
    cases kind : error.kind with
    | interrupted =>
        rw [kind] at idle
        cases idle
    | _ => rfl
  rw [readOrEof, same, Incoming.readExact]
  rcases Incoming.fill_cases some ⟨wire, polls⟩ want with
    ⟨polls', filled, enough, suffix⟩ | ⟨polls', ended, less, suffix⟩ |
    ⟨count, error, polls', failed, _, _, _, suffix⟩
  · rw [filled]
    exact Or.inl ⟨polls', rfl, rfl, enough, suffix⟩
  · rw [ended]
    refine Or.inr (Or.inl ⟨polls', ?_, rfl, less, suffix⟩)
    dsimp only
    split
    · rfl
    · rfl
  · rw [failed]
    refine Or.inr (Or.inr ⟨error, _, rfl, rfl, ?_, suffix.subset List.mem_cons_self⟩)
    intro kind
    have idle := idles error (suffix.subset List.mem_cons_self)
    rw [kind] at idle
    cases idle

/-- A writer with the reader's direction. -/
structure Faces (reader writer : SnellStream) : Prop where
  psk : writer.psk = reader.psk
  direction : writer.write = reader.read

/-- The salt in front of the first record is read, and only there. -/
theorem readSalt_opening {reader writer : SnellStream} (faces : Faces reader writer)
    (salted : draw.salt.length = saltLen) {rest : List Byte} (steady : Steady polls)
    (wire : reader.inner = ⟨(writer.opening primitives draw).1 ++ rest, polls⟩) :
    ∃ polls', reader.readSalt primitives =
      (.ok (some (writer.opening primitives draw).2), { reader with
        inner := ⟨rest, polls'⟩
        read := some (writer.opening primitives draw).2 }) ∧ Steady polls' := by
  rw [readSalt]
  cases known : writer.write with
  | some direction =>
      have same := faces.direction.symm.trans known
      rw [opening, known, List.nil_append] at wire
      rw [opening, known]
      rcases reader with ⟨inner, read, write, psk, decode, decodePos⟩
      cases same
      cases wire
      exact ⟨polls, rfl, steady⟩
  | none =>
      have same := faces.direction.symm.trans known
      rw [opening, known] at wire
      rcases @readOrEof_cases (draw.salt ++ rest) polls steady.idles saltLen (by decide) with
        ⟨polls', read, _, _, suffix⟩ | ⟨_, _, _, less, _⟩ | ⟨error, _, _, _, _, member⟩
      · rw [List.take_left' salted, List.drop_left' salted] at read
        rw [opening, known, same, wire]
        dsimp only
        rw [read, faces.psk]
        exact ⟨polls', rfl, steady.suffix suffix⟩
      · rw [List.length_append, salted] at less
        omega
      · exact absurd member (steady error)

theorem readRecord_record (opens : primitives.aes128Gcm.Opens) {reader writer : SnellStream}
    (faces : Faces reader writer) (salted : draw.salt.length = saltLen)
    (small : draw.padding.length < 2 ^ 16) (rest : List Byte) (steady : Steady polls)
    (wire : reader.inner = ⟨(writer.opening primitives draw).1 ++
      ((writer.record primitives draw).1 ++ rest), polls⟩) :
    ∃ polls', reader.readRecord primitives = (.ok true, { reader with
        inner := ⟨rest, polls'⟩
        read := some (writer.record primitives draw).2
        decode := draw.taken
        decodePos := 0 }) ∧ Steady polls' := by
  rcases readSalt_opening faces salted steady wire with ⟨between, salt_eq, steady'⟩
  have behind : reader.readRecord primitives = readRecord primitives { reader with
      inner := ⟨(writer.record primitives draw).1 ++ rest, between⟩
      read := some (writer.opening primitives draw).2 } := by
    rw [readRecord, salt_eq]
    rfl
  have opened := opened_record opens { reader with
      inner := ⟨(writer.record primitives draw).1 ++ rest, between⟩
      read := some (writer.opening primitives draw).2 } rfl
    ⟨draw.padding, draw.taken, small, List.length_take_le _ _⟩ rest steady'.idles rfl
  rw [behind]
  generalize inTime : (_ = none) = timely at opened
  generalize readRecord primitives _ = result at opened ⊢
  cases opened with
  | opened suffix => exact ⟨_, rfl, steady'.suffix suffix⟩
  | late => exact (inTime.mp (Incoming.failsAfter_of_steady steady' _)).elim

/-- Behind the records there is none, whatever the reader says. -/
theorem readRecord_nil {reader : SnellStream} (steady : Steady polls)
    (wire : reader.inner = ⟨[], polls⟩) :
    ∃ polls', Steady polls' ∧
      (reader.readRecord primitives = (.ok false, { reader with inner := ⟨[], polls'⟩ }) ∨
        ∃ error, reader.readRecord primitives =
          (.error error, { reader with inner := ⟨[], polls'⟩ })) := by
  rw [readRecord, readSalt]
  rcases reader with ⟨inner, _ | direction, write, psk, decode, decodePos⟩
  · rcases @readOrEof_cases [] polls steady.idles saltLen (by decide) with
      ⟨_, _, _, enough, _⟩ | ⟨polls', ended, _, _, suffix⟩ | ⟨error, _, _, _, _, member⟩
    · exact absurd enough (Nat.not_le_of_lt (by decide : 0 < saltLen))
    · dsimp only at wire ⊢
      rw [wire, ended]
      exact ⟨polls', steady.suffix suffix, Or.inl rfl⟩
    · exact absurd member (steady error)
  · rcases Incoming.readExact_nil steady (by decide : 0 < headerCipherLen) with
      ⟨polls', ended, steady'⟩
    dsimp only at wire ⊢
    rw [wire, ended]
    exact ⟨polls', steady', Or.inr ⟨_, rfl⟩⟩

section Sessions

variable (primitives) (psk : List Byte)

/-- The writer behind some of its calls. -/
def writer (done : List Draw) : SnellStream :=
  (writes primitives (new ⟨[], []⟩ psk) done).stream

/-- The reader has the direction of the writer behind the first calls; what the
later ones wrote is on the wire, and the text is what is buffered and what they
took. -/
structure Between (done later : List Draw) (reader : SnellStream) (text : List Byte) : Prop where
  faces : Faces reader (writer primitives psk done)
  wire : reader.inner.wire = (writes primitives (writer primitives psk done) later).wire
  steady : Steady reader.inner.polls
  text : text = reader.decode.drop reader.decodePos ++
    (writes primitives (writer primitives psk done) later).text

/-- The text that is ahead of a reader of these calls. -/
def Ahead (draws : List Draw) (reader : SnellStream) (text : List Byte) : Prop :=
  ∃ done later, draws = done ++ later ∧ Between primitives psk done later reader text

end Sessions

/-- What a draw has to be: a salt, and padding whose length can be said. -/
structure Draw.Sized (draw : Draw) : Prop where
  salt : draw.salt.length = saltLen
  padding : draw.padding.length < 2 ^ 16

variable {psk text : List Byte} {draws done later : List Draw} {reader : SnellStream}

theorem Between.skip (between : Between primitives psk done later reader text) :
    ∃ done' later', done ++ later = done' ++ later' ∧
      Between primitives psk done' later' reader text ∧
      (later' = [] ∨ ∃ draw rest, later' = draw :: rest ∧ draw.buf ≠ []) := by
  induction later generalizing done with
  | nil => exact ⟨done, [], rfl, between, Or.inl rfl⟩
  | cons draw later ih =>
      by_cases empty : draw.buf = []
      · have same : writer primitives psk (done ++ [draw]) = writer primitives psk done := by
          rw [writer, writes_append, writes_cons_of_empty empty]
          rfl
        have skipped : Between primitives psk (done ++ [draw]) later reader text := by
          have wire := between.wire
          have text := between.text
          rw [writes_cons_of_empty empty] at wire text
          exact ⟨same ▸ between.faces, same ▸ wire, between.steady, same ▸ text⟩
        rcases ih skipped with ⟨done', later', split, rest⟩
        exact ⟨done', later', by rw [← split, List.append_assoc]; rfl, rest⟩
      · exact ⟨done, draw :: later, rfl, between, Or.inr ⟨draw, later, rfl, empty⟩⟩

theorem Between.readRecord (opens : primitives.aes128Gcm.Opens)
    (between : Between primitives psk done (draw :: later) reader text) (some : draw.buf ≠ [])
    (sized : draw.Sized) (empty : reader.decode.drop reader.decodePos = []) :
    ∃ reader', reader.readRecord primitives = (.ok true, reader') ∧
      Between primitives psk (done ++ [draw]) later reader' text ∧
      reader'.inner.wire.length < reader.inner.wire.length := by
  have wire := between.wire
  have text_eq := between.text
  rw [writes_cons_of_ne_nil some] at wire text_eq
  dsimp only at wire text_eq
  rw [empty, List.nil_append] at text_eq
  rw [List.append_assoc] at wire
  have writer_eq : writer primitives psk (done ++ [draw]) =
      { writer primitives psk done with
        write := Option.some ((writer primitives psk done).record primitives draw).2 } := by
    rw [writer, writes_append, writes_cons_of_ne_nil some]
    rfl
  have longer : 0 < ((writer primitives psk done).record primitives draw).1.length :=
    length_sealRecord_pos opens _ _ _
  rcases readRecord_record opens between.faces sized.salt sized.padding
    (writes primitives (writer primitives psk (done ++ [draw])) later).wire between.steady (by
      rw [writer_eq, ← wire]) with ⟨polls, read, steady⟩
  refine ⟨_, read, ⟨⟨?_, ?_⟩, rfl, steady, ?_⟩, ?_⟩
  · rw [writer_eq]
    exact between.faces.psk
  · rw [writer_eq]
  · rw [writer_eq]
    exact text_eq
  · rw [wire, writer_eq, List.length_append, List.length_append]
    dsimp only
    omega

theorem turn_supplies (opens : primitives.aes128Gcm.Opens) (sized : ∀ draw ∈ draws, draw.Sized)
    {room : Nat} (positive : 0 < room) (ahead : Ahead primitives psk draws reader text) :
    (reader.turn primitives room).Meets (fun next => Ahead primitives psk draws next text)
      (fun next => next.inner.wire.length) (Supply (Ahead primitives psk draws) text room)
      reader.inner.wire.length := by
  rcases ahead with ⟨done, later, split, between⟩
  rw [turn]
  by_cases none : reader.buffered = 0
  · rw [if_pos none]
    have empty : reader.decode.drop reader.decodePos = [] :=
      List.drop_eq_nil_of_le (Nat.le_of_sub_eq_zero none)
    rcases between.skip with ⟨done', later', same, between', rfl | ⟨draw, rest, rfl, some⟩⟩
    · have wire : reader.inner = ⟨[], reader.inner.polls⟩ := by
        have wire_eq : reader.inner.wire = [] := between'.wire
        rw [← wire_eq]
      have text_eq : text = [] := by
        rw [between'.text, empty]
        rfl
      rcases readRecord_nil between'.steady wire with ⟨polls', steady, ended⟩
      have behind : Ahead primitives psk draws { reader with inner := ⟨[], polls'⟩ } text :=
        ⟨done', [], split.trans same, ⟨between'.faces.psk, between'.faces.direction⟩, rfl, steady,
          between'.text⟩
      rcases ended with ended | ⟨error, ended⟩
      · rw [ended]
        exact @Supply.gives _ _ _ _ [] text _ rfl (Nat.zero_le _) (fun _ => Or.inr text_eq) behind
      · rw [ended]
        exact Supply.fails text_eq behind
    · have sized' := sized draw (by rw [split, same]; simp)
      rcases between'.readRecord opens some sized' empty with ⟨reader', read, next, shorter⟩
      rw [read]
      exact ⟨⟨done' ++ [draw], rest, by rw [split, same]; simp, next⟩, shorter⟩
  · rw [if_neg none]
    have length : (slice reader.decode reader.decodePos (min reader.buffered room)).length =
        min reader.buffered room := by
      rw [slice, List.length_take, List.length_drop, ← buffered]
      exact Nat.min_eq_left (Nat.min_le_left _ _)
    refine Supply.gives ?_ (Nat.le_trans (Nat.le_of_eq length) (Nat.min_le_right _ _))
      (fun nothing => ?_)
      ⟨done, later, split, ⟨between.faces.psk, between.faces.direction⟩, between.wire,
        between.steady, rfl⟩
    · rw [between.text, slice, ← List.append_assoc, ← List.drop_drop, List.take_append_drop]
    · rw [nothing, List.length_nil] at length
      omega

/-- Every read supplies what is ahead. -/
theorem readInto_supplies (opens : primitives.aes128Gcm.Opens)
    (sized : ∀ draw ∈ draws, draw.Sized) (reader : SnellStream) (text : List Byte) (room : Nat)
    (ahead : Ahead primitives psk draws reader text) :
    ∃ answer reader', reader.readInto primitives room = some (answer, reader') ∧
      Supply (Ahead primitives psk draws) text room answer reader' := by
  rw [readInto]
  by_cases zero : room = 0
  · rw [if_pos zero]
    exact ⟨_, reader, rfl, @Supply.gives _ _ _ _ [] text _ rfl (Nat.zero_le _)
      (fun _ => Or.inl zero) ahead⟩
  · rw [if_neg zero]
    exact loop_returns (fun next => Ahead primitives psk draws next text)
      (fun next => next.inner.wire.length) (Supply (Ahead primitives psk draws) text room)
      (fun next holds => turn_supplies opens sized (Nat.pos_of_ne_zero zero) holds) ahead
      (Nat.lt_succ_self _)

/-- A reader gives the bytes that the writer took, in order and all of them, with
the writer's direction behind the records that it has opened; the header codec
and the exchange of bytes undo themselves. -/
theorem readInto_supplies_writes (opens : primitives.aes128Gcm.Opens) (psk : List Byte)
    {draws : List Draw} (sized : ∀ draw ∈ draws, draw.Sized) {polls : List Poll}
    (steady : Steady polls) (rooms : List Nat) :
    let written := writes primitives (new ⟨[], []⟩ psk) draws
    (∃ answers reader, session (readInto primitives) (new ⟨written.wire, polls⟩ psk) rooms =
        some (answers, reader) ∧
      Supplies rooms answers written.text ∧
      (written.text.length ≤ (rooms.filter (0 < ·)).length → received answers = written.text) ∧
      ∃ done, done <+: draws ∧ reader.read = (writer primitives psk done).write ∧
        received answers ++ reader.decode.drop reader.decodePos =
          (writes primitives (new ⟨[], []⟩ psk) done).text) ∧
    (∀ paddingLen payloadLen, paddingLen < 2 ^ 16 → payloadLen ≤ maxPayloadLen →
      decodeHeader (encodeHeader paddingLen payloadLen) = .ok (paddingLen, payloadLen)) ∧
    (∀ plain paddingLen payloadLen, decodeHeader plain = .ok (paddingLen, payloadLen) →
      encodeHeader paddingLen payloadLen = plain) ∧
    ∀ padding cipher,
      swapEven (swapEven padding cipher).1 (swapEven padding cipher).2 = (padding, cipher) ∧
      ∀ index, (swapEven padding cipher).1[index]? =
          (if index % 2 = 0 ∧ index < min padding.length cipher.length then cipher[index]?
            else padding[index]?) ∧
        (swapEven padding cipher).2[index]? =
          (if index % 2 = 0 ∧ index < min padding.length cipher.length then padding[index]?
            else cipher[index]?) := by
  refine ⟨?_, fun _ _ => decodeHeader_encodeHeader, fun _ _ _ => encodeHeader_of_decodeHeader,
    fun padding cipher => ⟨swapEven_swapEven padding cipher, getElem?_swapEven padding cipher⟩⟩
  have ahead : Ahead primitives psk draws
      (new ⟨(writes primitives (new ⟨[], []⟩ psk) draws).wire, polls⟩ psk)
      (writes primitives (new ⟨[], []⟩ psk) draws).text :=
    ⟨[], draws, rfl, ⟨rfl, rfl⟩, rfl, steady, rfl⟩
  rcases supplies (readInto_supplies opens sized) ahead rooms with
    ⟨answers, reader, rest, done, supplied, received_eq, ⟨first, later, split, between⟩, all⟩
  refine ⟨answers, reader, done, supplied, ?_, first, ?_, between.faces.direction.symm, ?_⟩
  · intro enough
    rw [received_eq, all enough, List.append_nil]
  · rw [split]
    exact List.prefix_append _ _
  · have whole := received_eq
    rw [between.text, split, writes_append, ← List.append_assoc] at whole
    exact (List.append_cancel_right whole).symm

/-- Functions for examples. -/
def exampleFunctions : Primitives where
  aes128Gcm := Aead.tagging
  argon2id psk salt := psk ++ salt ++ List.replicate 32 0

/-- Two writes with padding of odd lengths, read byte by byte. -/
theorem readInto_supplies_writes_bytes :
    ∃ answers reader,
      session (readInto exampleFunctions)
        (new ⟨(writes exampleFunctions (new ⟨[], []⟩ [5])
          [⟨[1, 2], List.replicate 16 9, [7, 7, 7]⟩, ⟨[3], List.replicate 16 8, []⟩]).wire,
          [.gives 3, .gives 0]⟩ [5]) [1, 1, 1] = some (answers, reader) ∧
      received answers = [1, 2, 3] := by
  have sized : ∀ draw ∈ [(⟨[1, 2], List.replicate 16 9, [7, 7, 7]⟩ : Draw),
      ⟨[3], List.replicate 16 8, []⟩], draw.Sized := by
    intro draw member
    rcases List.mem_cons.mp member with rfl | later
    · exact ⟨rfl, by decide⟩
    · rw [List.mem_singleton.mp later]
      exact ⟨rfl, by decide⟩
  have steady : Steady [.gives 3, .gives 0] := fun error member => by simp at member
  have round := @readInto_supplies_writes exampleFunctions Aead.opens_tagging [5] _ sized _ steady
    [1, 1, 1]
  rcases round.1 with ⟨answers, reader, done, _, all, _⟩
  exact ⟨answers, reader, done, all (by decide)⟩

end SnellStream

end Corduit.Engine.Outbound.Snell
