import Corduit.Engine.Outbound.Snell.RoundTrip

/-!
# Snell streams over a transport that runs out of time

Whatever stops a record is told as an error of the kind `other`: a read that ran
out of time, and the end of the transport behind the first record.  So a reader
survives as long as every record that it begins is there when it reads, and the
only end that it reports is the one in front of the salt.
-/

namespace Corduit.Engine.Outbound.Snell

open Crypto Transition Transport Word

variable {primitives : Primitives}

/-- The records one after the other, from a direction on. -/
def recordsFrom (primitives : Primitives) : Direction → List Record → List Byte
  | _, [] => []
  | direction, record :: records =>
      let sealed := SnellStream.sealRecord primitives direction record.padding record.data
      sealed.1 ++ recordsFrom primitives sealed.2 records

/-- The direction behind some records. -/
def directionBehind (primitives : Primitives) : Direction → List Record → Direction
  | direction, [] => direction
  | direction, record :: records =>
      directionBehind primitives
        (SnellStream.sealRecord primitives direction record.padding record.data).2 records

theorem directionBehind_snoc (direction : Direction) (records : List Record) (record : Record) :
    directionBehind primitives direction (records ++ [record]) =
      (SnellStream.sealRecord primitives (directionBehind primitives direction records)
        record.padding record.data).2 := by
  induction records generalizing direction with
  | nil => rfl
  | cons first records ih => exact ih _

/-- What a peer sends: a salt in front of its first record. -/
structure Peer where
  psk : List Byte
  salt : List Byte
  records : List Record
  salted : salt.length = saltLen

namespace Peer

/-- The text of some records. -/
def textOf (records : List Record) : List Byte :=
  records.flatMap Record.data

/-- The text of the records. -/
def text (peer : Peer) : List Byte :=
  textOf peer.records

variable (primitives) (peer : Peer)

/-- The direction that the salt gives. -/
def direction : Direction :=
  Direction.new (deriveKey primitives peer.psk peer.salt)

/-- The whole stream; a peer without records closes the connection. -/
def wire : List Byte :=
  if peer.records = [] then [] else
    peer.salt ++ recordsFrom primitives (peer.direction primitives) peer.records

end Peer

namespace SnellStream

section Errors

variable {stream next : SnellStream} {error : IoError}

theorem kind_of_openNext {direction : Direction} {ciphertext : List Byte}
    (failed : direction.openNext primitives ciphertext = .error error) : error.kind = .other := by
  unfold Direction.openNext at failed
  split at failed
  · cases failed
  · cases failed
    rfl

theorem kind_of_decodeHeader {plain : List Byte} (failed : decodeHeader plain = .error error) :
    error.kind = .other := by
  simp only [decodeHeader] at failed
  split at failed
  · cases failed
    rfl
  split at failed
  · cases failed
    rfl
  split at failed
  · cases failed
    rfl
  split at failed
  · cases failed
    rfl
  · cases failed

theorem kind_of_readSalt (failed : stream.readSalt primitives = (.error error, next)) :
    error.kind = .other := by
  unfold readSalt at failed
  split at failed
  · cases failed
  split at failed
  · cases failed
    rfl
  · cases failed
  · cases failed

theorem kind_of_readPayload {direction : Direction} {paddingLen payloadLen : Nat}
    (failed : stream.readPayload primitives direction paddingLen payloadLen = (.error error, next)) :
    error.kind = .other := by
  unfold readPayload at failed
  dsimp only at failed
  split at failed
  · cases failed
    rfl
  split at failed
  · cases failed
    rfl
  split at failed
  · rename_i closed
    cases failed
    exact kind_of_openNext closed
  split at failed
  · cases failed
    rfl
  · cases failed

/-- Whatever stops a record is told as an error of one kind. -/
theorem kind_of_readRecord (failed : stream.readRecord primitives = (.error error, next)) :
    error.kind = .other := by
  unfold readRecord at failed
  split at failed
  · rename_i salt
    cases failed
    exact kind_of_readSalt salt
  · cases failed
  split at failed
  · cases failed
    rfl
  split at failed
  · rename_i closed
    cases failed
    exact kind_of_openNext closed
  split at failed
  · rename_i header
    cases failed
    exact kind_of_decodeHeader header
  dsimp only at failed
  split at failed
  · rename_i payload
    cases failed
    exact kind_of_readPayload payload
  · cases failed

end Errors

/-- A turn that reads a record finds all of it in time, and does not come to the end of the
transport behind a record. -/
def Punctual (primitives : Primitives) (stream : SnellStream) : Prop :=
  stream.buffered = 0 → stream.inner.failsAfter (stream.sizes primitives) = none ∧
    (stream.inner.wire = [] → stream.read = none)

/-- The reader is at some place of the peer's stream: in front of the salt, or behind some
records with the direction that they leave. -/
inductive Place (primitives : Primitives) (peer : Peer) (stream : SnellStream) :
    (later : List Record) → Prop
  | salt (fresh : stream.read = none) (wire : stream.inner.wire = peer.wire primitives) :
      Place primitives peer stream peer.records
  | record {done later : List Record} (split : peer.records = done ++ later)
      (read : stream.read = some (directionBehind primitives (peer.direction primitives) done))
      (wire : stream.inner.wire =
        recordsFrom primitives (directionBehind primitives (peer.direction primitives) done) later) :
      Place primitives peer stream later

/-- No byte that was taken off the transport is lost, and the nonce is that of the next record. -/
def InStep (primitives : Primitives) (peer : Peer) (stream : SnellStream) : Prop :=
  ∃ later, Place primitives peer stream later

/-- A reader of the peer's stream with this text ahead of it. -/
structure Ready (primitives : Primitives) (peer : Peer) (stream : SnellStream)
    (text : List Byte) : Prop where
  idles : Idles stream.inner.polls
  psk : stream.psk = peer.psk
  place : ∃ later, Place primitives peer stream later ∧
    text = stream.decode.drop stream.decodePos ++ Peer.textOf later

theorem Ready.inStep {peer : Peer} {stream : SnellStream} {text : List Byte}
    (ready : Ready primitives peer stream text) : InStep primitives peer stream := by
  rcases ready.place with ⟨later, place, _⟩
  exact ⟨later, place⟩

/-- What became of reading a record: there is none and there never was, there is one, or it
failed. -/
inductive Outcome (primitives : Primitives) (peer : Peer) (stream : SnellStream)
    (text : List Byte) : Except IoError Bool × SnellStream → (punctual : Prop) → Prop
  | ended {next : SnellStream} (none : text = []) (ready : Ready primitives peer next text)
      (spent : next.inner.wire = []) : Outcome primitives peer stream text (.ok false, next) True
  | opened {next : SnellStream} (ready : Ready primitives peer next text)
      (shorter : next.inner.wire.length < stream.inner.wire.length) :
      Outcome primitives peer stream text (.ok true, next) True
  | failed {error : IoError} {next : SnellStream} :
      Outcome primitives peer stream text (.error error, next) False

section Outcomes

variable {peer : Peer} {stream : SnellStream} {text : List Byte}

theorem Outcome.transfer {before : SnellStream} {result : Except IoError Bool × SnellStream}
    {punctual punctual' : Prop} (outcome : Outcome primitives peer stream text result punctual)
    (same : punctual ↔ punctual')
    (longer : stream.inner.wire.length ≤ before.inner.wire.length) :
    Outcome primitives peer before text result punctual' := by
  obtain rfl := propext same
  cases outcome with
  | ended none ready spent => exact Outcome.ended none ready spent
  | opened ready shorter => exact Outcome.opened ready (shorter.trans_le longer)
  | failed => exact Outcome.failed

section

variable (opens : primitives.aes128Gcm.Opens) (idles : Idles stream.inner.polls)
  (psk : stream.psk = peer.psk)

include opens idles psk

theorem outcome_record {done later : List Record} (split : peer.records = done ++ later)
    (read : stream.read = some (directionBehind primitives (peer.direction primitives) done))
    (wire : stream.inner.wire =
      recordsFrom primitives (directionBehind primitives (peer.direction primitives) done) later)
    (text_eq : text = Peer.textOf later) :
    Outcome primitives peer stream text (stream.readRecord primitives)
      (stream.inner.failsAfter (stream.sizes primitives) = none ∧
        (stream.inner.wire = [] → stream.read = none)) := by
  cases later with
  | nil =>
      -- The transport has nothing left, and the header is not there.
      have spent : ¬ (stream.inner.failsAfter (stream.sizes primitives) = none ∧
          (stream.inner.wire = [] → stream.read = none)) := by
        rintro ⟨_, fresh⟩
        rw [fresh wire] at read
        cases read
      have salt : stream.readSalt primitives =
          (.ok (some (directionBehind primitives (peer.direction primitives) done)), stream) := by
        rw [readSalt, read]
      have empty : stream.inner.wire = [] := wire
      have inner : stream.inner = ⟨[], stream.inner.polls⟩ := by
        rw [← empty]
      rw [eq_false spent, readRecord, salt]
      dsimp only
      rw [inner]
      rcases Incoming.readExact_cases ⟨[], stream.inner.polls⟩ (by decide : 0 < headerCipherLen) with
        ⟨_, _, enough, _⟩ | ⟨_, ended, _, _⟩ | ⟨_, error, _, failed, _⟩
      · exact absurd enough (Nat.not_le_of_lt (by decide : 0 < headerCipherLen))
      · rw [ended]
        exact Outcome.failed
      · rw [failed]
        exact Outcome.failed
  | cons record later =>
      have positive := length_sealRecord_pos opens
        (directionBehind primitives (peer.direction primitives) done) record.padding record.data
      rw [recordsFrom] at wire
      have some_ : stream.inner.wire ≠ [] := by
        rw [wire]
        exact List.append_ne_nil_of_left_ne_nil (List.ne_nil_of_length_pos positive) _
      have same : (stream.inner.failsAfter (stream.sizes primitives) = none ∧
          (stream.inner.wire = [] → stream.read = none)) =
            (stream.inner.failsAfter (stream.sizes primitives) = none) := by
        simp [some_]
      have opened := opened_record opens stream read record _ idles (by rw [← wire])
      rw [same]
      generalize timely : (stream.inner.failsAfter (stream.sizes primitives) = none) = inTime at opened
      generalize stream.readRecord primitives = result at opened
      cases opened with
      | opened suffix =>
          refine Outcome.opened ⟨idles.suffix suffix, psk, later, ?_, text_eq⟩ ?_
          · have split' : peer.records = (done ++ [record]) ++ later := by
              rw [split, List.append_assoc]
              rfl
            apply Place.record split'
            · rw [directionBehind_snoc]
            · rw [directionBehind_snoc]
          · dsimp only
            rw [wire, List.length_append]
            omega
      | late => exact Outcome.failed

theorem outcome_salt (fresh : stream.read = none) (wire : stream.inner.wire = peer.wire primitives)
    (nothing : stream.decode.drop stream.decodePos = []) :
    Outcome primitives peer stream peer.text (stream.readRecord primitives)
      (stream.inner.failsAfter (stream.sizes primitives) = none ∧
        (stream.inner.wire = [] → stream.read = none)) := by
  have same : (stream.inner.failsAfter (stream.sizes primitives) = none ∧
      (stream.inner.wire = [] → stream.read = none)) =
        (stream.inner.failsAfter (stream.sizes primitives) = none) := by
    simp [fresh]
  rw [same]
  by_cases none_ : peer.records = []
  · -- The peer closes the connection without a record.
    have empty : stream.inner.wire = [] := by rw [wire, Peer.wire, if_pos none_]
    have inner : stream.inner = ⟨[], stream.inner.polls⟩ := by rw [← empty]
    have text_eq : peer.text = [] := by rw [Peer.text, none_]; rfl
    rw [sizes, fresh, readRecord, readSalt, fresh]
    dsimp only
    rw [inner]
    rcases @readOrEof_cases [] _ idles _ (by decide : 0 < saltLen) with
      ⟨_, _, _, enough, _⟩ | ⟨polls', ended, read, _, suffix⟩ |
      ⟨error, incoming, failed, read, loud, _⟩
    · exact absurd enough (Nat.not_le_of_lt (by decide : 0 < saltLen))
    · have timely : ∀ sizes, Incoming.failsAfter ⟨[], stream.inner.polls⟩ (saltLen :: sizes) = none := by
        intro sizes
        rw [Incoming.failsAfter, read]
        rfl
      rw [eq_true (timely _), ended, if_pos rfl]
      have place : Place primitives peer { stream with inner := ⟨[], polls'⟩, read := none }
          peer.records :=
        Place.salt rfl (empty.symm.trans wire)
      refine Outcome.ended text_eq ⟨idles.suffix suffix, psk, peer.records, place, ?_⟩ rfl
      dsimp only
      rw [nothing]
      rfl
    · rw [eq_false (Incoming.failsAfter_ne_none read loud _), failed]
      exact Outcome.failed
  · -- The salt is read, and the first record behind it.
    have split : stream.inner.wire = peer.salt ++
        recordsFrom primitives (peer.direction primitives) peer.records := by
      rw [wire, Peer.wire, if_neg none_]
    have inner : stream.inner = ⟨peer.salt ++
        recordsFrom primitives (peer.direction primitives) peer.records, stream.inner.polls⟩ := by
      rw [← split]
    have sizes_eq : stream.sizes primitives = saltLen :: recordSizes primitives
        (peer.direction primitives)
          (recordsFrom primitives (peer.direction primitives) peer.records) := by
      rw [sizes, fresh, split, List.take_left' peer.salted, List.drop_left' peer.salted, psk]
      rfl
    rcases @readOrEof_cases (peer.salt ++
      recordsFrom primitives (peer.direction primitives) peer.records) _ idles _
        (by decide : 0 < saltLen) with
      ⟨polls', salt, read, _, suffix⟩ | ⟨_, _, _, less, _⟩ |
      ⟨error, incoming, failed, read, loud, _⟩
    · rw [List.take_left' peer.salted, List.drop_left' peer.salted] at salt read
      have behind : stream.readRecord primitives = readRecord primitives { stream with
          inner := ⟨recordsFrom primitives (peer.direction primitives) peer.records, polls'⟩
          read := some (peer.direction primitives) } := by
        rw [readRecord, readSalt, fresh]
        dsimp only
        rw [inner, salt, psk]
        rfl
      have timely : (stream.inner.failsAfter (stream.sizes primitives) = none) =
          (Incoming.failsAfter
            ⟨recordsFrom primitives (peer.direction primitives) peer.records, polls'⟩
            (recordSizes primitives (peer.direction primitives)
              (recordsFrom primitives (peer.direction primitives) peer.records)) = none) := by
        rw [sizes_eq, inner, Incoming.failsAfter, read]
        exact propext Option.map_eq_none_iff
      have first := @outcome_record primitives peer { stream with
          inner := ⟨recordsFrom primitives (peer.direction primitives) peer.records, polls'⟩
          read := some (peer.direction primitives) } _ opens (idles.suffix suffix) psk [] peer.records
        rfl rfl rfl rfl
      have some_ : recordsFrom primitives (peer.direction primitives) peer.records ≠ [] := by
        rcases List.exists_cons_of_ne_nil none_ with ⟨record, later, cons⟩
        rw [cons, recordsFrom]
        exact List.append_ne_nil_of_left_ne_nil
          (List.ne_nil_of_length_pos (length_sealRecord_pos opens _ _ _)) _
      rw [behind, timely]
      refine first.transfer (and_iff_left fun spent => absurd spent some_) ?_
      rw [split, List.length_append]
      exact Nat.le_add_left _ _
    · rw [List.length_append, peer.salted] at less
      omega
    · rw [sizes_eq, readRecord, readSalt, fresh]
      dsimp only
      rw [inner, eq_false (Incoming.failsAfter_ne_none read loud _), failed]
      exact Outcome.failed

end

theorem outcome (opens : primitives.aes128Gcm.Opens) (ready : Ready primitives peer stream text)
    (empty : stream.buffered = 0) :
    Outcome primitives peer stream text (stream.readRecord primitives)
      (stream.inner.failsAfter (stream.sizes primitives) = none ∧
        (stream.inner.wire = [] → stream.read = none)) := by
  have nothing : stream.decode.drop stream.decodePos = [] :=
    List.drop_eq_nil_of_le (Nat.le_of_sub_eq_zero empty)
  rcases ready.place with ⟨later, place, text_eq⟩
  rw [nothing, List.nil_append] at text_eq
  cases place with
  | salt fresh wire =>
      subst text_eq
      exact outcome_salt opens ready.idles ready.psk fresh wire nothing
  | record split read wire =>
      exact outcome_record opens ready.idles ready.psk split read wire text_eq

end Outcomes

section Calls

variable {peer : Peer} {stream : SnellStream} {text : List Byte} {room : Nat}

/-- What the calls deliver by: a read that ran out of time is idle. -/
def terms (primitives : Primitives) (peer : Peer) : Terms SnellStream where
  idle error := error.kind.isReadIntervalElapsed = true
  ahead := Ready primitives peer
  effort _ := 0
  ended stream := stream.inner.wire = []

theorem turn_meets (opens : primitives.aes128Gcm.Opens) (positive : 0 < room)
    (ready : Ready primitives peer stream text) (punctual : stream.Punctual primitives) :
    (stream.turn primitives room).Meets (fun next => Ready primitives peer next text)
      (fun next => next.inner.wire.length) (Delivery (terms primitives peer) text room 0)
      stream.inner.wire.length := by
  rw [turn]
  by_cases empty : stream.buffered = 0
  · rw [if_pos empty]
    have outcome := outcome opens ready empty
    have inTime := punctual empty
    generalize stream.readRecord primitives = result at outcome
    generalize timely : (_ ∧ _) = punctual' at outcome
    cases outcome with
    | ended none ready' spent =>
        exact @Delivery.gives _ _ _ _ _ [] text _ rfl (Nat.zero_le _) (fun _ => Or.inr ⟨none, spent⟩)
          ready' (Nat.le_refl 0)
    | opened ready' shorter => exact ⟨ready', shorter⟩
    | failed => exact (timely.mp inTime).elim
  · rw [if_neg empty]
    rcases ready.place with ⟨later, place, text_eq⟩
    have length : (slice stream.decode stream.decodePos (min stream.buffered room)).length =
        min stream.buffered room := by
      rw [slice, List.length_take, List.length_drop, ← buffered]
      exact Nat.min_eq_left (Nat.min_le_left _ _)
    have place' : Place primitives peer { stream with
        decodePos := stream.decodePos + min stream.buffered room } later := by
      cases place with
      | salt fresh wire => exact Place.salt fresh wire
      | record split read wire => exact Place.record split read wire
    have split : text = slice stream.decode stream.decodePos (min stream.buffered room) ++
        (stream.decode.drop (stream.decodePos + min stream.buffered room) ++
          Peer.textOf later) := by
      rw [text_eq, slice, ← List.append_assoc, ← List.drop_drop, List.take_append_drop]
    apply Delivery.gives split
    · exact Nat.le_trans (Nat.le_of_eq length) (Nat.min_le_right _ _)
    · intro none
      rw [none, List.length_nil] at length
      omega
    · exact ⟨ready.idles, ready.psk, later, place', rfl⟩
    · exact Nat.le_refl 0

theorem turn_breaks (opens : primitives.aes128Gcm.Opens)
    (ready : Ready primitives peer stream text) (late : ¬ stream.Punctual primitives) :
    ∃ error next, stream.turn primitives room = .returns (.error error) next ∧
      error.kind = .other := by
  rw [Punctual, Classical.not_imp] at late
  rcases late with ⟨empty, late⟩
  have outcome := outcome opens ready empty
  generalize timely : (_ ∧ _) = punctual at outcome
  rw [turn, if_pos empty]
  cases read : stream.readRecord primitives with
  | mk result next =>
      rw [read] at outcome
      cases outcome with
      | ended _ _ _ => exact absurd (timely.mpr trivial) late
      | opened _ _ => exact absurd (timely.mpr trivial) late
      | @failed error _ => exact ⟨error, next, rfl, kind_of_readRecord read⟩

/-- A call finds every record in time that it begins, and an end of the transport only in front
of the salt. -/
def PunctualCall (primitives : Primitives) (stream : SnellStream) (room : Nat) : Prop :=
  0 < room → ∀ visit ∈ visits (turn primitives room) (stream.inner.wire.length + 1) stream,
    visit.Punctual primitives

/-- Every punctual call delivers. -/
theorem readInto_delivers (opens : primitives.aes128Gcm.Opens) (peer : Peer) :
    DeliversWhen (readInto primitives) (terms primitives peer) (PunctualCall primitives) := by
  intro stream text room ready punctual
  rw [readInto]
  by_cases zero : room = 0
  · rw [if_pos zero]
    exact ⟨_, stream, rfl, @Delivery.gives _ _ _ _ _ [] text _ rfl (Nat.zero_le _)
      (fun _ => Or.inl zero) ready (Nat.le_refl 0)⟩
  · rw [if_neg zero]
    have positive := Nat.pos_of_ne_zero zero
    exact loop_returns_of_visits (fun next => Ready primitives peer next text)
      (fun next => next.inner.wire.length) (Delivery (terms primitives peer) text room 0)
      (fun next ready' timely => turn_meets opens positive ready' timely) ready
      (Nat.lt_succ_self _) (punctual positive)

theorem readInto_breaks (opens : primitives.aes128Gcm.Opens)
    (ready : Ready primitives peer stream text) (late : ¬ PunctualCall primitives stream room) :
    ∃ error next, stream.readInto primitives room = some (.error error, next) ∧
      ¬ (terms primitives peer).idle error := by
  rw [PunctualCall, Classical.not_imp] at late
  rcases late with ⟨positive, late⟩
  push Not at late
  rw [readInto, if_neg (Nat.ne_of_gt positive)]
  rcases loop_returns_of_broken (fun next => ∃ text, Ready primitives peer next text)
    (fun (answer : Answer) _ => ∃ error, answer = .error error ∧ error.kind = .other)
    (by
      rintro next next' ⟨text, ready'⟩ timely took
      have meets := turn_meets opens positive ready' timely
      rw [took] at meets
      exact ⟨text, meets.1⟩)
    (by
      rintro next ⟨text, ready'⟩ late'
      rcases turn_breaks opens ready' late' with ⟨error, last, took, kind⟩
      exact ⟨_, last, took, error, rfl, kind⟩)
    ⟨text, ready⟩ late with ⟨answer, next, looped, error, rfl, kind⟩
  refine ⟨error, next, looped, ?_⟩
  intro idle
  change error.kind.isReadIntervalElapsed = true at idle
  rw [kind] at idle
  cases idle

end Calls

/-- The reader survives a session: it is in step throughout, its answers are the text and idle
polls, and with enough calls they are all of it and the end. -/
structure Survives (primitives : Primitives) (peer : Peer) (stream : SnellStream)
    (rooms : List Nat) : Prop where
  inStep : RunAlways (afterRead (readInto primitives)) (InStep primitives peer) stream rooms
  answers : ∃ answers stream', session (readInto primitives) stream rooms =
      some (answers, stream') ∧
    Spells (fun error => error.kind.isReadIntervalElapsed = true) rooms answers peer.text ∧
    (peer.text.length + stream.inner.polls.length < (rooms.filter (0 < ·)).length →
      Ends rooms answers ∧ received answers = peer.text)

theorem ready_new (peer : Peer) {polls : List Poll} (idles : Idles polls) :
    Ready primitives peer (new ⟨peer.wire primitives, polls⟩ peer.psk) peer.text :=
  ⟨idles, rfl, peer.records, Place.salt rfl rfl, rfl⟩

/-- A reader survives a session over a transport that runs out of time exactly if each of its
calls is punctual. -/
theorem survives_polls_iff (opens : primitives.aes128Gcm.Opens) (peer : Peer) {polls : List Poll}
    (idles : Idles polls) (rooms : List Nat) :
    Survives primitives peer (new ⟨peer.wire primitives, polls⟩ peer.psk) rooms ↔
      RunMeets (afterRead (readInto primitives)) (PunctualCall primitives)
        (new ⟨peer.wire primitives, polls⟩ peer.psk) rooms := by
  have ready := @ready_new primitives peer polls idles
  have delivers := readInto_delivers opens peer
  have spells : (∃ answers last, session (readInto primitives)
      (new ⟨peer.wire primitives, polls⟩ peer.psk) rooms = some (answers, last) ∧
        Spells (terms primitives peer).idle rooms answers peer.text) ↔
      RunMeets (afterRead (readInto primitives)) (PunctualCall primitives)
        (new ⟨peer.wire primitives, polls⟩ peer.psk) rooms :=
    delivers.spells_iff (fun _ _ _ ready' late => readInto_breaks opens ready' late) ready
  constructor
  · intro survives
    rcases survives.answers with ⟨answers, last, done, spelled, _⟩
    exact spells.mp ⟨answers, last, done, spelled⟩
  · intro punctual
    constructor
    · apply runAlways_of_invariant (fun stream => ∃ text, Ready primitives peer stream text)
        (fun _ ⟨_, ready'⟩ => ready'.inStep) _ ⟨_, ready⟩ punctual
      rintro stream room ⟨text, ready'⟩ timely
      rcases delivers stream text room ready' timely with ⟨_, next, answered, delivery⟩
      rw [afterRead, answered]
      cases delivery with
      | gives _ _ _ later _ => exact ⟨_, later⟩
      | idles _ later _ => exact ⟨_, later⟩
    · rcases spells.mpr punctual with ⟨answers, last, done, spelled⟩
      refine ⟨answers, last, done, spelled, ?_⟩
      intro enough
      apply delivers.ends ready punctual done
      exact (Nat.le_add_right _ _).trans_lt enough

/-- A peer that sends one byte. -/
def examplePeer : Peer where
  psk := [5]
  salt := List.replicate 16 9
  records := [⟨[7], [1], by decide, by decide⟩]
  salted := rfl

/-- A reader of that byte. -/
def exampleReader (polls : List Poll) : SnellStream :=
  new ⟨examplePeer.wire exampleFunctions, polls⟩ examplePeer.psk

/-- The transport pauses inside of the salt. -/
theorem survives_polls_iff_salt :
    Survives exampleFunctions examplePeer (exampleReader [.gives 3, .fails ⟨.wouldBlock, ""⟩]) [8] ↔
      RunMeets (afterRead (readInto exampleFunctions)) (PunctualCall exampleFunctions)
        (exampleReader [.gives 3, .fails ⟨.wouldBlock, ""⟩]) [8] := by
  refine survives_polls_iff Aead.opens_tagging examplePeer ?_ [8]
  intro error member
  simp at member
  rw [member]
  rfl

/-- The end behind the record is told as an error, and so is a pause in front of the salt. -/
theorem not_survives :
    ¬ Survives exampleFunctions examplePeer (exampleReader []) [8, 8] ∧
      ¬ Survives exampleFunctions examplePeer (exampleReader [.fails ⟨.wouldBlock, ""⟩]) [8] := by
  constructor
  · have answered : ∃ error last, session (readInto exampleFunctions) (exampleReader []) [8, 8] =
        some ([.ok [1], .error error], last) ∧ error.kind = .other :=
      ⟨_, _, rfl, rfl⟩
    rintro survives
    rcases answered with ⟨error, last, answered, kind⟩
    rcases survives.answers with ⟨answers, last', done, spells, _⟩
    rw [answered] at done
    cases done
    rcases spells with ⟨_, _, _, _, idle, _⟩
    rw [kind] at idle
    cases idle
  · have answered : ∃ error last, session (readInto exampleFunctions)
        (exampleReader [.fails ⟨.wouldBlock, ""⟩]) [8] = some ([.error error], last) ∧
          error.kind = .other :=
      ⟨_, _, rfl, rfl⟩
    rintro survives
    rcases answered with ⟨error, last, answered, kind⟩
    rcases survives.answers with ⟨answers, last', done, spells, _⟩
    rw [answered] at done
    cases done
    rcases spells with ⟨idle, _⟩
    rw [kind] at idle
    cases idle

end SnellStream

end Corduit.Engine.Outbound.Snell
