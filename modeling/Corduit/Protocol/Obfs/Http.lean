import Corduit.Transport.Session
import Corduit.Word.Octets

/-!
# The head in front of an HTTP-style reply

The first read skips the peer's fabricated head up to its empty line, byte by
byte, and is marked as done before it begins.  When a read of the transport
runs out of time inside the head, what has been seen of it is forgotten and the
rest is handed out as payload.
-/

namespace Corduit.Protocol.Obfs

open Transport Word

/-- `MAX_OBFS_HEADER`. -/
def maxObfsHeader : Nat :=
  16 * 1024

/-- The empty line behind a head. -/
def terminator : List Byte :=
  [13, 10, 13, 10]

/-- What `read` uses of the stream. -/
structure HttpObfsStream where
  incoming : Incoming
  responseSkipped : Bool

/-- The loop that skips the head. -/
def skipHead (seen : List Byte) (incoming : Incoming) : Except IoError Unit × Incoming :=
  if terminator <:+ seen then (.ok (), incoming)
  else if _over : maxObfsHeader ≤ seen.length then
    (.error ⟨.other, "http obfs: the peer's response head exceeded the cap"⟩, incoming)
  else
    match incoming.read 1 with
    | (.error error, incoming) => (.error error, incoming)
    | (.ok [], incoming) => (.ok (), incoming)
    | (.ok (byte :: _), incoming) => skipHead (seen ++ [byte]) incoming
termination_by maxObfsHeader - seen.length
decreasing_by
  rw [List.length_append, List.length_singleton]
  omega

namespace HttpObfsStream

/-- A stream that has read nothing. -/
def start (incoming : Incoming) : HttpObfsStream :=
  ⟨incoming, false⟩

/-- `Read::read`; it always returns. -/
def read (stream : HttpObfsStream) (room : Nat) : Option (Answer × HttpObfsStream) :=
  if stream.responseSkipped = false then
    match skipHead [] stream.incoming with
    | (.error error, incoming) => some (.error error, ⟨incoming, true⟩)
    | (.ok (), incoming) =>
        match incoming.read room with
        | (answer, incoming) => some (answer, ⟨incoming, true⟩)
  else
    match stream.incoming.read room with
    | (answer, incoming) => some (answer, { stream with incoming := incoming })

variable {stream : HttpObfsStream}

theorem read_of_error (fresh : stream.responseSkipped = false) {later : Incoming}
    {error : IoError} (failed : skipHead [] stream.incoming = (.error error, later)) (room : Nat) :
    read stream room = some (.error error, ⟨later, true⟩) := by
  rw [read, if_pos fresh, failed]

theorem read_of_ok (fresh : stream.responseSkipped = false) {later : Incoming}
    (skip : skipHead [] stream.incoming = (.ok (), later)) (room : Nat) :
    read stream room = some ((later.read room).1, ⟨(later.read room).2, true⟩) := by
  rw [read, if_pos fresh, skip]

theorem read_of_skipped (skipped : stream.responseSkipped = true) (room : Nat) :
    read stream room = some ((stream.incoming.read room).1,
      ⟨(stream.incoming.read room).2, true⟩) := by
  have other : ¬ stream.responseSkipped = false := by
    rw [skipped]
    exact Bool.noConfusion
  rw [read, if_neg other, skipped]

end HttpObfsStream

/-- A head: it ends at its first empty line. -/
structure Head where
  bytes : List Byte
  ends : terminator <:+ bytes
  first : ∀ front, front <+: bytes → terminator <:+ front → front = bytes

theorem Head.bytes_ne_nil (head : Head) : head.bytes ≠ [] := by
  intro empty
  have ends := head.ends
  rw [empty] at ends
  exact absurd ends.length_le (by decide)

theorem read_one (byte : Byte) (bytes : List Byte) (polls : List Poll) :
    (Steady (polls.take 1) ∧
      Incoming.read ⟨byte :: bytes, polls⟩ 1 = (.ok [byte], ⟨bytes, polls.drop 1⟩)) ∨
    ∃ error later, polls = .fails error :: later ∧
      Incoming.read ⟨byte :: bytes, polls⟩ 1 = (.error error, ⟨byte :: bytes, later⟩) := by
  rcases polls with _ | ⟨more | error, polls⟩
  · exact Or.inl ⟨fun _ => List.not_mem_nil, rfl⟩
  · left
    constructor
    · simp [Steady]
    · simp [Incoming.read]
  · exact Or.inr ⟨error, polls, rfl, rfl⟩

/-- A head within the bound whose reads do not fail is skipped; otherwise some of it is left. -/
theorem skipHead_cases (head : Head) {seen rest : List Byte} (split : seen ++ rest = head.bytes)
    (payload : List Byte) (polls : List Poll) :
    ((head.bytes.length ≤ maxObfsHeader ∨ rest = []) ∧ Steady (polls.take rest.length) ∧
      skipHead seen ⟨rest ++ payload, polls⟩ = (.ok (), ⟨payload, polls.drop rest.length⟩)) ∨
    (¬ (head.bytes.length ≤ maxObfsHeader ∧ Steady (polls.take rest.length)) ∧
      ∃ error behind later, skipHead seen ⟨rest ++ payload, polls⟩ =
        (.error error, ⟨behind ++ payload, later⟩) ∧ behind ≠ [] ∧ later <:+ polls) := by
  induction rest generalizing seen polls with
  | nil =>
      rw [List.append_nil] at split
      subst split
      left
      refine ⟨Or.inr rfl, fun _ => List.not_mem_nil, ?_⟩
      rw [skipHead, if_pos head.ends]
      rfl
  | cons byte rest ih =>
      have unseen : ¬ terminator <:+ seen := by
        intro ends
        have whole := head.first seen ⟨byte :: rest, split⟩ ends
        rw [← split] at whole
        exact absurd (List.self_eq_append_right.mp whole) (List.cons_ne_nil byte rest)
      have length := congrArg List.length split
      rw [List.length_append, List.length_cons] at length
      rw [skipHead, if_neg unseen]
      by_cases beyond : maxObfsHeader ≤ seen.length
      · rw [dif_pos beyond]
        right
        refine ⟨?_, _, byte :: rest, polls, rfl, List.cons_ne_nil _ _, List.suffix_refl polls⟩
        rintro ⟨within, _⟩
        omega
      · rw [dif_neg beyond, List.cons_append]
        rcases read_one byte (rest ++ payload) polls with
          ⟨steady, read⟩ | ⟨error, later, rfl, read⟩
        · rw [read]
          dsimp only
          have split' : (seen ++ [byte]) ++ rest = head.bytes := by
            rw [List.append_assoc, List.singleton_append]
            exact split
          have both : Steady (polls.take (rest.length + 1)) ↔
              Steady (polls.take 1) ∧ Steady ((polls.drop 1).take rest.length) := by
            rw [Nat.add_comm, List.take_add]
            simp only [Steady, List.mem_append, not_or, forall_and]
          rw [List.length_cons, both]
          rcases ih split' (polls.drop 1) with
            ⟨within, steady', skipped⟩ | ⟨broken, error, behind, later, failed, left, suffix⟩
          · left
            refine ⟨Or.inl ?_, ⟨steady, steady'⟩, ?_⟩
            · rcases within with within | rfl
              · exact within
              · rw [List.length_nil] at length
                omega
            · rw [skipped, List.drop_drop, Nat.add_comm]
          · right
            constructor
            · exact fun fits => broken ⟨fits.1, fits.2.2⟩
            · exact ⟨error, behind, later, failed, left, suffix.trans (List.drop_suffix 1 polls)⟩
        · rw [read]
          right
          refine ⟨?_, error, byte :: rest, later, rfl, List.cons_ne_nil _ _,
            List.suffix_cons _ later⟩
          rintro ⟨_, steady⟩
          exact steady error List.mem_cons_self

namespace HttpObfsStream

/-- What a stream has ahead: behind the head the wire, and in front of it what follows the head,
if it can be skipped. -/
def Ahead (head : Head) (stream : HttpObfsStream) (text : List Byte) : Prop :=
  Idles stream.incoming.polls ∧
    if stream.responseSkipped then stream.incoming.wire = text
    else stream.incoming.wire = head.bytes ++ text ∧ head.bytes.length ≤ maxObfsHeader ∧
      Steady (stream.incoming.polls.take head.bytes.length)

/-- What the stream delivers by. -/
def terms (head : Head) : Terms HttpObfsStream where
  idle error := error.kind.isReadIntervalElapsed = true
  ahead := Ahead head
  effort stream := stream.incoming.polls.length
  ended _ := True

theorem delivery_read {head : Head} {incoming : Incoming} (idles : Idles incoming.polls)
    (room : Nat) {before : Nat} (bound : incoming.polls.length ≤ before) :
    Delivery (terms head) incoming.wire room before (incoming.read room).1
      ⟨(incoming.read room).2, true⟩ := by
  have gives (count : Nat) (bounded : count ≤ room) (some : count = 0 → room = 0)
      {polls : List Poll} (fewer : polls <:+ incoming.polls) :
      Delivery (terms head) incoming.wire room before
        (.ok (incoming.wire.take count)) ⟨⟨incoming.wire.drop count, polls⟩, true⟩ := by
    apply Delivery.gives (List.take_append_drop count incoming.wire).symm
    · exact (List.length_take_le _ _).trans bounded
    · intro empty
      rcases List.take_eq_nil_iff.mp empty with zero | none
      · exact Or.inl (some zero)
      · exact Or.inr ⟨none, trivial⟩
    · exact ⟨idles.suffix fewer, rfl⟩
    · exact fewer.length_le.trans bound
  rcases incoming with ⟨wire, _ | ⟨more | error, polls⟩⟩
  · exact gives room (Nat.le_refl room) id (List.suffix_refl [])
  · apply gives _ (Nat.min_le_right _ _) _ (List.suffix_cons _ polls)
    intro none
    omega
  · apply Delivery.idles
    · exact idles error List.mem_cons_self
    · exact ⟨idles.suffix (List.suffix_cons _ polls), rfl⟩
    · exact bound

/-- Every read delivers what is ahead. -/
theorem delivers (head : Head) : Delivers read (terms head) := by
  rintro stream text room ⟨idles, ahead⟩
  cases skipped : stream.responseSkipped with
  | true =>
      rw [skipped, if_pos rfl] at ahead
      subst ahead
      exact ⟨_, _, read_of_skipped skipped room, delivery_read idles room (Nat.le_refl _)⟩
  | false =>
      rw [skipped, if_neg Bool.false_ne_true] at ahead
      rcases ahead with ⟨wire_eq, fits⟩
      have incoming_eq : stream.incoming = ⟨head.bytes ++ text, stream.incoming.polls⟩ := by
        rw [← wire_eq]
      rcases skipHead_cases head (List.nil_append _) text stream.incoming.polls with
        ⟨_, _, skip⟩ | ⟨broken, _⟩
      · rw [← incoming_eq] at skip
        have later := @delivery_read head
          ⟨text, stream.incoming.polls.drop head.bytes.length⟩
          (idles.suffix (List.drop_suffix _ _)) room stream.incoming.polls.length
            (List.drop_suffix _ _).length_le
        exact ⟨_, _, read_of_ok skipped skip room, later⟩
      · exact absurd fits broken

/-- Every session spells the payload behind the head, and with enough reads it is all there. -/
def Strips (head : Head) (payload : List Byte) (polls : List Poll) : Prop :=
  ∀ rooms, ∃ answers stream,
    session read (start ⟨head.bytes ++ payload, polls⟩) rooms = some (answers, stream) ∧
      Spells (fun error => error.kind.isReadIntervalElapsed = true) rooms answers payload ∧
      (payload.length + polls.length < (rooms.filter (0 < ·)).length →
        Ends rooms answers ∧ received answers = payload)

variable {head : Head} {payload : List Byte} {polls : List Poll}

theorem strips (idles : Idles polls)
    (fits : head.bytes.length ≤ maxObfsHeader ∧ Steady (polls.take head.bytes.length)) :
    Strips head payload polls := by
  intro rooms
  have ahead : (terms head).ahead (start ⟨head.bytes ++ payload, polls⟩) payload :=
    ⟨idles, rfl, fits⟩
  rcases (delivers head).spells ahead rooms with ⟨answers, last, _, done, spells, _⟩
  exact ⟨answers, last, done, spells, (delivers head).ends ahead done⟩

/-- A read that fails in front of the end of the head leaves some of it to be handed out. -/
theorem read_astray
    (broken : ¬ (head.bytes.length ≤ maxObfsHeader ∧ Steady (polls.take head.bytes.length)))
    (fresh : stream = start ⟨head.bytes ++ payload, polls⟩) :
    ∃ error behind later, (∀ room, read stream room =
        some (.error error, ⟨⟨behind ++ payload, later⟩, true⟩)) ∧
      behind ≠ [] ∧ later <:+ polls := by
  have skipped : stream.responseSkipped = false := by
    rw [fresh]
    rfl
  have incoming : stream.incoming = ⟨head.bytes ++ payload, polls⟩ := by
    rw [fresh]
    rfl
  rcases skipHead_cases head (List.nil_append _) payload polls with
    ⟨within, steady, _⟩ | ⟨_, error, behind, later, failed, left, suffix⟩
  · exact absurd ⟨within.resolve_right head.bytes_ne_nil, steady⟩ broken
  · rw [← incoming] at failed
    exact ⟨error, behind, later, read_of_error skipped failed, left, suffix⟩

theorem not_strips (idles : Idles polls)
    (broken : ¬ (head.bytes.length ≤ maxObfsHeader ∧ Steady (polls.take head.bytes.length))) :
    ¬ Strips head payload polls := by
  intro strips
  rw [Strips] at strips
  generalize fresh : start ⟨head.bytes ++ payload, polls⟩ = stream at strips
  rcases read_astray broken fresh.symm with ⟨error, behind, later, astray, left, suffix⟩
  have ahead : (terms head).ahead ⟨⟨behind ++ payload, later⟩, true⟩ (behind ++ payload) :=
    ⟨idles.suffix suffix, rfl⟩
  -- Behind the error there are reads enough for everything that is left.
  generalize rooms_eq : List.replicate ((behind ++ payload).length + later.length + 1) 1 = rooms
  have enough : (behind ++ payload).length + later.length < (rooms.filter (0 < ·)).length := by
    rw [← rooms_eq, List.filter_replicate_of_pos (by decide), List.length_replicate]
    exact Nat.lt_succ_self _
  rcases (delivers head).spells ahead rooms with ⟨answers, last, _, done, _⟩
  have all := ((delivers head).ends ahead done enough).2
  rcases strips (1 :: rooms) with ⟨answers', last', done', spells, _⟩
  rw [session, astray 1] at done'
  dsimp only at done'
  rw [done] at done'
  cases done'
  have front := (Spells.received_prefix spells.2).length_le
  rw [all, List.length_append] at front
  have some := List.length_pos_iff.mpr left
  omega

/-- The payload is what is read exactly when the head is within the bound and no read runs out
of time inside it. -/
theorem strips_iff (head : Head) (payload : List Byte) {polls : List Poll} (idles : Idles polls) :
    Strips head payload polls ↔
      head.bytes.length ≤ maxObfsHeader ∧ Steady (polls.take head.bytes.length) := by
  constructor
  · intro whole
    by_contra broken
    exact not_strips idles broken whole
  · exact strips idles

end HttpObfsStream

/-- A head of one line. -/
def shortHead : Head where
  bytes := ascii "HTTP/1.1 101\r\n\r\n"
  ends := by decide
  first := by
    have none : ∀ count < 16, ¬ terminator <:+ (ascii "HTTP/1.1 101\r\n\r\n").take count := by
      decide
    intro front inside ends
    rw [List.prefix_iff_eq_take] at inside
    have long : ¬ front.length < 16 := fun short => none _ short (inside ▸ ends)
    rw [inside]
    exact List.take_of_length_le (Nat.le_of_not_lt long)

/-- Running out of time behind the head does no harm. -/
theorem strips_shortHead :
    HttpObfsStream.Strips shortHead [1, 2, 3]
      (List.replicate 16 (.gives 0) ++ [.fails ⟨.timedOut, "timed out"⟩]) := by
  have idles : Idles (List.replicate 16 (.gives 0) ++ [.fails ⟨.timedOut, "timed out"⟩]) := by
    intro error member
    simp at member
    subst member
    rfl
  apply (HttpObfsStream.strips_iff shortHead [1, 2, 3] idles).mpr
  constructor
  · decide
  · intro error member
    have given : Poll.fails error ∈ List.replicate 16 (Poll.gives 0) := member
    cases List.eq_of_mem_replicate given

/-- Running out of time behind the first byte of the head does. -/
theorem not_strips_shortHead :
    ¬ HttpObfsStream.Strips shortHead [1, 2, 3]
      [.gives 0, .fails ⟨.wouldBlock, "would block"⟩] := by
  apply HttpObfsStream.not_strips
  · intro error member
    simp at member
    subst member
    rfl
  · rintro ⟨_, steady⟩
    exact steady _ (List.mem_cons_of_mem _ List.mem_cons_self)

end Corduit.Protocol.Obfs
