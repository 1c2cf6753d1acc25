import Corduit.Word.Machine

/-!
# Polled transports

The receiving side of a transport: the bytes that the peer sends, in order, and
what each read of the transport does.  A read gives some of the bytes, at least
one while there are any, or it fails; a read at the end of the bytes gives
none.  What a schedule does not say is given at once, so that a finite schedule
stands for every way in which finitely many reads can go.

A buffer is filled by reading until it is full.  Whatever stops the reading,
`fill` says which bytes it has taken off the transport; what its caller does
with them is the caller's.
-/

namespace Corduit.Transport

open Word

/-- The kinds of error that the program tells apart. -/
inductive ErrorKind where
  | wouldBlock
  | timedOut
  | interrupted
  | unexpectedEof
  | invalidData
  | writeZero
  | notConnected
  | brokenPipe
  | connectionReset
  | connectionAborted
  | other
deriving DecidableEq

/-- `is_read_interval_elapsed`: a bounded read ran out of time. -/
def ErrorKind.isReadIntervalElapsed : ErrorKind → Bool
  | wouldBlock | timedOut => true
  | _ => false

/-- `io::Error`: its kind and its text. -/
structure IoError where
  kind : ErrorKind
  text : String
deriving DecidableEq

/-- What a read of the transport does: it gives at most one byte and `more`
others, or it fails. -/
inductive Poll where
  | gives (more : Nat)
  | fails (error : IoError)
deriving DecidableEq

/-- The bytes still to come and what the next reads do. -/
structure Incoming where
  wire : List Byte
  polls : List Poll
deriving DecidableEq

/-- The reads that fail raise errors of some kind only. -/
def Raises (polls : List Poll) (allowed : IoError → Prop) : Prop :=
  ∀ error, Poll.fails error ∈ polls → allowed error

variable {polls later : List Poll}

theorem Raises.suffix {allowed : IoError → Prop} (raises : Raises polls allowed)
    (rest : later <:+ polls) : Raises later allowed :=
  fun error member => raises error (rest.subset member)

/-- The reads that fail run out of time. -/
def Idles (polls : List Poll) : Prop :=
  ∀ error, Poll.fails error ∈ polls → error.kind.isReadIntervalElapsed = true

theorem Idles.suffix (idles : Idles polls) (rest : later <:+ polls) :
    Idles later :=
  fun error member => idles error (rest.subset member)

namespace Incoming

/-- `Read::read` with a buffer of `room` bytes. -/
def read (incoming : Incoming) (room : Nat) : Except IoError (List Byte) × Incoming :=
  match incoming.polls with
  | [] => (.ok (incoming.wire.take room), ⟨incoming.wire.drop room, []⟩)
  | .gives more :: polls =>
      let count := min (more + 1) room
      (.ok (incoming.wire.take count), ⟨incoming.wire.drop count, polls⟩)
  | .fails error :: polls => (.error error, ⟨incoming.wire, polls⟩)

theorem read_cases (incoming : Incoming) {room : Nat} (positive : 0 < room) :
    (∃ count polls, incoming.read room =
        (.ok (incoming.wire.take count), ⟨incoming.wire.drop count, polls⟩) ∧
      0 < count ∧ count ≤ room ∧ polls <:+ incoming.polls) ∨
    ∃ error polls, incoming.read room = (.error error, ⟨incoming.wire, polls⟩) ∧
      Poll.fails error :: polls = incoming.polls := by
  rcases incoming with ⟨wire, _ | ⟨_ | _, polls⟩⟩
  · exact Or.inl ⟨room, [], rfl, positive, Nat.le_refl room, List.suffix_refl []⟩
  · exact Or.inl ⟨_, polls, rfl, Nat.lt_min.mpr ⟨Nat.succ_pos _, positive⟩,
      Nat.min_le_right _ _, List.suffix_cons _ polls⟩
  · exact Or.inr ⟨_, polls, rfl, rfl⟩

theorem read_outcomes (incoming : Incoming) {room : Nat} (positive : 0 < room) :
    (∃ polls, incoming.wire = [] ∧ incoming.read room = (.ok [], ⟨[], polls⟩) ∧
      polls <:+ incoming.polls) ∨
    (∃ byte bytes wire polls, incoming.wire = byte :: bytes ++ wire ∧ bytes.length < room ∧
      incoming.read room = (.ok (byte :: bytes), ⟨wire, polls⟩) ∧ polls <:+ incoming.polls) ∨
    ∃ error polls, incoming.read room = (.error error, ⟨incoming.wire, polls⟩) ∧
      Poll.fails error :: polls = incoming.polls := by
  rcases incoming.read_cases positive with ⟨count, polls, read, some, within, later⟩ | failed
  · have split := List.take_append_drop count incoming.wire
    have short := List.length_take_le count incoming.wire
    cases taken : incoming.wire.take count with
    | nil =>
        have empty : incoming.wire = [] :=
          (List.take_eq_nil_iff.mp taken).resolve_left (Nat.ne_of_gt some)
        rw [taken, empty, List.drop_nil] at read
        exact .inl ⟨polls, empty, read, later⟩
    | cons byte bytes =>
        rw [taken] at read split short
        exact .inr (.inl ⟨byte, bytes, _, polls, split.symm, Nat.le_trans short within, read,
          later⟩)
  · exact .inr (.inr failed)

end Incoming

/-- How the filling of a buffer ended. -/
inductive Ending where
  | filled
  | eof
  | failed (error : IoError)
deriving DecidableEq

/-- What the filling of a buffer took, how it ended and what is still to come. -/
structure Fill where
  bytes : List Byte
  ending : Ending
  incoming : Incoming
deriving DecidableEq

namespace Fill

/-- The same filling with some bytes taken before. -/
def after (bytes : List Byte) (fill : Fill) : Fill :=
  { fill with bytes := bytes ++ fill.bytes }

end Fill

namespace Incoming

variable (retries : ErrorKind → Bool) (limit : Nat)

/-- The reads of `fill`, one poll after the other; when the schedule says no
more, the rest comes at once. -/
def fillFrom : List Poll → Nat → List Byte → Fill
  | [], want, wire =>
      if want ≤ wire.length then ⟨wire.take want, .filled, ⟨wire.drop want, []⟩⟩
      else ⟨wire, .eof, ⟨[], []⟩⟩
  | poll :: polls, want, wire =>
      if want = 0 then ⟨[], .filled, ⟨wire, poll :: polls⟩⟩
      else
        match poll with
        | .gives more =>
            let taken := wire.take (min (more + 1) (min limit want))
            if taken = [] then ⟨[], .eof, ⟨wire, polls⟩⟩
            else (fillFrom polls (want - taken.length)
              (wire.drop (min (more + 1) (min limit want)))).after taken
        | .fails error =>
            if retries error.kind then fillFrom polls want wire
            else ⟨[], .failed error, ⟨wire, polls⟩⟩

/-- Read until `want` bytes are there, at most `limit` at a time, starting over
after an error that is retried. -/
def fill (incoming : Incoming) (want : Nat) : Fill :=
  fillFrom retries limit incoming.polls want incoming.wire

variable {retries limit}

/-- A filling ends in one of three ways: with the buffer full, at the end of
the bytes, or with an error before the buffer was full. -/
theorem fill_cases (positive : 0 < limit) (incoming : Incoming) (want : Nat) :
    (∃ polls, incoming.fill retries limit want =
        ⟨incoming.wire.take want, .filled, ⟨incoming.wire.drop want, polls⟩⟩ ∧
      want ≤ incoming.wire.length ∧ polls <:+ incoming.polls) ∨
    (∃ polls, incoming.fill retries limit want = ⟨incoming.wire, .eof, ⟨[], polls⟩⟩ ∧
      incoming.wire.length < want ∧ polls <:+ incoming.polls) ∨
    ∃ count error polls, incoming.fill retries limit want =
        ⟨incoming.wire.take count, .failed error, ⟨incoming.wire.drop count, polls⟩⟩ ∧
      count < want ∧ count ≤ incoming.wire.length ∧ retries error.kind = false ∧
      Poll.fails error :: polls <:+ incoming.polls := by
  rcases incoming with ⟨wire, polls⟩
  dsimp only [fill]
  induction polls generalizing want wire with
  | nil =>
      by_cases enough : want ≤ wire.length
      · exact Or.inl ⟨[], if_pos enough, enough, List.suffix_refl []⟩
      · exact Or.inr (Or.inl ⟨[], if_neg enough, Nat.lt_of_not_le enough, List.suffix_refl []⟩)
  | cons poll polls ih =>
      have later : ∀ {rest : List Poll}, rest <:+ polls → rest <:+ poll :: polls :=
        fun suffix => suffix.trans (List.suffix_cons poll polls)
      by_cases none : want = 0
      · subst none
        exact Or.inl ⟨poll :: polls, by simp [fillFrom], Nat.zero_le _, List.suffix_refl _⟩
      dsimp only [fillFrom]
      rw [if_neg none]
      cases poll with
      | gives more =>
          dsimp only
          have some : 0 < min (more + 1) (min limit want) :=
            Nat.lt_min.mpr ⟨Nat.succ_pos more,
              Nat.lt_min.mpr ⟨positive, Nat.pos_of_ne_zero none⟩⟩
          have within : min (more + 1) (min limit want) ≤ want :=
            (Nat.min_le_right _ _).trans (Nat.min_le_right _ _)
          generalize min (more + 1) (min limit want) = count at some within
          by_cases empty : wire = []
          · subst empty
            refine Or.inr (Or.inl ⟨polls, by simp, Nat.pos_of_ne_zero none, later ?_⟩)
            exact List.suffix_refl polls
          -- Past the end of the bytes a longer read takes the same.
          have there : 0 < wire.length := List.length_pos_iff.mpr empty
          rw [List.take_eq_take_min, List.drop_eq_drop_min]
          have inside : min count wire.length ≤ wire.length := Nat.min_le_right _ _
          have least : 0 < min count wire.length := Nat.lt_min.mpr ⟨some, there⟩
          have most : min count wire.length ≤ want := (Nat.min_le_left _ _).trans within
          generalize min count wire.length = taken at inside least most
          have length : (wire.take taken).length = taken := List.length_take_of_le inside
          have nonempty : wire.take taken ≠ [] :=
            List.ne_nil_of_length_pos (length.symm ▸ least)
          rw [if_neg nonempty, length]
          rcases ih (want - taken) (wire.drop taken) with
            ⟨rest, full, enough, suffix⟩ | ⟨rest, ended, short, suffix⟩ |
            ⟨count', error, rest, failed, before, within', raised, suffix⟩
          · rw [List.length_drop] at enough
            refine Or.inl ⟨rest, ?_, by omega, later suffix⟩
            rw [full, Fill.after]
            dsimp only
            rw [List.drop_drop, ← List.take_add, Nat.add_sub_of_le most]
          · rw [List.length_drop] at short
            refine Or.inr (Or.inl ⟨rest, ?_, by omega, later suffix⟩)
            rw [ended, Fill.after]
            dsimp only
            rw [List.take_append_drop]
          · rw [List.length_drop] at within'
            refine Or.inr (Or.inr ⟨taken + count', error, rest, ?_, by omega, by omega, raised,
              later suffix⟩)
            rw [failed, Fill.after]
            dsimp only
            rw [List.drop_drop, ← List.take_add]
      | fails error =>
          dsimp only
          by_cases raised : retries error.kind = true
          · rw [if_pos raised]
            rcases ih want wire with ⟨rest, full, enough, suffix⟩ | ⟨rest, ended, short, suffix⟩ |
              ⟨count, error', rest, failed, before, there, raised, suffix⟩
            · exact Or.inl ⟨rest, full, enough, later suffix⟩
            · exact Or.inr (Or.inl ⟨rest, ended, short, later suffix⟩)
            · exact Or.inr (Or.inr ⟨count, error', rest, failed, before, there, raised,
                later suffix⟩)
          · rw [if_neg raised]
            exact Or.inr (Or.inr ⟨0, error, polls, by simp, Nat.pos_of_ne_zero none,
              Nat.zero_le _, Bool.eq_false_iff.mpr raised, List.suffix_refl _⟩)

theorem fillFrom_congr {other : ErrorKind → Bool} {polls : List Poll}
    (same : ∀ error, Poll.fails error ∈ polls → retries error.kind = other error.kind)
    (want : Nat) (wire : List Byte) :
    fillFrom retries limit polls want wire = fillFrom other limit polls want wire := by
  induction polls generalizing want wire with
  | nil => rfl
  | cons poll polls ih =>
      have later := ih fun error member => same error (List.mem_cons_of_mem poll member)
      cases poll with
      | gives more => simp only [fillFrom, later]
      | fails error => simp only [fillFrom, later, same error List.mem_cons_self]

end Incoming

namespace Incoming

/-- `Read::read_exact`: an interrupted read is retried; an error forgets what
was read before it. -/
def readExact (incoming : Incoming) (want : Nat) :
    Except IoError (List Byte) × Incoming :=
  let fill := incoming.fill (· = .interrupted) want want
  match fill.ending with
  | .filled => (.ok fill.bytes, fill.incoming)
  | .eof => (.error ⟨.unexpectedEof, "failed to fill whole buffer"⟩, fill.incoming)
  | .failed error => (.error error, fill.incoming)

/-- Read until `want` bytes are there: they are, or the wire ends before, or a
read fails behind the first few. -/
theorem readExact_cases (incoming : Incoming) {want : Nat} (some : 0 < want) :
    (∃ polls, incoming.readExact want =
        (.ok (incoming.wire.take want), ⟨incoming.wire.drop want, polls⟩) ∧
      want ≤ incoming.wire.length ∧ polls <:+ incoming.polls) ∨
    (∃ polls, incoming.readExact want =
        (.error ⟨.unexpectedEof, "failed to fill whole buffer"⟩, ⟨[], polls⟩) ∧
      incoming.wire.length < want ∧ polls <:+ incoming.polls) ∨
    ∃ count error polls, incoming.readExact want =
        (.error error, ⟨incoming.wire.drop count, polls⟩) ∧
      count < want ∧ count ≤ incoming.wire.length ∧ error.kind ≠ .interrupted ∧
      Poll.fails error :: polls <:+ incoming.polls := by
  rw [readExact]
  rcases fill_cases some incoming want with
    ⟨polls, filled, enough, rest⟩ | ⟨polls, ended, less, rest⟩ |
    ⟨count, error, polls, failed, before, there, raised, rest⟩
  · rw [filled]
    exact Or.inl ⟨polls, rfl, enough, rest⟩
  · rw [ended]
    exact Or.inr (Or.inl ⟨polls, rfl, less, rest⟩)
  · rw [failed]
    exact Or.inr (Or.inr ⟨count, error, polls, rfl, before, there, of_decide_eq_false raised,
      rest⟩)

/-- Read into buffers of these sizes, one after the other: how many bytes were
taken when a read failed. -/
def failsAfter : Incoming → List Nat → Option Nat
  | _, [] => none
  | incoming, size :: sizes =>
      match incoming.readExact size with
      | (.ok _, incoming') => (failsAfter incoming' sizes).map (size + ·)
      | (.error error, incoming') =>
          if error.kind = .unexpectedEof then none
          else some (incoming.wire.length - incoming'.wire.length)

theorem failsAfter_nil {polls : List Poll} {size : Nat} (some : 0 < size) {sizes : List Nat}
    {taken : Nat} (failed : failsAfter ⟨[], polls⟩ (size :: sizes) = Option.some taken) :
    taken = 0 := by
  rw [failsAfter] at failed
  rcases readExact_cases ⟨[], polls⟩ some with
    ⟨_, _, enough, _⟩ | ⟨_, read, _, _⟩ | ⟨_, error, _, read, _, _, _, _⟩
  · exact absurd enough (Nat.not_le_of_lt some)
  · rw [read] at failed
    cases failed
  · rw [read] at failed
    dsimp only at failed
    split at failed
    · cases failed
    · rw [List.length_nil, Nat.zero_sub] at failed
      exact (Option.some.inj failed).symm

end Incoming

/-- No read fails. -/
def Steady (polls : List Poll) : Prop :=
  ∀ error, Poll.fails error ∉ polls

theorem Steady.idles (steady : Steady polls) : Idles polls :=
  fun error member => absurd member (steady error)

theorem Steady.suffix (steady : Steady polls) (rest : later <:+ polls) :
    Steady later :=
  fun error member => steady error (rest.subset member)

namespace Incoming

variable {polls : List Poll}

theorem readExact_nil (steady : Steady polls) {want : Nat} (some : 0 < want) :
    ∃ polls', readExact ⟨[], polls⟩ want =
      (.error ⟨.unexpectedEof, "failed to fill whole buffer"⟩, ⟨[], polls'⟩) ∧ Steady polls' := by
  rcases readExact_cases ⟨[], polls⟩ some with
    ⟨_, _, enough, _⟩ | ⟨polls', read, _, later⟩ | ⟨_, error, _, _, _, _, _, later⟩
  · exact absurd enough (Nat.not_le_of_lt some)
  · exact ⟨polls', read, steady.suffix later⟩
  · exact absurd (later.subset List.mem_cons_self) (steady error)

theorem readExact_zero (incoming : Incoming) : incoming.readExact 0 = (.ok [], incoming) := by
  rcases incoming with ⟨wire, _ | ⟨poll, polls⟩⟩ <;> simp [readExact, fill, fillFrom]

/-- A block that is on the wire is read, or a read runs out of time before all of it is there. -/
theorem readExact_block (idles : Idles polls) (block rest : List Byte) :
    (∃ polls', readExact ⟨block ++ rest, polls⟩ block.length = (.ok block, ⟨rest, polls'⟩) ∧
      polls' <:+ polls) ∨
    ∃ error incoming, readExact ⟨block ++ rest, polls⟩ block.length = (.error error, incoming) ∧
      error.kind ≠ .unexpectedEof := by
  rcases Nat.eq_zero_or_pos block.length with zero | some
  · obtain rfl := List.length_eq_zero_iff.mp zero
    exact Or.inl ⟨polls, readExact_zero _, List.suffix_refl _⟩
  · rcases readExact_cases ⟨block ++ rest, polls⟩ some with
      ⟨polls', read, _, suffix⟩ | ⟨_, _, less, _⟩ | ⟨count, error, polls', read, _, _, _, suffix⟩
    · dsimp only at read
      rw [List.take_left, List.drop_left] at read
      exact Or.inl ⟨polls', read, suffix⟩
    · exact absurd less (by simp)
    · refine Or.inr ⟨error, _, read, ?_⟩
      intro ended
      have idle := idles error (suffix.subset List.mem_cons_self)
      rw [ended] at idle
      cases idle

theorem failsAfter_ne_none {incoming incoming' : Incoming} {size : Nat} {error : IoError}
    (read : incoming.readExact size = (.error error, incoming'))
    (loud : error.kind ≠ .unexpectedEof) (sizes : List Nat) :
    incoming.failsAfter (size :: sizes) ≠ none := by
  rw [failsAfter, read]
  dsimp only
  rw [if_neg loud]
  exact Option.some_ne_none _

theorem failsAfter_block (idles : Idles polls) (block rest : List Byte)
    (sizes : List Nat) :
    (∃ polls', readExact ⟨block ++ rest, polls⟩ block.length = (.ok block, ⟨rest, polls'⟩) ∧
      polls' <:+ polls ∧
      (failsAfter ⟨block ++ rest, polls⟩ (block.length :: sizes) = none ↔
        failsAfter ⟨rest, polls'⟩ sizes = none)) ∨
    (∃ error incoming, readExact ⟨block ++ rest, polls⟩ block.length =
      (.error error, incoming)) ∧
      failsAfter ⟨block ++ rest, polls⟩ (block.length :: sizes) ≠ none := by
  rcases readExact_block idles block rest with
    ⟨polls', read, suffix⟩ | ⟨error, incoming, read, loud⟩
  · refine Or.inl ⟨polls', read, suffix, ?_⟩
    rw [failsAfter, read]
    exact Option.map_eq_none_iff
  · exact Or.inr ⟨⟨error, incoming, read⟩, failsAfter_ne_none read loud sizes⟩

theorem failsAfter_of_steady {wire : List Byte} (steady : Steady polls) (sizes : List Nat) :
    failsAfter ⟨wire, polls⟩ sizes = none := by
  induction sizes generalizing wire polls with
  | nil => rfl
  | cons size sizes ih =>
      rw [failsAfter]
      by_cases zero : size = 0
      · rw [zero, readExact_zero]
        dsimp only
        rw [ih steady]
        rfl
      rcases readExact_cases ⟨wire, polls⟩ (Nat.pos_of_ne_zero zero) with
        ⟨later, read, _, rest⟩ | ⟨later, read, _, rest⟩ | ⟨_, error, _, _, _, _, _, rest⟩
      · rw [read]
        dsimp only
        rw [ih (steady.suffix rest)]
        rfl
      · rw [read]
        rfl
      · exact absurd (rest.subset List.mem_cons_self) (steady error)

end Incoming

end Corduit.Transport

/-!
# The writing side of a transport

What a transport has sent and what it does with the bytes and the shutdowns to
come.  As for reading, a schedule is finite: what it does not say succeeds.
-/

namespace Corduit.Transport

open Word

/-- What is shut down. -/
inductive Shutdown where
  | read
  | write
  | both
deriving DecidableEq

/-- The writing half is shut down. -/
def Shutdown.writes : Shutdown → Bool
  | write | both => true
  | read => false

/-- `is_benign_shutdown_error`: the half is already unusable. -/
def ErrorKind.isBenignShutdownError : ErrorKind → Bool
  | notConnected | brokenPipe | connectionReset | connectionAborted => true
  | _ => false

/-- What becomes of bytes that are to be written whole: the transport takes
them, or fails behind the first few. -/
inductive Fate where
  | takes
  | fails (taken : Nat) (error : IoError)
deriving DecidableEq

/-- A write that fails. -/
def Fate.isFailure : Fate → Bool
  | takes => false
  | fails _ _ => true

/-- The bytes sent and the halves shut down so far, and what the next writes and
shutdowns do. -/
structure Outgoing where
  sent : List Byte := []
  closed : List Shutdown := []
  fates : List Fate := []
  closings : List (Except IoError Unit) := []

namespace Outgoing

/-- `Write::write_all`. -/
def writeAll (outgoing : Outgoing) (bytes : List Byte) : Except IoError Unit × Outgoing :=
  match outgoing.fates with
  | [] => (.ok (), { outgoing with sent := outgoing.sent ++ bytes })
  | .takes :: fates => (.ok (), { outgoing with sent := outgoing.sent ++ bytes, fates := fates })
  | .fails taken error :: fates =>
      (.error error, { outgoing with sent := outgoing.sent ++ bytes.take taken, fates := fates })

/-- `SyncStream::shutdown`. -/
def shutdown (outgoing : Outgoing) (how : Shutdown) : Except IoError Unit × Outgoing :=
  match outgoing.closings with
  | [] => (.ok (), { outgoing with closed := outgoing.closed ++ [how] })
  | result :: closings =>
      (result, { outgoing with closed := outgoing.closed ++ [how], closings := closings })

/-- Shut down; a peer that is gone is no error. -/
def shutdownLenient (outgoing : Outgoing) (how : Shutdown) : Except IoError Unit × Outgoing :=
  match outgoing.shutdown how with
  | (.error error, outgoing') =>
      if error.kind.isBenignShutdownError then (.ok (), outgoing') else (.error error, outgoing')
  | (.ok (), outgoing') => (.ok (), outgoing')

/-- One of the next writes fails. -/
def FailsWithin (outgoing : Outgoing) (count : Nat) : Prop :=
  ∃ fate ∈ outgoing.fates.take count, fate.isFailure = true

instance (outgoing : Outgoing) (count : Nat) : Decidable (outgoing.FailsWithin count) :=
  inferInstanceAs (Decidable (∃ fate ∈ outgoing.fates.take count, fate.isFailure = true))

theorem not_failsWithin_zero (outgoing : Outgoing) : ¬ outgoing.FailsWithin 0 := by
  simp [FailsWithin]

theorem sent_of_writeAll {outgoing outgoing' : Outgoing} {bytes : List Byte}
    (succeeds : outgoing.writeAll bytes = (.ok (), outgoing')) :
    outgoing'.sent = outgoing.sent ++ bytes := by
  rcases outgoing with ⟨sent, closed, _ | ⟨_ | _, fates⟩, closings⟩ <;> cases succeeds <;> rfl

theorem writeAll_cases (outgoing : Outgoing) (bytes : List Byte) :
    (∃ outgoing', outgoing.writeAll bytes = (.ok (), outgoing') ∧
      ∀ count, outgoing.FailsWithin (count + 1) ↔ outgoing'.FailsWithin count) ∨
    ∃ error outgoing', outgoing.writeAll bytes = (.error error, outgoing') ∧
      ∀ count, outgoing.FailsWithin (count + 1) := by
  rcases outgoing with ⟨sent, closed, _ | ⟨_ | ⟨taken, error⟩, fates⟩, closings⟩
  · exact Or.inl ⟨_, rfl, fun count => by simp [FailsWithin]⟩
  · exact Or.inl ⟨_, rfl, fun count => by simp [FailsWithin, Fate.isFailure]⟩
  · exact Or.inr ⟨error, _, rfl, fun count => by simp [FailsWithin, Fate.isFailure]⟩

end Outgoing

end Corduit.Transport
