import Corduit.Engine.Inbound.Forward.Chunked

/-!
# De-chunking

Whatever the loop, the buffer and what is still to come are, together, a suffix
of what was sent, and what has been put out is the data in front of it.  Each
loop carries this on, so that the body comes out whole however it arrives, as
long as no size line fills more than its share of the buffer and the transport
is not idle exactly between the data of a chunk and its line end.
-/

namespace Corduit.Engine.Inbound.Forward

open Collection Text Transport Word

namespace Dechunker

/-- A size line that is not complete fits in a kilobyte. -/
def Short (state : Dechunker) : Prop :=
  state.phase = .sizeLine → findSubsequence crlf state.buf = none → state.buf.length ≤ 1024

/-- The next poll fails. -/
def NextFails (state : Dechunker) : Prop :=
  match state.incoming.polls with
  | .fails _ :: _ => True
  | _ => False

instance (state : Dechunker) : Decidable state.NextFails := by
  unfold NextFails
  split <;> infer_instance

/-- With the data of a chunk used up and nothing else read, the transport is not
idle. -/
def Unbroken (state : Dechunker) : Prop :=
  state.phase = .dataEnd → state.buf = [] → ¬ state.NextFails

instance (state : Dechunker) : Decidable state.Short :=
  inferInstanceAs (Decidable (_ → _ → _))

instance (state : Dechunker) : Decidable state.Unbroken :=
  inferInstanceAs (Decidable (_ → _ → _))

/-- What has been read and not used, and what is still to come. -/
def ahead (state : Dechunker) : List Byte :=
  state.buf ++ state.incoming.wire

/-- A poll that brings what was there, or time that passes. -/
structure Fetched (state later : Dechunker) : Prop where
  ahead : later.ahead = state.ahead
  out : later.out = state.out
  phase : later.phase = state.phase
  idles : Idles later.incoming.polls
  effort : later.effort < state.effort

theorem fetch_fetches {state : Dechunker} (idles : Idles state.incoming.polls)
    (more : state.incoming.wire ≠ []) (atEnd failed : String) :
    ∃ later, state.fetch atEnd failed = .again later ∧ state.Fetched later := by
  rcases state.incoming.read_cases (by decide : 0 < 2048) with
    ⟨count, polls, read, positive, _, rest⟩ | ⟨error, polls, read, polled⟩
  · have given : state.incoming.wire.take count ≠ [] := by
      rw [Ne, List.take_eq_nil_iff]
      exact fun none => none.elim (Nat.ne_of_gt positive) more
    cases taken : state.incoming.wire.take count with
    | nil => exact absurd taken given
    | cons byte bytes =>
        refine ⟨_, by rw [fetch, read, taken], ?_⟩
        have lengths := List.length_drop (i := count) (l := state.incoming.wire)
        have split := congrArg List.length taken
        have some := List.length_pos_iff.mpr more
        have fewer := rest.length_le
        rw [List.length_take, List.length_cons] at split
        refine ⟨?_, rfl, rfl, idles.suffix rest, ?_⟩
        · rw [ahead, ahead, List.append_assoc, ← taken, List.take_append_drop]
        · dsimp only [effort]
          rw [List.length_append, List.length_cons, lengths]
          omega
  · have idle := idles error (polled ▸ List.mem_cons_self)
    refine ⟨{ state with incoming := ⟨state.incoming.wire, polls⟩ }, ?_, ⟨rfl, rfl, rfl, ?_, ?_⟩⟩
    · rw [fetch, read]
      exact if_pos idle
    · exact idles.suffix (polled ▸ List.suffix_cons _ _)
    · have fewer := congrArg List.length polled
      rw [List.length_cons] at fewer
      dsimp only [effort]
      omega

end Dechunker

variable (body : ChunkedBody) (rest : List Byte)

/-- The chunks that remain, the end of the body and what follows it. -/
def remaining (chunks : List Chunk) : List Byte :=
  encodeChunks chunks ++ (body.last.text ++ crlf ++ body.trailerSection ++ rest)

/-- Where each loop stands in the body. -/
def Standing (state : Dechunker) : Phase → Prop
  | .sizeLine => ∃ front chunks, SizeLine.Front front ∧
      state.ahead = asBytes (String.ofList front) ++ remaining body rest chunks ∧
      state.out ++ dataOf chunks = body.data
  | .data target => ∃ bytes chunks,
      state.ahead = bytes ++ crlf ++ remaining body rest chunks ∧
      state.out ++ bytes ++ dataOf chunks = body.data ∧ target = state.out.length + bytes.length
  | .dataEnd => ∃ chunks, state.ahead = crlf ++ remaining body rest chunks ∧
      state.out ++ dataOf chunks = body.data
  | .trailers => state.ahead = body.trailerSection ++ rest ∧ state.out = body.data

/-- The invariant of all the loops. -/
structure Remains (state : Dechunker) : Prop where
  idles : Idles state.incoming.polls
  standing : Standing body rest state state.phase

/-- What `read_chunked` is to return: the data, and behind a body without
trailer fields exactly what follows it. -/
def Decoded (result : Except Error (List Byte)) (state : Dechunker) : Prop :=
  result = .ok body.data ∧ (body.trailers = [] → state.ahead = rest)

namespace Remains

variable {body rest} {state later : Dechunker}

theorem fetched (remains : Remains body rest state) (fetched : state.Fetched later) :
    Remains body rest later := by
  refine ⟨fetched.idles, ?_⟩
  have standing := remains.standing
  rw [fetched.phase]
  cases phase : state.phase <;> rw [phase] at standing <;>
    simpa only [Standing, fetched.ahead, fetched.out] using standing

theorem fetch_meets (remains : Remains body rest state) (more : state.incoming.wire ≠ [])
    (atEnd failed : String) :
    (state.fetch atEnd failed).Meets (Remains body rest) Dechunker.effort (Decoded body rest)
      state.effort := by
  rcases Dechunker.fetch_fetches remains.idles more atEnd failed with ⟨later, again, fetched⟩
  rw [again]
  exact ⟨remains.fetched fetched, fetched.effort⟩

theorem more_of_incomplete {line tail : List Byte} (split : state.ahead = line ++ cr :: lf :: tail)
    (incomplete : state.buf.length < line.length + 2) : state.incoming.wire ≠ [] := by
  intro none
  have lengths := congrArg List.length split
  rw [Dechunker.ahead, none, List.append_nil, List.length_append, List.length_cons,
    List.length_cons] at lengths
  omega

theorem readSizeLine_cases (remains : Remains body rest state) (short : state.Short)
    (phase : state.phase = .sizeLine) {size : Nat} (line : SizeLine size)
    (representable : size ≤ usizeMax) {front : List Char} (fronted : SizeLine.Front front)
    {tail : List Byte} (split : state.ahead = line.fronted front ++ cr :: lf :: tail) :
    (state.readSizeLine fun _ => false).Meets (Remains body rest) Dechunker.effort
      (Decoded body rest) state.effort ∨
    ∃ buf, buf ++ state.incoming.wire = tail ∧ buf.length + 2 ≤ state.buf.length ∧
      state.readSizeLine (fun _ => false) =
        if size = 0 then .again { state with buf := buf, phase := .trailers }
        else if maxResponseBodyBytes < saturatingAdd state.out.length size then
          Dechunker.fail { state with buf := buf } "Response body exceeds limit"
        else .again { state with buf := buf, phase := .data (state.out.length + size) } := by
  unfold Dechunker.readSizeLine
  rcases findSubsequence_front (line.cr_not_mem fronted) split with
    ⟨none, incomplete⟩ | ⟨buf, whole, left, found⟩
  · rw [crlf, none]
    dsimp only
    rw [if_neg (Nat.not_lt.mpr (short phase none)), if_neg Bool.false_ne_true]
    exact Or.inl (remains.fetch_meets (more_of_incomplete split incomplete) _ _)
  · rw [crlf, found]
    have length : (line.fronted front ++ [cr, lf]).length = (line.fronted front).length + 2 :=
      List.length_append
    have regrouped : state.buf = (line.fronted front ++ [cr, lf]) ++ buf := by
      rw [whole, List.append_assoc]
      rfl
    have taken : state.buf.take ((line.fronted front).length + 2) =
        line.fronted front ++ [cr, lf] := by
      rw [regrouped, List.take_left' length]
    have dropped : state.buf.drop ((line.fronted front).length + 2) = buf := by
      rw [regrouped, List.drop_left' length]
    have parsed := line.parseSize_fronted fronted representable
    rw [crlf] at parsed
    refine Or.inr ⟨buf, left, ?_, ?_⟩
    · rw [regrouped, List.length_append, length]
      omega
    · dsimp only
      rw [taken, dropped, Dechunker.begin, parsed]

theorem effort_of_shorter {buf : List Byte} {phase : Phase}
    (shorter : buf.length + 2 ≤ state.buf.length) :
    Dechunker.effort { state with buf := buf, phase := phase } < state.effort := by
  dsimp only [Dechunker.effort]
  split <;> split <;> omega

theorem sizeLine_meets (remains : Remains body rest state) (short : state.Short)
    (limit : body.data.length ≤ maxResponseBodyBytes) (phase : state.phase = .sizeLine) :
    (state.readSizeLine fun _ => false).Meets (Remains body rest) Dechunker.effort
      (Decoded body rest) state.effort := by
  have standing := remains.standing
  rw [phase] at standing
  rcases standing with ⟨front, chunks, fronted, ahead, out⟩
  cases chunks with
  | nil =>
      have split : state.ahead = body.last.fronted front ++
          cr :: lf :: (body.trailerSection ++ rest) := by
        rw [ahead, body.last.fronted_eq fronted]
        simp only [remaining, encodeChunks, List.flatMap_nil, List.nil_append, List.append_assoc,
          crlf, List.cons_append]
      rcases remains.readSizeLine_cases short phase body.last (Nat.zero_le _) fronted split with
        meets | ⟨buf, left, shorter, read⟩
      · exact meets
      · rw [read, if_pos rfl]
        refine ⟨⟨remains.idles, left, ?_⟩, effort_of_shorter shorter⟩
        rw [← out, dataOf, List.flatMap_nil, List.append_nil]
  | cons chunk chunks =>
      have split : state.ahead = chunk.line.fronted front ++
          cr :: lf :: (chunk.data ++ crlf ++ remaining body rest chunks) := by
        rw [ahead, chunk.line.fronted_eq fronted]
        simp only [remaining, encodeChunks, List.flatMap_cons, List.append_assoc, crlf,
          List.cons_append, List.nil_append]
      have data : state.out ++ chunk.data ++ dataOf chunks = body.data := by
        rw [← out, dataOf, dataOf, List.flatMap_cons, List.append_assoc]
      have bounded : state.out.length + chunk.data.length ≤ maxResponseBodyBytes := by
        have total := congrArg List.length data
        rw [List.length_append, List.length_append] at total
        omega
      have small : maxResponseBodyBytes ≤ usizeMax := by decide
      have positive : chunk.data.length ≠ 0 := fun none => chunk.nonempty (List.length_eq_zero_iff.mp none)
      have unsaturated : ¬ maxResponseBodyBytes < saturatingAdd state.out.length chunk.data.length :=
        Nat.not_lt.mpr (Nat.le_trans (Nat.min_le_left _ _) bounded)
      rcases remains.readSizeLine_cases short phase chunk.line (by omega) fronted split with
        meets | ⟨buf, left, shorter, read⟩
      · exact meets
      · rw [read, if_neg positive, if_neg unsaturated]
        exact ⟨⟨remains.idles, chunk.data, chunks, left, data, rfl⟩, effort_of_shorter shorter⟩

theorem data_meets {target : Nat} (remains : Remains body rest state)
    (phase : state.phase = .data target) :
    (state.readData target).Meets (Remains body rest) Dechunker.effort (Decoded body rest)
      state.effort := by
  have standing := remains.standing
  rw [phase] at standing
  rcases standing with ⟨bytes, chunks, ahead, data, rfl⟩
  unfold Dechunker.readData
  cases bytes with
  | nil =>
      have complete : ¬ state.out.length < state.out.length + ([] : List Byte).length :=
        Nat.lt_irrefl _
      rw [if_neg complete]
      refine ⟨⟨remains.idles, chunks, ahead, ?_⟩, ?_⟩
      · rw [← data, List.append_nil]
      · dsimp only [Dechunker.effort]
        rw [phase]
        exact Nat.lt_succ_self _
  | cons byte bytes =>
      rw [if_pos (by rw [List.length_cons]; omega)]
      by_cases empty : state.buf = []
      · rw [if_neg (not_not.mpr empty)]
        apply remains.fetch_meets
        intro none
        rw [Dechunker.ahead, empty, none] at ahead
        exact absurd ahead nofun
      · rw [if_pos empty]
        have some := List.length_pos_iff.mpr empty
        generalize count : min (state.out.length + (byte :: bytes).length - state.out.length)
          state.buf.length = take
        have positive : 0 < take := by
          rw [← count, List.length_cons]
          omega
        have inBuf : take ≤ state.buf.length := by omega
        have inData : take ≤ (byte :: bytes).length := by omega
        have same : state.buf.take take = (byte :: bytes).take take := by
          have front := congrArg (List.take take) ahead
          rwa [Dechunker.ahead, List.append_assoc, List.take_append_of_le_length inBuf,
            List.take_append_of_le_length inData] at front
        have left : state.buf.drop take ++ state.incoming.wire =
            (byte :: bytes).drop take ++ crlf ++ remaining body rest chunks := by
          have back := congrArg (List.drop take) ahead
          rwa [Dechunker.ahead, List.append_assoc, List.drop_append_of_le_length inBuf,
            List.drop_append_of_le_length inData, ← List.append_assoc] at back
        refine ⟨⟨remains.idles, ?_⟩, ?_⟩
        · dsimp only
          rw [phase]
          refine ⟨(byte :: bytes).drop take, chunks, left, ?_, ?_⟩
          · rw [same, List.append_assoc state.out, List.take_append_drop]
            exact data
          · rw [List.length_append, List.length_take, List.length_drop]
            omega
        · dsimp only [Dechunker.effort]
          rw [List.length_drop]
          omega

theorem dataEnd_meets (remains : Remains body rest state) (unbroken : state.Unbroken)
    (phase : state.phase = .dataEnd) :
    state.readDataEnd.Meets (Remains body rest) Dechunker.effort (Decoded body rest)
      state.effort := by
  have standing := remains.standing
  rw [phase] at standing
  rcases standing with ⟨chunks, ahead, data⟩
  unfold Dechunker.readDataEnd
  by_cases empty : state.buf = []
  · rw [if_pos empty]
    have wire : state.incoming.wire = cr :: lf :: remaining body rest chunks := by
      rwa [Dechunker.ahead, empty] at ahead
    rcases state.incoming.read_cases (by decide : 0 < 2) with
      ⟨count, polls, read, positive, small, suffix⟩ | ⟨error, polls, read, polled⟩
    · rw [read]
      have fewer := suffix.length_le
      rcases (by omega : count = 1 ∨ count = 2) with rfl | rfl
      · rw [wire]
        refine ⟨⟨remains.idles.suffix suffix, ['\n'], chunks, Or.inr rfl, ?_, data⟩, ?_⟩
        · dsimp only [Dechunker.ahead]
          rw [empty]
          rfl
        · dsimp only [Dechunker.effort]
          rw [wire]
          simp only [List.drop_succ_cons, List.drop_zero, List.length_cons]
          omega
      · rw [wire]
        refine ⟨⟨remains.idles.suffix suffix, [], chunks, Or.inl rfl, ?_, data⟩, ?_⟩
        · dsimp only [Dechunker.ahead]
          rw [empty]
          rfl
        · dsimp only [Dechunker.effort]
          rw [wire]
          simp only [List.drop_succ_cons, List.drop_zero, List.length_cons]
          omega
    · refine absurd ?_ (unbroken phase empty)
      rw [Dechunker.NextFails, ← polled]
      trivial
  · rw [if_neg empty]
    rcases buf : state.buf with _ | ⟨first, _ | ⟨second, buf'⟩⟩
    · exact absurd buf empty
    · rw [Dechunker.ahead, buf] at ahead
      injection ahead with _ wire
      have dropped : [first].drop (min 2 [first].length) = [] := rfl
      rw [dropped]
      refine ⟨⟨remains.idles, ['\n'], chunks, Or.inr rfl, wire, data⟩, ?_⟩
      dsimp only [Dechunker.effort]
      rw [buf]
      simp only [List.length_cons, List.length_nil]
      omega
    · rw [Dechunker.ahead, buf] at ahead
      injection ahead with _ ahead
      injection ahead with _ wire
      have two : min 2 (first :: second :: buf').length = 2 := Nat.min_eq_left (by simp)
      rw [two]
      refine ⟨⟨remains.idles, [], chunks, Or.inl rfl, wire, data⟩, ?_⟩
      dsimp only [Dechunker.effort]
      rw [buf]
      simp only [List.drop_succ_cons, List.drop_zero, List.length_cons]
      omega

theorem trailers_meets (remains : Remains body rest state) (phase : state.phase = .trailers) :
    state.readTrailers.Meets (Remains body rest) Dechunker.effort (Decoded body rest)
      state.effort := by
  have standing := remains.standing
  rw [phase] at standing
  rcases standing with ⟨ahead, out⟩
  rcases body.trailerSection_eq with ⟨first, more, section', unbroken, none⟩
  have split : state.buf ++ state.incoming.wire = first ++ cr :: lf :: (more ++ rest) := by
    rw [← Dechunker.ahead, ahead, section']
    simp only [List.append_assoc, crlf, List.cons_append, List.nil_append]
  unfold Dechunker.readTrailers
  by_cases started : crlf <+: state.buf
  · rw [if_pos started]
    refine ⟨congrArg Except.ok out, ?_⟩
    intro noTrailers
    rcases started with ⟨buf, whole⟩
    rw [(none noTrailers).1, (none noTrailers).2, ← whole] at split
    dsimp only [Dechunker.ahead]
    rw [← whole]
    injection split with _ split
    injection split
  · rw [if_neg started]
    rcases findSubsequence_front unbroken split with
      ⟨searched, incomplete⟩ | ⟨buf, whole, left, found⟩
    · rw [crlf, searched]
      exact remains.fetch_meets (more_of_incomplete split incomplete) _ _
    · rw [crlf, found]
      refine ⟨congrArg Except.ok out, ?_⟩
      intro noTrailers
      rw [(none noTrailers).1] at whole
      refine absurd ⟨buf, ?_⟩ started
      exact whole.symm

/-- Every iteration carries the invariant on or returns what it should. -/
theorem turn_meets (remains : Remains body rest state)
    (limit : body.data.length ≤ maxResponseBodyBytes) (short : state.Short)
    (unbroken : state.Unbroken) :
    (Dechunker.turn (fun _ => false) state).Meets (Remains body rest) Dechunker.effort
      (Decoded body rest) state.effort := by
  unfold Dechunker.turn
  cases phase : state.phase with
  | sizeLine => exact remains.sizeLine_meets short limit phase
  | trailers => exact remains.trailers_meets phase
  | data target => exact remains.data_meets phase
  | dataEnd => exact remains.dataEnd_meets unbroken phase

end Remains

/-- However a body within the limit arrives, `read_chunked` returns its data and,
behind a body without trailer fields, leaves what follows it. -/
theorem readChunked_encode {body : ChunkedBody} {rest pending : List Byte} {incoming : Incoming}
    (sent : pending ++ incoming.wire = body.encode ++ rest) (idles : Idles incoming.polls)
    (limit : body.data.length ≤ maxResponseBodyBytes)
    (smooth : ∀ visit ∈ readChunkedVisits (fun _ => false) pending incoming,
      visit.Short ∧ visit.Unbroken) :
    ∃ state, readChunked (fun _ => false) pending incoming = some (.ok body.data, state) ∧
      (body.trailers = [] → state.ahead = rest) := by
  have initially : Remains body rest (Dechunker.initial pending incoming) := by
    refine ⟨idles, [], body.chunks, Or.inl rfl, ?_, rfl⟩
    refine sent.trans ?_
    simp only [ChunkedBody.encode, remaining, List.append_assoc]
    rfl
  rcases loop_returns_of_visits (Remains body rest) Dechunker.effort (Decoded body rest)
      (fun state remains condition => remains.turn_meets limit condition.1 condition.2)
      initially (Nat.lt_succ_self _) smooth with ⟨result, state, returned, rfl, left⟩
  exact ⟨state, returned, left⟩

/-- A body of one byte, with an extension of `letters` letters. -/
def exampleBody (letters : Nat) (trailers : List Trailer) : ChunkedBody where
  chunks := [⟨[88], ⟨['1'], semicolon :: List.replicate letters 97, by decide +kernel,
    Or.inr ⟨_, rfl⟩, by
      rw [List.mem_cons, not_or]
      exact ⟨by decide, fun member => absurd (List.eq_of_mem_replicate member) (by decide)⟩⟩,
    by decide⟩]
  last := ⟨['0'], [], by decide +kernel, Or.inl rfl, List.not_mem_nil⟩
  trailers := trailers

/-- Idle in every phase, the line end behind the data in two pieces, and two
bytes behind the body. -/
theorem readChunked_encode_idle :
    ∃ state, readChunked (fun _ => false) [49]
        ⟨[59, 97, 13, 10, 88, 13, 10, 48, 13, 10, 13, 10, 1, 2],
          [.gives 0, .fails ⟨.wouldBlock, ""⟩, .gives 3, .gives 0, .fails ⟨.timedOut, ""⟩,
            .gives 2, .fails ⟨.wouldBlock, ""⟩, .gives 1]⟩ =
      some (.ok [88], state) ∧ ((exampleBody 1 []).trailers = [] → state.ahead = [1, 2]) := by
  have idles : Idles [.gives 0, .fails ⟨.wouldBlock, ""⟩, .gives 3, .gives 0,
      .fails ⟨.timedOut, ""⟩, .gives 2, .fails ⟨.wouldBlock, ""⟩, .gives 1] := by
    intro error member
    simp only [List.mem_cons, reduceCtorEq, Poll.fails.injEq, List.not_mem_nil, or_false,
      false_or] at member
    rcases member with rfl | rfl | rfl <;> rfl
  exact @readChunked_encode (exampleBody 1 []) [1, 2] [49] _ (by decide +kernel) idles
    (by decide +kernel) (by decide +kernel)

/-- The data comes out and what follows the body is left. -/
def Restores (body : ChunkedBody) (rest pending : List Byte) (incoming : Incoming) : Prop :=
  ∃ state, readChunked (fun _ => false) pending incoming = some (.ok body.data, state) ∧
    state.ahead = rest

theorem not_restores {body : ChunkedBody} {rest pending : List Byte} {incoming : Incoming}
    (differs : (readChunked (fun _ => false) pending incoming).map
        (fun outcome => (outcome.1.toOption, outcome.2.ahead)) ≠ some (some body.data, rest)) :
    ¬ Restores body rest pending incoming := by
  rintro ⟨state, returned, left⟩
  rw [returned, ← left] at differs
  exact differs rfl

/-- A size line of more than a kilobyte that arrives in two pieces, an idle poll
between the data of a chunk and its line end, and a trailer field. -/
theorem readChunked_depends_on_arrival :
    ¬ Restores (exampleBody 1100 []) [] ((exampleBody 1100 []).encode.take 1050)
      ⟨(exampleBody 1100 []).encode.drop 1050, []⟩ ∧
    ¬ Restores (exampleBody 0 []) [] ((exampleBody 0 []).encode.take 5)
      ⟨(exampleBody 0 []).encode.drop 5, [.fails ⟨.wouldBlock, ""⟩]⟩ ∧
    ¬ Restores (exampleBody 0 [⟨[88, 58, 49], by decide, by decide⟩]) []
      (exampleBody 0 [⟨[88, 58, 49], by decide, by decide⟩]).encode ⟨[], []⟩ := by
  refine ⟨not_restores ?_, not_restores ?_, not_restores ?_⟩ <;> decide +kernel

end Corduit.Engine.Inbound.Forward
