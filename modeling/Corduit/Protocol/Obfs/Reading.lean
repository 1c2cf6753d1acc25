import Corduit.Protocol.Obfs.Core
import Corduit.Transport.Cut

/-!
# What the reader makes of the bytes

The reader's counters and the bytes still to come determine what it will
deliver and how it will end, whatever the schedule.  `Outlook` says how, and
every read keeps to it.
-/

namespace Corduit.Protocol.Obfs

open Transport Word

/-- The text and the ending that the counters make of the bytes to come: the
payload that is owed comes first, then bytes are skipped, then a length is
read. -/
inductive Outlook : (payload skip : Nat) → (first : Bool) → (assembled wire text : List Byte) →
    (clean : Bool) → Prop where
  | owes {payload skip : Nat} {first : Bool} {assembled wire text : List Byte} {clean : Bool}
      (short : wire.length < payload) (same : text = wire) (broken : clean = false) :
      Outlook payload skip first assembled wire text clean
  | pays {payload skip : Nat} {first : Bool} {assembled wire text bytes wire' text' : List Byte}
      {clean : Bool} (owed : 0 < payload) (all : bytes.length = payload)
      (split : wire = bytes ++ wire') (delivered : text = bytes ++ text')
      (later : Outlook 0 skip first assembled wire' text' clean) :
      Outlook payload skip first assembled wire text clean
  | closed {payload skip : Nat} {first : Bool} {assembled wire text : List Byte} {clean : Bool}
      (paid : payload = 0) (fresh : assembled = []) (short : wire.length ≤ skip)
      (none : text = []) (spent : clean = true) :
      Outlook payload skip first assembled wire text clean
  | skips {payload skip : Nat} {first : Bool} {assembled wire text bytes wire' : List Byte}
      {clean : Bool} (paid : payload = 0) (some : 0 < skip) (all : bytes.length = skip)
      (split : wire = bytes ++ wire') (later : Outlook 0 0 first assembled wire' text clean) :
      Outlook payload skip first assembled wire text clean
  | short {payload skip : Nat} {first : Bool} {assembled wire text : List Byte} {clean : Bool}
      (paid : payload = 0) (skipped : skip = 0) (half : assembled.length + wire.length = 1)
      (none : text = []) (broken : clean = false) :
      Outlook payload skip first assembled wire text clean
  | opens {payload skip : Nat} {first : Bool} {assembled wire text length wire' : List Byte}
      {clean : Bool} (paid : payload = 0) (skipped : skip = 0) (two : length.length = 2)
      (split : assembled ++ wire = length ++ wire')
      (later : Outlook (ofBeBytes length) (if first then tlsObfsRecordPrefix else 0) false [] wire'
        text clean) :
      Outlook payload skip first assembled wire text clean

namespace Outlook

variable {skip : Nat} {first : Bool} {assembled wire text bytes : List Byte} {clean : Bool}

theorem pay {payload : Nat} (all : bytes.length = payload)
    (later : Outlook 0 skip first assembled wire text clean) :
    Outlook payload skip first assembled (bytes ++ wire) (bytes ++ text) clean := by
  rcases Nat.eq_zero_or_pos payload with rfl | owed
  · rw [List.length_eq_zero_iff.mp all]
    exact later
  · exact pays owed all rfl rfl later

theorem skipped (all : bytes.length = skip)
    (later : Outlook 0 0 first assembled wire text clean) :
    Outlook 0 skip first assembled (bytes ++ wire) text clean := by
  rcases Nat.eq_zero_or_pos skip with rfl | some
  · rw [List.length_eq_zero_iff.mp all]
    exact later
  · exact skips rfl some all rfl later

variable {payload : Nat} {rest : List Byte}

theorem of_owed (outlook : Outlook payload skip first assembled wire text clean)
    (owed : 0 < payload) :
    (wire.length < payload ∧ text = wire ∧ clean = false) ∨
      ∃ bytes wire' text', bytes.length = payload ∧ wire = bytes ++ wire' ∧ text = bytes ++ text' ∧
        Outlook 0 skip first assembled wire' text' clean := by
  cases outlook with
  | owes short same broken => exact .inl ⟨short, same, broken⟩
  | pays _ all split delivered later => exact .inr ⟨_, _, _, all, split, delivered, later⟩
  | closed paid => exact absurd paid (Nat.ne_of_gt owed)
  | skips paid => exact absurd paid (Nat.ne_of_gt owed)
  | short paid => exact absurd paid (Nat.ne_of_gt owed)
  | opens paid => exact absurd paid (Nat.ne_of_gt owed)

theorem of_skipping (outlook : Outlook 0 skip first assembled wire text clean) (some : 0 < skip) :
    (assembled = [] ∧ wire.length ≤ skip ∧ text = [] ∧ clean = true) ∨
      ∃ bytes wire', bytes.length = skip ∧ wire = bytes ++ wire' ∧
        Outlook 0 0 first assembled wire' text clean := by
  cases outlook with
  | owes short => exact absurd short (Nat.not_lt_zero _)
  | pays owed => exact absurd owed (Nat.lt_irrefl 0)
  | closed _ fresh short none spent => exact .inl ⟨fresh, short, none, spent⟩
  | skips _ _ all split later => exact .inr ⟨_, _, all, split, later⟩
  | short _ skipped => exact absurd skipped (Nat.ne_of_gt some)
  | opens _ skipped => exact absurd skipped (Nat.ne_of_gt some)

/-- Between records the stream ends, breaks off inside a length, or goes on with one. -/
theorem of_between (outlook : Outlook 0 0 first assembled wire text clean) :
    (assembled = [] ∧ wire = [] ∧ text = [] ∧ clean = true) ∨
      (assembled.length + wire.length = 1 ∧ text = [] ∧ clean = false) ∨
      ∃ length wire', length.length = 2 ∧ assembled ++ wire = length ++ wire' ∧
        Outlook (ofBeBytes length) (if first then tlsObfsRecordPrefix else 0) false [] wire' text
          clean := by
  cases outlook with
  | owes short => exact absurd short (Nat.not_lt_zero _)
  | pays owed => exact absurd owed (Nat.lt_irrefl 0)
  | closed _ fresh short none spent =>
      exact .inl ⟨fresh, List.length_eq_zero_iff.mp (Nat.le_zero.mp short), none, spent⟩
  | skips _ some => exact absurd some (Nat.lt_irrefl 0)
  | short _ _ half none broken => exact .inr (.inl ⟨half, none, broken⟩)
  | opens _ _ two split later => exact .inr (.inr ⟨_, _, two, split, later⟩)

theorem split_within {wire' : List Byte} (split : bytes ++ wire = rest ++ wire')
    (within : bytes.length ≤ rest.length) :
    ∃ middle, rest = bytes ++ middle ∧ wire = middle ++ wire' := by
  rcases List.prefix_of_prefix_length_le ⟨wire, split⟩ ⟨wire', rfl⟩ within with ⟨middle, rfl⟩
  rw [List.append_assoc] at split
  exact ⟨middle, rfl, List.append_cancel_left split⟩

theorem take_payload (outlook : Outlook payload skip first assembled (bytes ++ wire) text clean)
    (owed : 0 < payload) (within : bytes.length ≤ payload) :
    ∃ text', text = bytes ++ text' ∧
      Outlook (payload - bytes.length) skip first assembled wire text' clean := by
  rcases outlook.of_owed owed with ⟨short, same, broken⟩ | ⟨front, wire', text', all, split, same, later⟩
  · rw [List.length_append] at short
    exact ⟨wire, same, owes (by omega) rfl broken⟩
  · rcases split_within split (all ▸ within) with ⟨middle, rfl, rfl⟩
    refine ⟨middle ++ text', same.trans (List.append_assoc _ _ _), pay ?_ later⟩
    rw [← all, List.length_append, Nat.add_sub_cancel_left]

theorem take_skipped (outlook : Outlook 0 skip first assembled (bytes ++ wire) text clean)
    (some : 0 < skip) (within : bytes.length ≤ skip) :
    Outlook 0 (skip - bytes.length) first assembled wire text clean := by
  rcases outlook.of_skipping some with ⟨fresh, short, none, spent⟩ | ⟨front, wire', all, split, later⟩
  · rw [List.length_append] at short
    exact closed rfl fresh (by omega) none spent
  · rcases split_within split (all ▸ within) with ⟨middle, rfl, rfl⟩
    apply skipped _ later
    rw [← all, List.length_append, Nat.add_sub_cancel_left]

theorem take_length (outlook : Outlook 0 0 first assembled (bytes ++ wire) text clean)
    (some : bytes ≠ []) : Outlook 0 0 first (assembled ++ bytes) wire text clean := by
  rcases outlook.of_between with ⟨_, empty, _⟩ | ⟨half, none, broken⟩ | ⟨length, wire', two, split, later⟩
  · exact absurd (List.append_eq_nil_iff.mp empty).1 some
  · refine short rfl rfl ?_ none broken
    rwa [List.length_append, Nat.add_assoc, ← List.length_append]
  · exact opens rfl rfl two ((List.append_assoc _ _ _).trans split) later

theorem exists_of_wire (payload : Nat) (wire : List Byte) :
    ∃ text clean, Outlook payload 0 false [] wire text clean := by
  induction length : wire.length using Nat.strongRecOn generalizing payload wire with
  | ind size ih =>
      -- Behind the payload a length takes two bytes of the wire.
      have next : ∀ wire : List Byte, wire.length ≤ size →
          ∃ text clean, Outlook 0 0 false [] wire text clean := by
        intro wire bounded
        rcases wire with _ | ⟨high, _ | ⟨low, wire⟩⟩
        · exact ⟨[], true, closed rfl rfl (Nat.le_refl 0) rfl rfl⟩
        · exact ⟨[], false, short rfl rfl rfl rfl rfl⟩
        · rw [List.length_cons, List.length_cons] at bounded
          rcases ih wire.length (by omega) (ofBeBytes [high, low]) wire rfl with
            ⟨text, clean, outlook⟩
          exact ⟨text, clean, @opens _ _ _ _ _ _ [high, low] wire _ rfl rfl rfl rfl outlook⟩
      rcases Nat.lt_or_ge wire.length payload with short | enough
      · exact ⟨wire, false, owes short rfl rfl⟩
      · have shorter : (wire.drop payload).length ≤ size := by
          rw [List.length_drop, length]
          exact Nat.sub_le _ _
        rcases next (wire.drop payload) shorter with ⟨text, clean, outlook⟩
        have split := List.take_append_drop payload wire
        refine ⟨wire.take payload ++ text, clean, ?_⟩
        have paid := pay (List.length_take_of_le enough) outlook
        rwa [split] at paid

end Outlook

namespace TlsObfsStream

/-- The stream has a text and an ending ahead. -/
structure Ahead (stream : TlsObfsStream) (text : List Byte) (clean : Bool) : Prop where
  two : stream.lengthBytes.bytes.length = 2
  fits : stream.lengthBytes.Fits
  idles : Idles stream.incoming.polls
  outlook : Outlook stream.payloadRemaining stream.skipRemaining stream.firstRecord
    stream.lengthBytes.assembled stream.incoming.wire text clean

/-- The polls still to come. -/
def polls (stream : TlsObfsStream) : Nat :=
  stream.incoming.polls.length

variable {stream : TlsObfsStream} {text : List Byte} {clean : Bool} {room : Nat}

/-- What an iteration has to do. -/
abbrev Turns (stream : TlsObfsStream) (text : List Byte) (clean : Bool) (room : Nat) : Prop :=
  (turn room stream).Meets (fun later => later.Ahead text clean ∧ later.polls ≤ stream.polls) effort
    (fun answer later => Told Ahead polls text clean room stream.polls answer later) stream.effort

theorem Ahead.idled (ahead : stream.Ahead text clean) {error : IoError} {rest : List Poll}
    (polled : Poll.fails error :: rest = stream.incoming.polls) :
    Told Ahead polls text clean room stream.polls (.error error)
      { stream with incoming := ⟨stream.incoming.wire, rest⟩ } := by
  refine Told.idles (ahead.idles error (polled ▸ List.mem_cons_self)) ⟨ahead.two, ahead.fits,
    ahead.idles.suffix (polled ▸ List.suffix_cons _ _), ahead.outlook⟩ ?_
  rw [polls, polls, ← polled]
  exact Nat.lt_succ_self _

theorem polls_le {rest : List Poll} (fewer : rest <:+ stream.incoming.polls) {later : TlsObfsStream}
    (same : later.incoming.polls = rest) : later.polls ≤ stream.polls := by
  rw [polls, polls, same]
  exact fewer.length_le

theorem Ahead.spent (ahead : stream.Ahead text clean) (empty : stream.incoming.wire = [])
    {rest : List Poll} (fewer : rest <:+ stream.incoming.polls) :
    Ahead { stream with incoming := ⟨[], rest⟩ } text clean :=
  ⟨ahead.two, ahead.fits, ahead.idles.suffix fewer, empty ▸ ahead.outlook⟩

theorem turns_payload (ahead : stream.Ahead text clean) (some : room ≠ 0)
    (owed : 0 < stream.payloadRemaining) : stream.Turns text clean room := by
  have outlook := ahead.outlook
  unfold Turns turn
  rw [if_pos owed]
  rcases stream.incoming.read_outcomes (Nat.lt_min.mpr ⟨Nat.pos_of_ne_zero some, owed⟩) with
    ⟨polls, empty, read, fewer⟩ | ⟨byte, bytes, wire, polls, split, within, read, fewer⟩ |
    ⟨error, rest, read, polled⟩
  · rw [read]
    rw [empty] at outlook
    rcases outlook.of_owed owed with ⟨_, same, broken⟩ | ⟨front, _, _, all, none, _⟩
    · exact Told.breaks rfl same broken (ahead.spent empty fewer) (polls_le fewer rfl)
    · rw [(List.append_eq_nil_iff.mp none.symm).1] at all
      exact absurd all (Nat.ne_of_lt owed)
  · have inRoom := Nat.le_trans within (Nat.min_le_left _ _)
    have inPayload := Nat.le_trans within (Nat.min_le_right _ _)
    rw [read]
    rw [split] at outlook
    rcases outlook.take_payload owed inPayload with ⟨text', delivered, later⟩
    exact Told.gives delivered inRoom (fun none => absurd none (List.cons_ne_nil _ _))
      ⟨ahead.two, ahead.fits, ahead.idles.suffix fewer, later⟩ (polls_le fewer rfl)
  · rw [read]
    exact ahead.idled polled

section

variable (ahead : stream.Ahead text clean) (paid : stream.payloadRemaining = 0)

include ahead paid

theorem turns_skip (some : 0 < stream.skipRemaining) : stream.Turns text clean room := by
  have outlook := ahead.outlook
  rw [paid] at outlook
  unfold Turns turn
  rw [if_neg (Nat.not_lt.mpr (Nat.le_of_eq paid)), if_pos some]
  rcases stream.incoming.read_outcomes (Nat.lt_min.mpr ⟨some, by decide⟩ :
      0 < min stream.skipRemaining 64) with
    ⟨polls, empty, read, fewer⟩ | ⟨byte, bytes, wire, polls, split, within, read, fewer⟩ |
    ⟨error, rest, read, polled⟩
  · rw [read]
    rw [empty] at outlook
    rcases outlook.of_skipping some with ⟨_, _, none, spent⟩ | ⟨front, _, all, none, _⟩
    · exact Told.gives (List.nil_append text).symm (Nat.zero_le _) (fun _ => Or.inr ⟨none, spent⟩)
        (ahead.spent empty fewer) (polls_le fewer rfl)
    · rw [(List.append_eq_nil_iff.mp none.symm).1] at all
      exact absurd all (Nat.ne_of_lt some)
  · rw [read]
    rw [split] at outlook
    have later := outlook.take_skipped some (Nat.le_trans within (Nat.min_le_left _ _))
    rw [← paid] at later
    refine ⟨⟨⟨ahead.two, ahead.fits, ahead.idles.suffix fewer, later⟩, polls_le fewer rfl⟩, ?_⟩
    have shorter := fewer.length_le
    dsimp only [effort]
    rw [split, List.length_append, List.length_cons]
    omega
  · rw [read]
    exact ahead.idled polled

theorem turns_length (skipped : stream.skipRemaining = 0)
    (half : stream.lengthBytes.filled < stream.lengthBytes.bytes.length) :
    stream.Turns text clean room := by
  have outlook := ahead.outlook
  rw [paid, skipped] at outlook
  have assembled := stream.lengthBytes.length_assembled ahead.fits
  have two := ahead.two
  unfold Turns turn
  rw [if_neg (Nat.not_lt.mpr (Nat.le_of_eq paid)), if_neg (Nat.not_lt.mpr (Nat.le_of_eq skipped)),
    if_pos half]
  rcases stream.incoming.read_outcomes (Nat.sub_pos_of_lt half) with
    ⟨polls, empty, read, fewer⟩ | ⟨byte, bytes, wire, polls, split, within, read, fewer⟩ |
    ⟨error, rest, read, polled⟩
  · rw [read]
    dsimp only
    rw [empty] at outlook
    rcases outlook.of_between with ⟨fresh, _, none, spent⟩ | ⟨one, none, broken⟩ |
      ⟨length, wire', two', same, _⟩
    · rw [if_pos (by rw [← assembled, fresh, List.length_nil])]
      exact Told.gives (List.nil_append text).symm (Nat.zero_le _) (fun _ => Or.inr ⟨none, spent⟩)
        (ahead.spent empty fewer) (polls_le fewer rfl)
    · rw [List.length_nil, assembled] at one
      rw [if_neg (by omega)]
      exact Told.breaks rfl none broken (ahead.spent empty fewer) (polls_le fewer rfl)
    · have lengths := congrArg List.length same
      rw [List.append_nil, List.length_append, assembled] at lengths
      omega
  · rw [read]
    rw [split] at outlook
    have later := outlook.take_length (List.cons_ne_nil _ _)
    have inside : stream.lengthBytes.filled + (byte :: bytes).length ≤
        stream.lengthBytes.bytes.length := by
      rw [List.length_cons]
      omega
    have same := Scratch.length_extend inside
    rw [← Scratch.assembled_extend ahead.fits] at later
    refine ⟨⟨⟨same.trans two, ?_, ahead.idles.suffix fewer, ?_⟩, polls_le fewer rfl⟩, ?_⟩
    · rw [Scratch.Fits, same]
      exact inside
    · dsimp only
      rw [paid, skipped]
      exact later
    · have shorter := fewer.length_le
      dsimp only [effort, Scratch.extend]
      rw [split, List.length_append, List.length_cons]
      omega
  · rw [read]
    exact ahead.idled polled

theorem turns_open (skipped : stream.skipRemaining = 0)
    (full : ¬ stream.lengthBytes.filled < stream.lengthBytes.bytes.length) :
    stream.Turns text clean room := by
  have outlook := ahead.outlook
  rw [paid, skipped] at outlook
  unfold Turns turn
  rw [if_neg (Nat.not_lt.mpr (Nat.le_of_eq paid)), if_neg (Nat.not_lt.mpr (Nat.le_of_eq skipped)),
    if_neg full]
  have whole : stream.lengthBytes.filled = stream.lengthBytes.bytes.length :=
    Nat.le_antisymm ahead.fits (Nat.le_of_not_lt full)
  have two := ahead.two
  rw [Scratch.assembled_of_full whole] at outlook
  have later : Outlook (ofBeBytes stream.lengthBytes.bytes)
      (if stream.firstRecord then tlsObfsRecordPrefix else stream.skipRemaining) false []
      stream.incoming.wire text clean := by
    rcases outlook.of_between with ⟨fresh, _⟩ | ⟨one, _⟩ | ⟨length, wire', two', split, outlook⟩
    · rw [fresh] at two
      exact absurd two nofun
    · omega
    · rcases List.append_inj split (two.trans two'.symm) with ⟨rfl, rfl⟩
      rw [skipped]
      exact outlook
  have less : ∀ payload, effort { stream with
      lengthBytes := ⟨stream.lengthBytes.bytes, 0⟩
      firstRecord := false
      skipRemaining := if stream.firstRecord then tlsObfsRecordPrefix else stream.skipRemaining
      payloadRemaining := payload } < stream.effort := by
    intro payload
    dsimp only [effort]
    omega
  dsimp only
  by_cases nothing : ofBeBytes stream.lengthBytes.bytes = 0
  · rw [if_pos nothing]
    refine ⟨⟨⟨two, Nat.zero_le _, ahead.idles, ?_⟩, Nat.le_refl _⟩, less _⟩
    dsimp only
    rw [paid, Scratch.assembled_zero, ← nothing]
    exact later
  · rw [if_neg nothing]
    exact ⟨⟨⟨two, Nat.zero_le _, ahead.idles, later⟩, Nat.le_refl _⟩, less _⟩

end

/-- Every read tells what is ahead. -/
theorem read_told (stream : TlsObfsStream) (text : List Byte) (clean : Bool) (room : Nat)
    (ahead : stream.Ahead text clean) : ∃ answer later, stream.read room = some (answer, later) ∧
      Told Ahead polls text clean room stream.polls answer later := by
  unfold read
  by_cases nothing : room = 0
  · rw [if_pos nothing]
    exact ⟨_, _, rfl, Told.gives rfl (Nat.zero_le _) (fun _ => Or.inl nothing) ahead (Nat.le_refl _)⟩
  · rw [if_neg nothing]
    refine loop_returns (fun later => later.Ahead text clean ∧ later.polls ≤ stream.polls) effort
      (fun answer later => Told Ahead polls text clean room stream.polls answer later) ?_
      ⟨ahead, Nat.le_refl _⟩ (Nat.lt_succ_self _)
    rintro state ⟨ahead, fewer⟩
    have turns : state.Turns text clean room := by
      rcases Nat.eq_zero_or_pos state.payloadRemaining with paid | owed
      · rcases Nat.eq_zero_or_pos state.skipRemaining with skipped | some
        · by_cases half : state.lengthBytes.filled < state.lengthBytes.bytes.length
          · exact turns_length ahead paid skipped half
          · exact turns_open ahead paid skipped half
        · exact turns_skip ahead paid some
      · exact turns_payload ahead nothing owed
    unfold Turns at turns
    cases took : turn room state with
    | again later =>
        rw [took] at turns
        exact ⟨⟨turns.1.1, Nat.le_trans turns.1.2 fewer⟩, turns.2⟩
    | returns answer later =>
        rw [took] at turns
        cases turns with
        | gives split fits some later used =>
            exact Told.gives split fits some later (Nat.le_trans used fewer)
        | idles elapsed later used => exact Told.idles elapsed later (Nat.lt_of_lt_of_le used fewer)
        | breaks other none broken later used =>
            exact Told.breaks other none broken later (Nat.le_trans used fewer)

theorem session_tells (ahead : stream.Ahead text clean) (rooms : List Nat) :
    ∃ answers later, session read stream rooms = some (answers, later) ∧
      Tells clean stream.polls rooms answers text :=
  tells read_told ahead rooms

end TlsObfsStream

end Corduit.Protocol.Obfs
