import Corduit.Transport.Poll

/-!
# Reading up to a deadline

A buffer is filled by reading until it is full, and a read that runs out of
time is repeated until the deadline is over.  The clock is how far the schedule
has got.  While the bytes are there, whether buffers are filled in time depends
on their sizes and on the schedule alone: `arrives` says when they are.

An action that reads such buffers takes a text when it ends behind the text if
the text arrives, and fails in front of its end otherwise.  Actions that take
one text after the other take the texts together.
-/

namespace Corduit.Transport

open Word

/-- Reads of a transport, one after the other, up to the first error. -/
abbrev Reading (α : Type) :=
  ExceptT IoError (StateM Incoming) α

theorem Reading.bind_apply {α β : Type} (action : Reading α) (next : α → Reading β)
    (incoming : Incoming) :
    (action >>= next) incoming =
      match action incoming with
      | (.ok value, incoming') => next value incoming'
      | (.error error, incoming') => (.error error, incoming') := by
  change (ExceptT.bindCont next (action incoming).1 : StateM Incoming _) (action incoming).2 = _
  rcases action incoming with ⟨_ | _, _⟩ <;> rfl

variable (late : List Poll → Bool)

namespace Incoming

/-- A read that gives something may use up a poll, and a read that fails uses one up. -/
theorem length_polls_read {incoming incoming' : Incoming} {room : Nat} (positive : 0 < room)
    {result : Except IoError (List Byte)} (read : incoming.read room = (result, incoming')) :
    incoming'.polls.length ≤ incoming.polls.length ∧
      (result.isOk = false → incoming'.polls.length < incoming.polls.length) := by
  rcases incoming.read_cases positive with
    ⟨_, polls, read', _, _, suffix⟩ | ⟨_, polls, read', same⟩
  · rw [read'] at read
    cases read
    exact ⟨suffix.length_le, fun failed => nomatch failed⟩
  · rw [read'] at read
    cases read
    rw [← same]
    exact ⟨Nat.le_succ _, fun _ => Nat.lt_succ_self _⟩

end Incoming

/-- `read_exact_deadline`; `late` says whether the deadline is over. -/
def readExactDeadline (want : Nat) : Reading (List Byte) := fun incoming =>
  if _zero : want = 0 then (.ok [], incoming)
  else
    match _read : incoming.read want with
    | (.ok [], incoming') => (.error ⟨.unexpectedEof, "unexpected EOF"⟩, incoming')
    | (.ok (byte :: bytes), incoming') =>
        match readExactDeadline (want - (bytes.length + 1)) incoming' with
        | (.ok more, incoming'') => (.ok (byte :: bytes ++ more), incoming'')
        | (.error error, incoming'') => (.error error, incoming'')
    | (.error error, incoming') =>
        if error.kind.isReadIntervalElapsed then
          if late incoming'.polls then (.error ⟨.timedOut, "read timed out"⟩, incoming')
          else readExactDeadline want incoming'
        else (.error error, incoming')
termination_by incoming => want + incoming.polls.length
decreasing_by
  · have fewer := Incoming.length_polls_read (Nat.pos_of_ne_zero _zero) _read
    omega
  · have fewer := Incoming.length_polls_read (Nat.pos_of_ne_zero _zero) _read
    have less := fewer.2 rfl
    omega

theorem readExactDeadline_zero (incoming : Incoming) :
    readExactDeadline late 0 incoming = (.ok [], incoming) := by
  rw [readExactDeadline]
  simp

theorem readExactDeadline_gives {want : Nat} {incoming incoming' : Incoming} {bytes : List Byte}
    (read : incoming.read want = (.ok bytes, incoming')) (some : bytes ≠ [])
    (positive : want ≠ 0) :
    readExactDeadline late want incoming =
      match readExactDeadline late (want - bytes.length) incoming' with
      | (.ok more, incoming'') => (.ok (bytes ++ more), incoming'')
      | (.error error, incoming'') => (.error error, incoming'') := by
  rw [readExactDeadline, dif_neg positive]
  split
  case h_1 _ read' =>
    rw [read] at read'
    cases read'
    exact absurd rfl some
  case h_2 _ _ _ read' =>
    rw [read] at read'
    cases read'
    rfl
  case h_3 _ _ read' =>
    rw [read] at read'
    cases read'

theorem readExactDeadline_fails {want : Nat} {incoming incoming' : Incoming} {error : IoError}
    (read : incoming.read want = (.error error, incoming')) (positive : want ≠ 0) :
    readExactDeadline late want incoming =
      if error.kind.isReadIntervalElapsed then
        if late incoming'.polls then (.error ⟨.timedOut, "read timed out"⟩, incoming')
        else readExactDeadline late want incoming'
      else (.error error, incoming') := by
  rw [readExactDeadline, dif_neg positive]
  split
  case h_1 _ read' =>
    rw [read] at read'
    cases read'
  case h_2 _ _ _ read' =>
    rw [read] at read'
    cases read'
  case h_3 _ _ read' =>
    rw [read] at read'
    cases read'
    rfl

/-- What is left of the schedule when the bytes for a buffer have come, if they come in time. -/
def arrive : List Poll → Nat → Option (List Poll)
  | [], _ => some []
  | poll :: polls, want =>
      if want = 0 then some (poll :: polls)
      else
        match poll with
        | .gives more => arrive polls (want - min (more + 1) want)
        | .fails error =>
            if error.kind.isReadIntervalElapsed && !late polls then arrive polls want else none

/-- The same for buffers of these sizes, one after the other. -/
def arrives (polls : List Poll) (sizes : List Nat) : Option (List Poll) :=
  sizes.foldlM (arrive late) polls

theorem arrives_append (polls : List Poll) (sizes sizes' : List Nat) :
    arrives late polls (sizes ++ sizes') =
      (arrives late polls sizes).bind fun later => arrives late later sizes' := by
  rw [arrives, List.foldlM_append]
  rfl

theorem arrives_cons (polls : List Poll) (size : Nat) (sizes : List Nat) :
    arrives late polls (size :: sizes) =
      (arrive late polls size).bind fun later => arrives late later sizes := by
  rw [arrives, List.foldlM_cons]
  rfl

/-- The action reads `bytes` in buffers of these sizes for a value: it ends behind them when they
arrive in time, and otherwise it fails before their end. -/
def Takes {α : Type} (action : Reading α) (sizes : List Nat) (bytes : List Byte) (value : α) :
    Prop :=
  ∀ polls rest,
    (∃ later, arrives late polls sizes = some later ∧
      action ⟨bytes ++ rest, polls⟩ = (.ok value, ⟨rest, later⟩)) ∨
    (arrives late polls sizes = none ∧ ∃ error behind later,
      action ⟨bytes ++ rest, polls⟩ = (.error error, ⟨behind ++ rest, later⟩) ∧
        behind ≠ [] ∧ behind <:+ bytes)

variable {late}

theorem Takes.pure {α : Type} (value : α) : Takes late (pure value) [] [] value :=
  fun polls _ => Or.inl ⟨polls, rfl, rfl⟩

theorem Takes.bind {α β : Type} {action : Reading α} {next : α → Reading β}
    {sizes sizes' : List Nat} {bytes bytes' : List Byte} {value : α} {value' : β}
    (first : Takes late action sizes bytes value)
    (second : Takes late (next value) sizes' bytes' value') :
    Takes late (action >>= next) (sizes ++ sizes') (bytes ++ bytes') value' := by
  intro polls rest
  rw [List.append_assoc, arrives_append, Reading.bind_apply]
  rcases first polls (bytes' ++ rest) with
    ⟨between, came, took⟩ | ⟨lost, error, behind, later, failed, left, suffix⟩
  · rw [came, took]
    rcases second between rest with
      ⟨later, came', took'⟩ | ⟨lost, error, behind, later, failed, left, suffix⟩
    · exact Or.inl ⟨later, came', took'⟩
    · exact Or.inr ⟨lost, error, behind, later, failed, left,
        suffix.trans (List.suffix_append bytes bytes')⟩
  · rw [lost, failed]
    right
    constructor
    · rfl
    · refine ⟨error, behind ++ bytes', later, ?_, ?_, ?_⟩
      · rw [List.append_assoc]
      · exact List.append_ne_nil_of_left_ne_nil left bytes'
      · rcases suffix with ⟨before, rfl⟩
        exact ⟨before, (List.append_assoc before behind bytes').symm⟩

theorem takes_readExactDeadline (block : List Byte) :
    Takes late (readExactDeadline late block.length) [block.length] block block := by
  intro polls rest
  have single : arrives late polls [block.length] = arrive late polls block.length := by
    simp [arrives]
  rw [single]
  clear single
  induction polls generalizing block with
  | nil =>
      by_cases empty : block = []
      · subst empty
        exact Or.inl ⟨[], rfl, readExactDeadline_zero late _⟩
      · have positive : block.length ≠ 0 := mt List.length_eq_zero_iff.mp empty
        have read : Incoming.read ⟨block ++ rest, []⟩ block.length = (.ok block, ⟨rest, []⟩) := by
          simp [Incoming.read]
        refine Or.inl ⟨[], rfl, ?_⟩
        rw [readExactDeadline_gives late read empty positive, Nat.sub_self,
          readExactDeadline_zero]
        simp
  | cons poll polls ih =>
      by_cases empty : block = []
      · subst empty
        exact Or.inl ⟨poll :: polls, by simp [arrive], readExactDeadline_zero late _⟩
      have positive : block.length ≠ 0 := mt List.length_eq_zero_iff.mp empty
      cases poll with
      | gives more =>
          rw [arrive, if_neg positive]
          have within : min (more + 1) block.length ≤ block.length := Nat.min_le_right _ _
          have some : 0 < min (more + 1) block.length := by omega
          generalize count_eq : min (more + 1) block.length = count at within some
          have read : Incoming.read ⟨block ++ rest, .gives more :: polls⟩ block.length =
              (.ok (block.take count), ⟨block.drop count ++ rest, polls⟩) := by
            simp [Incoming.read, count_eq, List.take_append_of_le_length within,
              List.drop_append_of_le_length within]
          have nonempty : block.take count ≠ [] := by
            simp [empty, Nat.ne_of_gt some]
          rw [readExactDeadline_gives late read nonempty positive, List.length_take_of_le within,
            ← List.length_drop]
          rcases ih (block.drop count) with
            ⟨later, came, took⟩ | ⟨lost, error, behind, later, failed, left, suffix⟩
          · rw [came, took]
            simp
          · rw [lost, failed]
            exact Or.inr ⟨rfl, error, behind, later, rfl, left,
              suffix.trans (List.drop_suffix count block)⟩
      | fails error =>
          rw [arrive, if_neg positive]
          rw [readExactDeadline_fails late (rfl : Incoming.read ⟨block ++ rest, _⟩ _ = _) positive]
          cases idle : error.kind.isReadIntervalElapsed with
          | false => exact Or.inr ⟨by simp, error, block, polls, by simp, empty, List.suffix_refl block⟩
          | true =>
              cases overdue : late polls with
              | true => exact Or.inr ⟨by simp, _, block, polls, rfl, empty, List.suffix_refl block⟩
              | false => simpa [overdue] using ih block

end Corduit.Transport
