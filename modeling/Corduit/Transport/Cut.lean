import Corduit.Transport.Session

/-!
# Transports that end early

Where the bytes of a transport end, a stream may be over or broken off.  It
tells which: behind its text it reports the end, or it fails.  What a session
tells determines both the text and the way in which it ended, once there are
enough reads.
-/

namespace Corduit.Transport

open Word

universe u

/-- The answers are the text, piece by piece, and at most so many idle answers
in between; behind the text comes the end of the stream, or, when it was broken
off, an error. -/
def Tells (clean : Bool) : Nat → List Nat → List Answer → List Byte → Prop
  | idles, room :: rooms, .ok bytes :: answers, text =>
      ∃ rest, text = bytes ++ rest ∧ bytes.length ≤ room ∧
        (bytes = [] → room = 0 ∨ (text = [] ∧ clean = true)) ∧ Tells clean idles rooms answers rest
  | idles, _ :: rooms, .error error :: answers, text =>
      if error.kind.isReadIntervalElapsed then
        ∃ fewer, idles = fewer + 1 ∧ Tells clean fewer rooms answers text
      else text = [] ∧ clean = false ∧ Tells clean idles rooms answers text
  | _, rooms, answers, _ => rooms = [] ∧ answers = []

theorem Tells.mono {clean : Bool} {idles more : Nat} {rooms : List Nat} {answers : List Answer}
    {text : List Byte} (tells : Tells clean idles rooms answers text) (fewer : idles ≤ more) :
    Tells clean more rooms answers text := by
  induction rooms generalizing idles more answers text with
  | nil =>
      cases answers with
      | nil => exact ⟨rfl, rfl⟩
      | cons answer answers => exact absurd tells.2 (List.cons_ne_nil _ _)
  | cons room rooms ih =>
      cases answers with
      | nil => exact absurd tells.1 (List.cons_ne_nil _ _)
      | cons answer answers =>
          cases answer with
          | ok bytes =>
              rcases tells with ⟨rest, split, fits, some, later⟩
              exact ⟨rest, split, fits, some, ih later fewer⟩
          | error error =>
              unfold Tells at tells ⊢
              by_cases elapsed : error.kind.isReadIntervalElapsed = true
              · rw [if_pos elapsed] at tells ⊢
                rcases tells with ⟨less, rfl, later⟩
                rcases Nat.exists_eq_add_of_le' (Nat.le_trans (Nat.le_add_left 1 less) fewer) with
                  ⟨most, rfl⟩
                exact ⟨most, rfl, ih later (Nat.le_of_succ_le_succ fewer)⟩
              · rw [if_neg elapsed] at tells ⊢
                exact ⟨tells.1, tells.2.1, ih tells.2.2 fewer⟩

/-- What a session without idle answers tells is told by it only. -/
theorem Tells.unique {clean clean' : Bool} {idles : Nat} {rooms : List Nat}
    {answers : List Answer} {first second : List Byte} (tells : Tells clean 0 rooms answers first)
    (tells' : Tells clean' idles rooms answers second) (room : ∀ room ∈ rooms, room ≠ 0)
    (enough : first.length + second.length < rooms.length) : first = second ∧ clean = clean' := by
  induction rooms generalizing answers first second with
  | nil => exact absurd enough (Nat.not_lt_zero _)
  | cons size rooms ih =>
      rw [List.forall_mem_cons] at room
      cases answers with
      | nil => exact absurd tells.1 (List.cons_ne_nil _ _)
      | cons answer answers =>
          cases answer with
          | error error =>
              unfold Tells at tells tells'
              split at tells
              · rcases tells with ⟨fewer, impossible, _⟩
                exact absurd impossible nofun
              · rw [if_neg ‹_›] at tells'
                rw [tells.1, tells'.1, tells.2.1, tells'.2.1]
                exact ⟨rfl, rfl⟩
          | ok bytes =>
              rcases tells with ⟨rest, rfl, _, ended, later⟩
              rcases tells' with ⟨rest', rfl, _, ended', later'⟩
              by_cases empty : bytes = []
              · rcases (ended empty).resolve_left room.1 with ⟨none, clean⟩
                rcases (ended' empty).resolve_left room.1 with ⟨none', clean'⟩
                rw [none, none', clean, clean']
                exact ⟨rfl, rfl⟩
              · have some := List.length_pos_iff.mpr empty
                rw [List.length_append, List.length_append, List.length_cons] at enough
                rcases ih later later' room.2 (by omega) with ⟨same, same'⟩
                exact ⟨congrArg (bytes ++ ·) same, same'⟩

section Session

variable {σ : Type u}

/-- One read of a stream with a text and a way to end ahead. -/
inductive Told (ahead : σ → List Byte → Bool → Prop) (polls : σ → Nat) (text : List Byte)
    (clean : Bool) (room before : Nat) : Answer → σ → Prop where
  | gives {bytes rest : List Byte} {state : σ} (split : text = bytes ++ rest)
      (fits : bytes.length ≤ room) (some : bytes = [] → room = 0 ∨ (text = [] ∧ clean = true))
      (later : ahead state rest clean) (used : polls state ≤ before) :
      Told ahead polls text clean room before (.ok bytes) state
  | idles {error : IoError} {state : σ} (elapsed : error.kind.isReadIntervalElapsed = true)
      (later : ahead state text clean) (used : polls state < before) :
      Told ahead polls text clean room before (.error error) state
  | breaks {error : IoError} {state : σ} (other : error.kind.isReadIntervalElapsed = false)
      (none : text = []) (broken : clean = false) (later : ahead state text clean)
      (used : polls state ≤ before) : Told ahead polls text clean room before (.error error) state

/-- A stream each of whose reads tells what is ahead tells it in every session. -/
theorem tells {read : Reader σ} {ahead : σ → List Byte → Bool → Prop} {polls : σ → Nat}
    (each : ∀ state text clean room, ahead state text clean → ∃ answer state',
      read state room = some (answer, state') ∧
        Told ahead polls text clean room (polls state) answer state')
    {state : σ} {text : List Byte} {clean : Bool} (holds : ahead state text clean)
    (rooms : List Nat) :
    ∃ answers state', session read state rooms = some (answers, state') ∧
      Tells clean (polls state) rooms answers text := by
  induction rooms generalizing state text with
  | nil => exact ⟨[], state, rfl, rfl, rfl⟩
  | cons room rooms ih =>
      rcases each state text clean room holds with ⟨answer, next, answered, told⟩
      have step : ∀ {text}, ahead next text clean → ∃ answers state',
          session read state (room :: rooms) = some (answer :: answers, state') ∧
            Tells clean (polls next) rooms answers text := by
        intro text later
        rcases ih later with ⟨answers, last, rest, tells⟩
        refine ⟨answers, last, ?_, tells⟩
        rw [session, answered]
        dsimp only
        rw [rest]
        rfl
      cases told with
      | gives split fits some later used =>
          rcases step later with ⟨answers, last, done, tells⟩
          exact ⟨_, last, done, _, split, fits, some, tells.mono used⟩
      | idles elapsed later used =>
          rcases step later with ⟨answers, last, done, tells⟩
          refine ⟨_, last, done, ?_⟩
          unfold Tells
          rw [if_pos elapsed]
          rcases Nat.exists_eq_add_of_lt used with ⟨less, same⟩
          exact ⟨polls next + less, same, tells.mono (Nat.le_add_right _ _)⟩
      | breaks other none broken later used =>
          rcases step later with ⟨answers, last, done, tells⟩
          refine ⟨_, last, done, ?_⟩
          unfold Tells
          rw [if_neg (by rw [other]; exact Bool.false_ne_true)]
          exact ⟨none, broken, tells.mono used⟩

end Session

end Corduit.Transport
