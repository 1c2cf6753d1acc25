import Corduit.Transition.Core
import Corduit.Transport.Poll

/-!
# Streams over a polled transport

A stream answers one read after the other, each with a buffer of its own size,
and keeps what it needs between them.  Its caller calls again after an idle
answer.  A stream delivers a text when its answers, one after the other, are
the text, whatever the sizes and wherever the transport ran out of time.
-/

namespace Corduit.Transport

open Word

universe u v

section Loop

variable {σ : Type u} {ρ : Type v}

/-- A turn of a loop goes around again or returns. -/
inductive Turn (σ : Type u) (ρ : Type v) where
  | again (state : σ)
  | returns (result : ρ) (state : σ)

/-- Take turns until one returns, at most `bound` of them. -/
def loop (turn : σ → Turn σ ρ) : Nat → σ → Option (ρ × σ)
  | 0, _ => none
  | bound + 1, state =>
      match turn state with
      | .again state' => loop turn bound state'
      | .returns result state' => some (result, state')

/-- What a turn has to do for the loop to return with `post`. -/
def Turn.Meets (invariant : σ → Prop) (measure : σ → Nat) (post : ρ → σ → Prop) (before : Nat) :
    Turn σ ρ → Prop
  | .again state => invariant state ∧ measure state < before
  | .returns result state => post result state

/-- The states in which the loop takes a turn. -/
def visits (turn : σ → Turn σ ρ) : Nat → σ → List σ
  | 0, _ => []
  | bound + 1, state =>
      state :: match turn state with
        | .again state' => visits turn bound state'
        | .returns _ _ => []

variable {turn : σ → Turn σ ρ}

/-- The loop rule for a run that takes its turns in states of some kind only. -/
theorem loop_returns_of_visits {condition : σ → Prop} (invariant : σ → Prop) (measure : σ → Nat)
    (post : ρ → σ → Prop)
    (meets : ∀ state, invariant state → condition state →
      (turn state).Meets invariant measure post (measure state))
    {bound : Nat} {state : σ} (initially : invariant state) (enough : measure state < bound)
    (visited : ∀ visit ∈ visits turn bound state, condition visit) :
    ∃ result state', loop turn bound state = some (result, state') ∧ post result state' := by
  induction bound generalizing state with
  | zero => exact absurd enough (Nat.not_lt_zero _)
  | succ bound ih =>
      rw [visits, List.forall_mem_cons] at visited
      have step := meets state initially visited.1
      have later := visited.2
      rw [loop]
      cases took : turn state with
      | again state' =>
          rw [took] at step later
          exact ih step.1 (Nat.lt_of_lt_of_le step.2 (Nat.le_of_lt_succ enough)) later
      | returns result state' =>
          rw [took] at step
          exact ⟨result, state', rfl, step⟩

/-- The loop rule: with an invariant and a measure that every further turn
decreases, the loop returns within a bound above the measure. -/
theorem loop_returns (invariant : σ → Prop) (measure : σ → Nat) (post : ρ → σ → Prop)
    (meets : ∀ state, invariant state → (turn state).Meets invariant measure post (measure state))
    {bound : Nat} {state : σ} (initially : invariant state) (enough : measure state < bound) :
    ∃ result state', loop turn bound state = some (result, state') ∧ post result state' :=
  @loop_returns_of_visits _ _ _ (fun _ => True) invariant measure post
    (fun state holds _ => meets state holds) _ _ initially enough fun _ _ => trivial

/-- The loop rule for a run that comes to a state of another kind: what a turn does there is
what the loop does. -/
theorem loop_returns_of_broken {condition : σ → Prop} (invariant : σ → Prop) (post : ρ → σ → Prop)
    (keeps : ∀ state next, invariant state → condition state → turn state = .again next →
      invariant next)
    (breaks : ∀ state, invariant state → ¬ condition state → ∃ result next,
      turn state = .returns result next ∧ post result next)
    {bound : Nat} {state : σ} (initially : invariant state)
    (broken : ∃ visit ∈ visits turn bound state, ¬ condition visit) :
    ∃ result state', loop turn bound state = some (result, state') ∧ post result state' := by
  induction bound generalizing state with
  | zero =>
      rcases broken with ⟨visit, member, _⟩
      cases member
  | succ bound ih =>
      rw [visits] at broken
      rw [loop]
      by_cases kind : condition state
      · cases took : turn state with
        | again next =>
            rw [took] at broken
            apply ih (keeps state next initially kind took)
            rcases broken with ⟨visit, member, other⟩
            rcases List.mem_cons.mp member with rfl | later
            · exact absurd kind other
            · exact ⟨visit, later, other⟩
        | returns result next =>
            rw [took] at broken
            rcases broken with ⟨visit, member, other⟩
            obtain rfl := List.mem_singleton.mp member
            exact absurd kind other
      · rcases breaks state initially kind with ⟨result, next, took, holds⟩
        rw [took]
        exact ⟨result, next, rfl, holds⟩

end Loop

section Session

variable {σ : Type u}

/-- The answer to a read: some bytes or an error. -/
abbrev Answer :=
  Except IoError (List Byte)

/-- A stream's `read` with a buffer of some size; `none` when it does not
return. -/
abbrev Reader (σ : Type u) :=
  σ → Nat → Option (Answer × σ)

/-- Reads with buffers of these sizes, one after the other. -/
def session (read : Reader σ) : σ → List Nat → Option (List Answer × σ)
  | state, [] => some ([], state)
  | state, room :: rooms =>
      match read state room with
      | none => none
      | some (answer, state') =>
          (session read state' rooms).map fun later => (answer :: later.1, later.2)

/-- Every read of a session has its answer. -/
theorem length_session {read : Reader σ} {state state' : σ} {rooms : List Nat}
    {answers : List Answer} (done : session read state rooms = some (answers, state')) :
    answers.length = rooms.length := by
  induction rooms generalizing state answers with
  | nil =>
      cases done
      rfl
  | cons room rooms ih =>
      rw [session] at done
      cases answered : read state room with
      | none =>
          rw [answered] at done
          cases done
      | some pair =>
          rw [answered] at done
          rcases Option.map_eq_some_iff.mp done with ⟨later, rest_eq, same⟩
          cases same
          exact congrArg Nat.succ (ih rest_eq)

/-- The bytes of the answers. -/
def received (answers : List Answer) : List Byte :=
  answers.flatMap fun
    | .ok bytes => bytes
    | .error _ => []

@[simp]
theorem received_ok (bytes : List Byte) (answers : List Answer) :
    received (.ok bytes :: answers) = bytes ++ received answers :=
  rfl

@[simp]
theorem received_error (error : IoError) (answers : List Answer) :
    received (.error error :: answers) = received answers :=
  rfl

/-- The answers are the text, piece by piece, and idle answers in between; the
end of the stream, an empty answer to a buffer with room, comes at the end of
the text. -/
def Spells (idle : IoError → Prop) : List Nat → List Answer → List Byte → Prop
  | room :: rooms, .ok bytes :: answers, text =>
      ∃ rest, text = bytes ++ rest ∧ bytes.length ≤ room ∧
        (bytes = [] → room = 0 ∨ text = []) ∧ Spells idle rooms answers rest
  | _ :: rooms, .error error :: answers, text => idle error ∧ Spells idle rooms answers text
  | rooms, answers, _ => rooms = [] ∧ answers = []

variable {rooms : List Nat} {text : List Byte} {state : σ}

theorem Spells.received_prefix {idle : IoError → Prop} {answers : List Answer}
    (spells : Spells idle rooms answers text) :
    received answers <+: text := by
  induction rooms generalizing answers text with
  | nil =>
      cases answers with
      | nil => exact List.nil_prefix
      | cons answer answers => exact absurd spells.2 (List.cons_ne_nil _ _)
  | cons room rooms ih =>
      cases answers with
      | nil => exact List.nil_prefix
      | cons answer answers =>
          cases answer with
          | error error =>
              rw [received_error]
              exact ih spells.2
          | ok bytes =>
              rcases spells with ⟨rest, rfl, _, _, later⟩
              exact List.prefix_append_right_inj bytes |>.mpr (ih later)

/-- The end of the stream is reported. -/
def Ends (rooms : List Nat) (answers : List Answer) : Prop :=
  ∃ room, 0 < room ∧ (room, Except.ok []) ∈ rooms.zip answers

/-- What a stream delivers by: its idle answers, the text that is ahead of a
state, what the transport may still do instead of giving bytes, and the states
in which the stream is over. -/
structure Terms (σ : Type u) where
  idle : IoError → Prop
  ahead : σ → List Byte → Prop
  effort : σ → Nat
  ended : σ → Prop

/-- One read that delivers `text`: it gives the next bytes of it, or none when
the stream is over, or it is idle and uses up some of the effort. -/
inductive Delivery (terms : Terms σ) (text : List Byte) (room before : Nat) :
    Answer → σ → Prop where
  | gives {bytes rest : List Byte} {state : σ} (split : text = bytes ++ rest)
      (fits : bytes.length ≤ room) (some : bytes = [] → room = 0 ∨ text = [] ∧ terms.ended state)
      (later : terms.ahead state rest) (used : terms.effort state ≤ before) :
      Delivery terms text room before (.ok bytes) state
  | idles {error : IoError} {state : σ} (raised : terms.idle error)
      (later : terms.ahead state text) (used : terms.effort state < before) :
      Delivery terms text room before (.error error) state

/-- In a state with `text` ahead every read delivers it. -/
def Delivers (read : Reader σ) (terms : Terms σ) : Prop :=
  ∀ state text room, terms.ahead state text → ∃ answer state',
    read state room = some (answer, state') ∧
      Delivery terms text room (terms.effort state) answer state'

/-- The state behind a read. -/
def afterRead (read : Reader σ) (state : σ) (room : Nat) : σ :=
  match read state room with
  | some (_, state') => state'
  | none => state

/-- Every read that meets a condition on the state and the room delivers. -/
def DeliversWhen (read : Reader σ) (terms : Terms σ) (condition : σ → Nat → Prop) : Prop :=
  ∀ state text room, terms.ahead state text → condition state room → ∃ answer state',
    read state room = some (answer, state') ∧
      Delivery terms text room (terms.effort state) answer state'

/-- Every read that meets a condition delivers. -/
def DeliversWhile (read : Reader σ) (terms : Terms σ) (condition : σ → Prop) : Prop :=
  ∀ state text room, terms.ahead state text → condition state → ∃ answer state',
    read state room = some (answer, state') ∧
      Delivery terms text room (terms.effort state) answer state'

variable {read : Reader σ} {terms : Terms σ} {condition : σ → Prop}

theorem DeliversWhile.when (delivers : DeliversWhile read terms condition) :
    DeliversWhen read terms fun state _ => condition state :=
  delivers

theorem Delivers.always (delivers : Delivers read terms) :
    DeliversWhen read terms fun _ _ => True :=
  fun state text room ahead _ => delivers state text room ahead

theorem runMeets_true (state : σ) (rooms : List Nat) :
    Transition.RunMeets (afterRead read) (fun _ _ => True) state rooms :=
  Transition.runMeets_of_forall (fun _ _ => trivial : ∀ room ∈ rooms, True) state

/-- A session whose reads deliver spells the text, and what is ahead is what was
not received. -/
theorem DeliversWhen.spells {condition : σ → Nat → Prop}
    (delivers : DeliversWhen read terms condition) {state : σ}
    {text : List Byte} (holds : terms.ahead state text) {rooms : List Nat}
    (meets : Transition.RunMeets (afterRead read) condition state rooms) :
    ∃ answers state' rest, session read state rooms = some (answers, state') ∧
      Spells terms.idle rooms answers text ∧ text = received answers ++ rest ∧
      terms.ahead state' rest := by
  induction rooms generalizing state text with
  | nil => exact ⟨[], state, text, rfl, ⟨rfl, rfl⟩, rfl, holds⟩
  | cons room rooms ih =>
      rcases delivers state text room holds meets.1 with ⟨answer, state', answered, delivery⟩
      have meets' := meets.2
      rw [afterRead, answered] at meets'
      cases delivery with
      | @gives bytes rest _ split fits some later used =>
          rcases ih later meets' with
            ⟨answers, last, rest', session_eq, spells, received_eq, ahead'⟩
          refine ⟨.ok bytes :: answers, last, rest', ?_, ⟨rest, split, fits,
            fun empty => (some empty).imp_right And.left, spells⟩, ?_,
            ahead'⟩
          · rw [session, answered]
            dsimp only
            rw [session_eq]
            rfl
          · rw [split, received_ok, List.append_assoc, ← received_eq]
      | @idles error _ raised later used =>
          rcases ih later meets' with
            ⟨answers, last, rest', session_eq, spells, received_eq, ahead'⟩
          refine ⟨.error error :: answers, last, rest', ?_, ⟨raised, spells⟩, received_eq, ahead'⟩
          rw [session, answered]
          dsimp only
          rw [session_eq]
          rfl

/-- When a read that does not meet the condition answers with an error that is not idle, a
session spells the text exactly if its reads meet the condition. -/
theorem DeliversWhen.spells_iff {condition : σ → Nat → Prop}
    (delivers : DeliversWhen read terms condition)
    (breaks : ∀ state text room, terms.ahead state text → ¬ condition state room →
      ∃ error state', read state room = some (.error error, state') ∧ ¬ terms.idle error)
    (holds : terms.ahead state text) :
    (∃ answers state', session read state rooms = some (answers, state') ∧
        Spells terms.idle rooms answers text) ↔
      Transition.RunMeets (afterRead read) condition state rooms := by
  constructor
  · rintro ⟨answers, last, done, spells⟩
    induction rooms generalizing state text answers with
    | nil => trivial
    | cons room rooms ih =>
        by_cases meets : condition state room
        · rcases delivers state text room holds meets with ⟨answer, next, answered, delivery⟩
          rw [session, answered] at done
          rcases Option.map_eq_some_iff.mp done with ⟨⟨later, last'⟩, rest_eq, pair⟩
          cases pair
          refine ⟨meets, ?_⟩
          rw [afterRead, answered]
          cases delivery with
          | gives split _ _ ahead _ =>
              rcases spells with ⟨rest, split', _, _, spells⟩
              have same := List.append_cancel_left (split.symm.trans split')
              exact ih (same ▸ ahead) _ rest_eq spells
          | idles _ ahead _ => exact ih ahead _ rest_eq spells.2
        · rcases breaks state text room holds meets with ⟨error, next, answered, loud⟩
          rw [session, answered] at done
          rcases Option.map_eq_some_iff.mp done with ⟨⟨later, last'⟩, rest_eq, pair⟩
          cases pair
          exact absurd spells.1 loud
  · intro meets
    rcases delivers.spells holds meets with ⟨answers, last, _, done, spells, _⟩
    exact ⟨answers, last, done, spells⟩

theorem Delivers.spells (delivers : Delivers read terms) (holds : terms.ahead state text)
    (rooms : List Nat) :
    ∃ answers state' rest, session read state rooms = some (answers, state') ∧
      Spells terms.idle rooms answers text ∧ text = received answers ++ rest ∧
      terms.ahead state' rest :=
  delivers.always.spells holds (runMeets_true state rooms)

/-- Enough reads with room get to the end: each of them gets on with the text,
uses up some of the effort, or reports the end. -/
theorem DeliversWhen.ends {condition : σ → Nat → Prop}
    (delivers : DeliversWhen read terms condition) {state state' : σ}
    {text : List Byte} (holds : terms.ahead state text) {rooms : List Nat} {answers : List Answer}
    (meets : Transition.RunMeets (afterRead read) condition state rooms)
    (done : session read state rooms = some (answers, state'))
    (enough : text.length + terms.effort state < (rooms.filter (0 < ·)).length) :
    Ends rooms answers ∧ received answers = text := by
  induction rooms generalizing state text answers with
  | nil => exact absurd enough (Nat.not_lt_zero _)
  | cons room rooms ih =>
      rcases delivers state text room holds meets.1 with ⟨answer, next, answered, delivery⟩
      have meets' := meets.2
      rw [afterRead, answered] at meets'
      rw [session, answered] at done
      dsimp only at done
      rcases Option.map_eq_some_iff.mp done with ⟨⟨answers', last⟩, rest_eq, pair⟩
      cases pair
      have fewer : (List.filter (0 < ·) (room :: rooms)).length ≤
          (rooms.filter (0 < ·)).length + 1 := by
        rw [List.filter_cons]
        split
        · exact Nat.le_refl _
        · exact Nat.le_succ _
      have further : Ends rooms answers' → Ends (room :: rooms) (answer :: answers') := by
        rintro ⟨size, positive, member⟩
        exact ⟨size, positive, List.mem_cons_of_mem _ member⟩
      cases delivery with
      | @gives bytes rest _ split fits some later used =>
          subst split
          rw [List.length_append] at enough
          by_cases progress : bytes = [] ∧ 0 < room
          · rcases progress with ⟨rfl, positive⟩
            have empty : rest = [] := ((some rfl).resolve_left (Nat.ne_of_gt positive)).1
            subst empty
            rcases delivers.spells later meets' with ⟨all, _, left, again, _, received_eq, _⟩
            rw [rest_eq] at again
            cases again
            have nothing : received answers' = [] :=
              (List.append_eq_nil_iff.mp received_eq.symm).1
            exact ⟨⟨room, positive, List.mem_cons_self⟩, nothing⟩
          · have enough' : rest.length + terms.effort next < (rooms.filter (0 < ·)).length := by
              by_cases zero : room = 0
              · rw [zero, List.filter_cons_of_neg (by simp)] at enough
                omega
              · have nonempty : bytes ≠ [] := fun empty =>
                  progress ⟨empty, Nat.pos_of_ne_zero zero⟩
                have one := List.length_pos_iff.mpr nonempty
                omega
            rcases ih later meets' rest_eq enough' with ⟨ends, received_eq⟩
            refine ⟨further ends, ?_⟩
            rw [received_ok, received_eq]
      | @idles error _ raised later used =>
          have enough' : text.length + terms.effort next < (rooms.filter (0 < ·)).length := by omega
          rcases ih later meets' rest_eq enough' with ⟨ends, received_eq⟩
          exact ⟨further ends, received_eq⟩

section

variable (delivers : Delivers read terms) {state state' : σ} {text : List Byte}
  (holds : terms.ahead state text) {rooms : List Nat}

include delivers holds

theorem Delivers.ends {answers : List Answer}
    (done : session read state rooms = some (answers, state'))
    (enough : text.length + terms.effort state < (rooms.filter (0 < ·)).length) :
    Ends rooms answers ∧ received answers = text :=
  delivers.always.ends holds (runMeets_true state rooms) done enough

theorem Delivers.ended {room : Nat} (positive : 0 < room) {answers : List Answer}
    (done : session read state (rooms ++ [room]) = some (answers ++ [.ok []], state')) :
    terms.ended state' := by
  induction rooms generalizing state text answers with
  | nil =>
      rcases delivers state text room holds with ⟨answer, next, answered, delivery⟩
      rw [List.nil_append, session, answered] at done
      have pair := Option.some.inj done
      have last : [answer] = answers ++ [.ok []] := congrArg Prod.fst pair
      have next_eq : next = state' := congrArg Prod.snd pair
      have answer_eq : answer = .ok [] := by
        have ends := congrArg List.getLast? last
        rw [List.getLast?_concat] at ends
        exact Option.some.inj ends
      subst answer_eq next_eq
      cases delivery with
      | gives split fits some later used =>
          exact ((some rfl).resolve_left (Nat.ne_of_gt positive)).2
  | cons first rooms ih =>
      rcases delivers state text first holds with ⟨answer, next, answered, delivery⟩
      rw [List.cons_append, session, answered] at done
      dsimp only at done
      rcases Option.map_eq_some_iff.mp done with ⟨⟨answers', last⟩, rest_eq, pair⟩
      have all : answer :: answers' = answers ++ [.ok []] := congrArg Prod.fst pair
      have last_eq : last = state' := congrArg Prod.snd pair
      subst last_eq
      cases answers with
      | nil =>
          -- A session has as many answers as reads.
          have none : answers' = [] := (List.cons.inj all).2
          have long := length_session rest_eq
          rw [none, List.length_nil, List.length_append] at long
          exact absurd long (Nat.ne_of_lt (Nat.succ_pos _))
      | cons other answers =>
          have tail := (List.cons.inj all).2
          rw [tail] at rest_eq
          cases delivery with
          | gives split fits some later used => exact ih later rest_eq
          | idles raised later used => exact ih later rest_eq

end

/-- The answers are the text, piece by piece, and errors behind it. -/
def Supplies : List Nat → List Answer → List Byte → Prop
  | room :: rooms, .ok bytes :: answers, text =>
      ∃ rest, text = bytes ++ rest ∧ bytes.length ≤ room ∧
        (bytes = [] → room = 0 ∨ text = []) ∧ Supplies rooms answers rest
  | _ :: rooms, .error _ :: answers, text => text = [] ∧ Supplies rooms answers text
  | rooms, answers, _ => rooms = [] ∧ answers = []

/-- One read that supplies `text`: the next bytes of it, or anything without
bytes when there are none. -/
inductive Supply (ahead : σ → List Byte → Prop) (text : List Byte) (room : Nat) :
    Answer → σ → Prop where
  | gives {bytes rest : List Byte} {state : σ} (split : text = bytes ++ rest)
      (fits : bytes.length ≤ room) (some : bytes = [] → room = 0 ∨ text = [])
      (later : ahead state rest) : Supply ahead text room (.ok bytes) state
  | fails {error : IoError} {state : σ} (none : text = []) (later : ahead state text) :
      Supply ahead text room (.error error) state

/-- A stream whose reads supply what is ahead supplies its text in every
session; with as many reads with room as there are bytes, all of it. -/
theorem supplies {ahead : σ → List Byte → Prop}
    (each : ∀ state text room, ahead state text → ∃ answer state',
      read state room = some (answer, state') ∧ Supply ahead text room answer state')
    (holds : ahead state text) (rooms : List Nat) :
    ∃ answers state' rest, session read state rooms = some (answers, state') ∧
      Supplies rooms answers text ∧ text = received answers ++ rest ∧ ahead state' rest ∧
      (text.length ≤ (rooms.filter (0 < ·)).length → rest = []) := by
  induction rooms generalizing state text with
  | nil =>
      exact ⟨[], state, text, rfl, ⟨rfl, rfl⟩, rfl, holds,
        fun enough => List.length_eq_zero_iff.mp (Nat.le_zero.mp enough)⟩
  | cons room rooms ih =>
      rcases each state text room holds with ⟨answer, state', answered, supply⟩
      cases supply with
      | @gives bytes rest _ split fits some later =>
          rcases ih later with ⟨answers, last, rest', session_eq, supplied, received_eq, ahead', all⟩
          refine ⟨.ok bytes :: answers, last, rest', ?_, ⟨rest, split, fits, some, supplied⟩, ?_,
            ahead', ?_⟩
          · rw [session, answered]
            dsimp only
            rw [session_eq]
            rfl
          · rw [split, received_ok, List.append_assoc, ← received_eq]
          · intro enough
            refine all ?_
            rw [split, List.length_append] at enough
            by_cases zero : room = 0
            · rw [zero, List.filter_cons_of_neg (by simp)] at enough
              omega
            · rw [List.filter_cons_of_pos (by simpa using Nat.pos_of_ne_zero zero),
                List.length_cons] at enough
              by_cases empty : bytes = []
              · have none := (some empty).resolve_left zero
                rw [split] at none
                rw [(List.append_eq_nil_iff.mp none).2]
                exact Nat.zero_le _
              · have one := List.length_pos_iff.mpr empty
                omega
      | @fails error _ none later =>
          rcases ih later with ⟨answers, last, rest', session_eq, supplied, received_eq, ahead', all⟩
          refine ⟨.error error :: answers, last, rest', ?_, ⟨none, supplied⟩, received_eq, ahead',
            fun _ => all ?_⟩
          · rw [session, answered]
            dsimp only
            rw [session_eq]
            rfl
          · rw [none]
            exact Nat.zero_le _

end Session

end Corduit.Transport
