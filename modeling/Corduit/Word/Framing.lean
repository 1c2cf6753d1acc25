import Corduit.Transition.Core
import Mathlib.Data.List.Basic

/-!
# Concatenated items

A format writes items one after the other.  Most items end by themselves, and
some extend to the end of whatever they stand in.  Such an item is read back
only when nothing follows it, so a list of items is read back exactly when the
reader knows each of them and all but the last end by themselves.
-/

namespace Corduit.Word

open Transition

universe u

variable {α β ε : Type u}

/-- Read items to the end, each of at least one element. -/
def decodeAll (decode : List β → Except ε (α × Nat)) : (bound : Nat) → List β →
    Except ε (List α)
  | 0, _ => .ok []
  | bound + 1, written =>
      if written.isEmpty then
        .ok []
      else do
        let (item, used) ← decode written
        let items ← decodeAll decode bound (written.drop used)
        return item :: items

/-- What a reader has in common with a writer: the items that are written, those
of them that the reader knows, and those that extend to the end. -/
structure Framed (encode : α → List β) (decode : List β → Except ε (α × Nat))
    (writes known : α → Prop) (toEnd : α → Bool) : Prop where
  nonempty : ∀ item, writes item → encode item ≠ []
  sound : ∀ written item used, decode written = .ok (item, used) → known item
  alone : ∀ item, writes item → known item →
    decode (encode item) = .ok (item, (encode item).length)
  delimited : ∀ item rest, writes item → known item → toEnd item = false →
    decode (encode item ++ rest) = .ok (item, (encode item).length)
  absorbs : ∀ item rest other used, writes item → toEnd item = true →
    decode (encode item ++ rest) = .ok (other, used) → (encode item ++ rest).length ≤ used

namespace Framed

variable {encode : α → List β} {decode : List β → Except ε (α × Nat)} {writes known : α → Prop}
  {toEnd : α → Bool}

theorem decodeAll_nil (bound : Nat) : decodeAll decode bound [] = .ok [] := by
  cases bound with
  | zero => rfl
  | succ bound => rfl

/-- The first item is read, then the others. -/
theorem decodeAll_cons (framed : Framed encode decode writes known toEnd) {bound : Nat}
    {item : α} (written : writes item) (items : List α) {read : List α} :
    decodeAll decode (bound + 1) (encode item ++ items.flatMap encode) = .ok read ↔
      ∃ first used others, decode (encode item ++ items.flatMap encode) = .ok (first, used) ∧
        decodeAll decode bound ((encode item ++ items.flatMap encode).drop used) = .ok others ∧
        first :: others = read := by
  have some_ : (encode item ++ items.flatMap encode).isEmpty = false := by
    simp [framed.nonempty item written]
  rw [decodeAll, some_, if_neg Bool.false_ne_true, bind_eq_ok_iff]
  constructor
  · rintro ⟨⟨first, used⟩, decoded, later⟩
    rcases bind_eq_ok_iff.mp later with ⟨others, behind, read_eq⟩
    exact ⟨first, used, others, decoded, behind, pure_eq_ok_iff.mp read_eq⟩
  · rintro ⟨first, used, others, decoded, behind, read_eq⟩
    exact ⟨(first, used), decoded,
      bind_eq_ok_iff.mpr ⟨others, behind, pure_eq_ok_iff.mpr read_eq⟩⟩

/-- Items are read back exactly when they are known and all but the last end by
themselves. -/
theorem decodeAll_eq_iff (framed : Framed encode decode writes known toEnd) {bound : Nat}
    {items : List α} (written : ∀ item ∈ items, writes item)
    (enough : (items.flatMap encode).length ≤ bound) :
    decodeAll decode bound (items.flatMap encode) = .ok items ↔
      (∀ item ∈ items, known item) ∧ ∀ item ∈ items.dropLast, toEnd item = false := by
  induction items generalizing bound with
  | nil => simp [decodeAll_nil]
  | cons item items ih =>
      have ⟨writtenHere, writtenLater⟩ := List.forall_mem_cons.mp written
      have positive : 0 < (encode item).length :=
        List.length_pos_iff.mpr (framed.nonempty item writtenHere)
      rw [List.flatMap_cons, List.length_append] at enough
      obtain ⟨bound, rfl⟩ : ∃ less, bound = less + 1 := ⟨bound - 1, by omega⟩
      rw [List.flatMap_cons, framed.decodeAll_cons writtenHere]
      constructor
      · rintro ⟨first, used, others, decoded, behind, same⟩
        cases same
        have knows := framed.sound _ _ _ decoded
        cases items with
        | nil => exact ⟨by simpa using knows, by simp⟩
        | cons next items =>
            have ends : toEnd item = false := by
              cases open_ : toEnd item with
              | false => rfl
              | true =>
                  have whole := framed.absorbs _ _ _ _ writtenHere open_ decoded
                  rw [List.drop_eq_nil_of_le whole, decodeAll_nil] at behind
                  cases behind
            rw [framed.delimited item _ writtenHere knows ends] at decoded
            cases decoded
            rw [List.drop_left, ih writtenLater (by omega)] at behind
            exact ⟨List.forall_mem_cons.mpr ⟨knows, behind.1⟩,
              List.forall_mem_cons.mpr ⟨ends, behind.2⟩⟩
      · rintro ⟨knows, ends⟩
        have ⟨here, later⟩ := List.forall_mem_cons.mp knows
        cases items with
        | nil =>
            refine ⟨item, (encode item).length, [], ?_, ?_, rfl⟩
            · rw [List.flatMap_nil, List.append_nil]
              exact framed.alone item writtenHere here
            · rw [List.flatMap_nil, List.append_nil, List.drop_length, decodeAll_nil]
        | cons next items =>
            have ⟨endsHere, endsLater⟩ := List.forall_mem_cons.mp ends
            refine ⟨item, (encode item).length, next :: items,
              framed.delimited item _ writtenHere here endsHere, ?_, rfl⟩
            rw [List.drop_left]
            exact (ih writtenLater (by omega)).mpr ⟨later, endsLater⟩

end Framed

end Corduit.Word

/-!
# Frames that arrive in pieces

A reader looks at the front of its buffer: there is not enough for a frame, or
something is wrong with it, or a frame is there and is taken off.  It goes on
until one of the first two is the case.  Where a frame is found whatever follows
it, and nothing is found in less than a frame, every cut of a sequence of frames
into pieces gives back the same items.
-/

namespace Corduit.Word

universe u v w x

variable {σ : Type u} {α : Type v} {β : Type w} {ε : Type x}

/-- What is at the front of a buffer. -/
inductive Found (σ : Type u) (α : Type v) (ε : Type x) where
  | waits
  | fails (error : ε) (state : σ)
  | takes (used : Nat) (item : α) (state : σ)

/-- Where a reader stops, and what it read up to there. -/
structure Deframed (σ : Type u) (α : Type v) (β : Type w) (ε : Type x) where
  ended : Except ε Unit
  items : List α
  pending : List β
  state : σ

/-- Take frames off a buffer; `none` is a panic, or that `bound` was too small. -/
def deframe (find : σ → List β → Option (Found σ α ε)) : (bound : Nat) → σ → List β →
    Option (Deframed σ α β ε)
  | 0, _, _ => none
  | bound + 1, state, buffer =>
      match find state buffer with
      | none => none
      | some .waits => some ⟨.ok (), [], buffer, state⟩
      | some (.fails error state) => some ⟨.error error, [], buffer, state⟩
      | some (.takes used item state) =>
          (deframe find bound state (buffer.drop used)).map fun later =>
            { later with items := item :: later.items }

/-- A run of frames that are found one after the other, with what is behind them. -/
def Accepts (find : σ → List β → Option (Found σ α ε)) : σ → List β → List (List β × α) → σ →
    List β → Prop
  | state, buffer, [], state', buffer' => state = state' ∧ buffer = buffer'
  | state, buffer, (frame, item) :: frames, state', buffer' =>
      ∃ middle rest, buffer = frame ++ rest ∧
        find state buffer = some (.takes frame.length item middle) ∧
        Accepts find middle rest frames state' buffer'

/-- What was accepted and what is left are the buffer. -/
theorem Accepts.split {find : σ → List β → Option (Found σ α ε)} {state state' : σ}
    {buffer buffer' : List β} {frames : List (List β × α)}
    (accepts : Accepts find state buffer frames state' buffer') :
    buffer = frames.flatMap Prod.fst ++ buffer' := by
  induction frames generalizing state buffer with
  | nil => exact accepts.2
  | cons entry frames ih =>
      rcases accepts with ⟨middle, rest, rfl, _, later⟩
      rw [List.flatMap_cons, List.append_assoc, ← ih later]

/-- A reader that finds something in every buffer, and whose frames are some of
it, stops: where it waits, or where it fails. -/
theorem deframe_spec {find : σ → List β → Option (Found σ α ε)}
    (total : ∀ state buffer, ∃ found, find state buffer = some found)
    (uses : ∀ state buffer used item state',
      find state buffer = some (.takes used item state') → 0 < used ∧ used ≤ buffer.length)
    {bound : Nat} {buffer : List β} (enough : buffer.length < bound) (state : σ) :
    ∃ result frames middle, deframe find bound state buffer = some result ∧
      Accepts find state buffer frames middle result.pending ∧
      result.items = frames.map Prod.snd ∧
      ((result.ended = .ok () ∧ result.state = middle ∧
          find middle result.pending = some .waits) ∨
        ∃ error, result.ended = .error error ∧
          find middle result.pending = some (.fails error result.state)) := by
  induction bound generalizing state buffer with
  | zero => exact absurd enough (Nat.not_lt_zero _)
  | succ bound ih =>
      rw [deframe]
      rcases total state buffer with ⟨found, finds⟩
      rw [finds]
      cases found with
      | waits => exact ⟨_, [], state, rfl, ⟨rfl, rfl⟩, rfl, .inl ⟨rfl, rfl, finds⟩⟩
      | fails error state' =>
          exact ⟨_, [], state, rfl, ⟨rfl, rfl⟩, rfl, .inr ⟨error, rfl, finds⟩⟩
      | takes used item state' =>
          have ⟨positive, inside⟩ := uses _ _ _ _ _ finds
          have less : (buffer.drop used).length < bound := by
            rw [List.length_drop]
            omega
          rcases ih less state' with ⟨result, frames, middle, ran, accepts, items, ends⟩
          refine ⟨{ result with items := item :: result.items },
            (buffer.take used, item) :: frames, middle, ?_, ?_, ?_, ends⟩
          · dsimp only
            rw [ran]
            rfl
          · refine ⟨state', buffer.drop used, (List.take_append_drop used buffer).symm, ?_, accepts⟩
            rw [List.length_take_of_le inside]
            exact finds
          · rw [List.map_cons, ← items]

/-- A frame that is found whatever follows it, and not before all of it is there. -/
structure Delimits (find : σ → List β → Option (Found σ α ε)) (state : σ) (frame : List β)
    (item : α) (state' : σ) : Prop where
  nonempty : frame ≠ []
  whole : ∀ rest, find state (frame ++ rest) = some (.takes frame.length item state')
  short : ∀ front, front <+: frame → front ≠ frame → find state front = some .waits

/-- Such frames one after the other. -/
def DelimitsAll (find : σ → List β → Option (Found σ α ε)) : σ → List (List β × α) → σ → Prop
  | state, [], state' => state = state'
  | state, (frame, item) :: frames, state' =>
      ∃ middle, Delimits find state frame item middle ∧ DelimitsAll find middle frames state'

/-- Less than the first of some frames; nothing, where there is none. -/
def ShortOf (tail : List β) : List (List β × α) → Prop
  | [] => tail = []
  | (frame, _) :: _ => tail <+: frame ∧ tail ≠ frame

variable {find : σ → List β → Option (Found σ α ε)} {state state' : σ}

variable (idle : ∀ state, find state [] = some .waits) {frames : List (List β × α)}
  (sequence : DelimitsAll find state frames state')

include idle sequence

theorem DelimitsAll.waits {tail : List β} (short : ShortOf tail frames) :
    find state tail = some .waits := by
  cases frames with
  | nil =>
      rw [short]
      exact idle state
  | cons entry frames =>
      rcases sequence with ⟨next, here, _⟩
      exact here.short tail short.1 short.2

/-- Reading a piece takes off the frames that are complete, and the rest of the
last one waits. -/
theorem deframe_piece {buffer rest : List β} (split : buffer ++ rest = frames.flatMap Prod.fst)
    {bound : Nat} (enough : buffer.length < bound) :
    ∃ done later middle tail, frames = done ++ later ∧
      buffer = done.flatMap Prod.fst ++ tail ∧ tail ++ rest = later.flatMap Prod.fst ∧
      ShortOf tail later ∧ DelimitsAll find state done middle ∧
      DelimitsAll find middle later state' ∧ deframe find bound state buffer =
        some ⟨.ok (), done.map Prod.snd, tail, middle⟩ := by
  induction bound generalizing state frames buffer with
  | zero => exact absurd enough (Nat.not_lt_zero _)
  | succ bound ih =>
      rw [deframe]
      cases frames with
      | nil =>
          have ⟨empty, _⟩ := List.append_eq_nil_iff.mp split
          rw [empty, idle]
          exact ⟨[], [], state, [], rfl, rfl, empty ▸ split, rfl, rfl, sequence, rfl⟩
      | cons entry frames =>
          rcases entry with ⟨frame, item⟩
          rcases sequence with ⟨next, here, later⟩
          rw [List.flatMap_cons] at split
          change buffer ++ rest = frame ++ frames.flatMap Prod.fst at split
          by_cases complete : frame <+: buffer
          · rcases complete with ⟨more, rfl⟩
            rw [List.append_assoc] at split
            have behind := List.append_cancel_left split
            have positive := List.length_pos_iff.mpr here.nonempty
            have less : more.length < bound := by
              rw [List.length_append] at enough
              omega
            rw [here.whole more]
            rcases ih later behind less with
              ⟨done, others, middle, tail, frames_eq, more_eq, after, short, passed, ahead, ran⟩
            refine ⟨(frame, item) :: done, others, middle, tail, by rw [frames_eq]; rfl, ?_,
              after, short, ⟨next, here, passed⟩, ahead, ?_⟩
            · rw [List.flatMap_cons, List.append_assoc, ← more_eq]
            · dsimp only
              rw [List.drop_left, ran]
              rfl
          · have front : buffer <+: frame := by
              rcases List.prefix_or_prefix_of_prefix ⟨rest, split⟩ (List.prefix_append frame _) with
                front | whole
              · exact front
              · exact absurd whole complete
            have apart : buffer ≠ frame := fun same => complete (same ▸ List.prefix_refl _)
            rw [here.short buffer front apart]
            refine ⟨[], (frame, item) :: frames, state, buffer, rfl, rfl, ?_, ⟨front, apart⟩, rfl,
              ⟨next, here, later⟩, rfl⟩
            rw [List.flatMap_cons]
            exact split

end Corduit.Word
