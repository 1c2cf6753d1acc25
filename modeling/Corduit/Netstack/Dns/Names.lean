import Corduit.Netstack.Dns.Core

/-!
# Names on the wire

Labels that were written are read back where each is shorter than the mark of a
pointer and all together are no longer than a name may be; other labels end a name
too early, or it is no name.
-/

namespace Corduit.Netstack.Dns

open Text Transport Word

section Labels

variable {β γ : Type} {read : List Byte → β} {data : List Byte} {labels : List (List Byte)}

/-- Labels, each behind its length. -/
def labelBytes (labels : List (List Byte)) : List Byte :=
  labels.flatMap fun label => BitVec.ofNat 8 label.length :: label

/-- What labels count for the length of a name. -/
def nameLength (labels : List (List Byte)) : Nat :=
  (labels.map fun label => label.length + 1).sum

/-- The labels can be written: none of them has the length of a pointer, and
together they are a name. -/
def Fits (labels : List (List Byte)) : Prop :=
  (∀ label ∈ labels, label.length < 192) ∧ nameLength labels ≤ MAX_NAME_BYTES
deriving Decidable

theorem length_labelBytes (labels : List (List Byte)) :
    (labelBytes labels).length = nameLength labels := by
  rw [labelBytes, List.length_flatMap, nameLength]
  rfl

theorem nameLength_cons (label : List Byte) (labels : List (List Byte)) :
    nameLength (label :: labels) = label.length + 1 + nameLength labels := by
  rw [nameLength, List.map_cons, List.sum_cons, nameLength]

theorem length_le_nameLength (filled : ∀ label ∈ labels, label ≠ []) :
    labels.length ≤ nameLength labels := by
  induction labels with
  | nil => exact Nat.le_refl _
  | cons label labels ih =>
      have rest := ih fun other member => filled other (List.mem_cons_of_mem _ member)
      rw [List.length_cons, nameLength_cons]
      omega

theorem getElem?_of_drop {pos : Nat} {byte : Byte} {rest : List Byte}
    (there : data.drop pos = byte :: rest) : data[pos]? = some byte := by
  have first := @List.getElem?_drop Byte data pos 0
  rw [there, Nat.add_zero] at first
  exact first.symm

variable {walk : NameWalk β}

theorem nameTurn_end {rest : List Byte} (there : data.drop walk.pos = 0 :: rest) :
    nameTurn read data walk =
      .returns (.ok (walk.labels, if walk.jumped then walk.jumpPos else walk.pos + 1)) walk := by
  rw [nameTurn, getElem?_of_drop there]
  exact if_pos rfl

theorem nameTurn_label {label rest : List Byte} (filled : label ≠ []) (short : label.length < 192)
    (there : data.drop walk.pos = BitVec.ofNat 8 label.length :: (label ++ rest)) :
    nameTurn read data walk =
      if walk.nameBytes + (label.length + 1) > MAX_NAME_BYTES then
        .returns (.error ⟨"Name too long"⟩) walk
      else .again
        { walk with
          nameBytes := walk.nameBytes + (label.length + 1)
          labels := walk.labels ++ [read label]
          pos := walk.pos + 1 + label.length } := by
  have len : (BitVec.ofNat 8 label.length).toNat = label.length := by
    rw [BitVec.toNat_ofNat, Nat.mod_eq_of_lt (by omega)]
  have positive : label.length ≠ 0 := fun zero => filled (List.length_eq_zero_iff.mp zero)
  have notPointer : ¬(BitVec.ofNat 8 label.length) &&& 0xC0 = 0xC0 := by
    rw [isPointer_iff, len]
    exact Nat.not_le_of_lt short
  have behind : data.drop (walk.pos + 1) = label ++ rest := by
    rw [← List.drop_drop, there]
    rfl
  have inside : walk.pos + 1 + label.length ≤ data.length := by
    have length := congrArg List.length there
    rw [List.length_drop, List.length_cons, List.length_append] at length
    omega
  have sliced : slice data (walk.pos + 1) label.length = label := by
    rw [slice, behind, List.take_left]
  rw [nameTurn, getElem?_of_drop there]
  dsimp only
  rw [len, if_neg positive, if_neg notPointer, if_neg (Nat.not_lt_of_le inside), sliced]

theorem nameTurn_pointer {byte : Byte} {rest : List Byte} (mark : 192 ≤ byte.toNat)
    (there : data.drop walk.pos = byte :: rest) :
    (∃ error, nameTurn read data walk = .returns (.error error) walk) ∨
      ∃ next, nameTurn read data walk = .again next ∧ next.jumped = true ∧
        next.jumpPos = if walk.jumped then walk.jumpPos else walk.pos + 2 := by
  have here := getElem?_of_drop there
  have turned := nameTurned read data walk
  generalize nameTurn read data walk = turn at turned ⊢
  cases turned with
  | fails error => exact .inl ⟨error, rfl⟩
  | ends zero =>
      cases here.symm.trans zero
      exact absurd mark (by decide)
  | follows => exact .inr ⟨_, rfl, rfl, rfl⟩
  | takes same _ plain =>
      cases here.symm.trans same
      exact absurd mark (Nat.not_le.mpr plain)

theorem loop_labels {rest : List Byte} {bound : Nat} (filled : ∀ label ∈ labels, label ≠ [])
    (short : ∀ label ∈ labels, label.length < 192)
    (there : data.drop walk.pos = labelBytes labels ++ 0 :: rest)
    (room : walk.nameBytes + nameLength labels ≤ MAX_NAME_BYTES) (enough : labels.length < bound) :
    ∃ last, loop (nameTurn read data) bound walk =
      some (.ok (walk.labels ++ labels.map read,
        if walk.jumped then walk.jumpPos else walk.pos + nameLength labels + 1), last) := by
  induction labels generalizing walk bound with
  | nil =>
      cases bound with
      | zero => exact absurd enough (Nat.not_lt_zero _)
      | succ bound =>
          refine ⟨walk, ?_⟩
          rw [loop, nameTurn_end there, List.map_nil, List.append_nil]
          rfl
  | cons label labels ih =>
      cases bound with
      | zero => exact absurd enough (Nat.not_lt_zero _)
      | succ bound =>
          rw [List.forall_mem_cons] at filled short
          rw [nameLength_cons] at room
          have there' : data.drop walk.pos =
              BitVec.ofNat 8 label.length :: (label ++ (labelBytes labels ++ 0 :: rest)) := by
            rw [there, labelBytes, List.flatMap_cons, List.append_assoc, List.cons_append]
            rfl
          have behind : data.drop (walk.pos + 1 + label.length) = labelBytes labels ++ 0 :: rest := by
            rw [← List.drop_drop, ← List.drop_drop, there', List.drop_one, List.tail_cons,
              List.drop_left]
          rw [loop, nameTurn_label filled.1 short.1 there', if_neg (by omega)]
          rcases @ih
            { walk with
              nameBytes := walk.nameBytes + (label.length + 1)
              labels := walk.labels ++ [read label]
              pos := walk.pos + 1 + label.length } bound filled.2 short.2 behind
            (by dsimp only; omega) (Nat.lt_of_succ_lt_succ enough) with ⟨last, read⟩
          refine ⟨last, ?_⟩
          dsimp only
          have place : walk.pos + 1 + label.length + nameLength labels + 1 =
              walk.pos + (label.length + 1 + nameLength labels) + 1 := by omega
          rw [read, nameLength_cons, List.map_cons, List.append_assoc, List.singleton_append]
          dsimp only
          rw [place]

/-- Where a walk ends: at the first pointer, or not far behind the bytes that the
name may still have. -/
theorem offset_of_loop {walk last : NameWalk β} {bound offset : Nat} {labels : List β}
    (done : loop (nameTurn read data) bound walk = some (.ok (labels, offset), last)) :
    (walk.jumped = true → offset = walk.jumpPos) ∧
      (walk.jumped = false → offset + walk.nameBytes ≤ walk.pos + 257 ∨
        MAX_NAME_BYTES < walk.nameBytes) := by
  induction bound generalizing walk with
  | zero => cases done
  | succ bound ih =>
      rw [loop] at done
      have turned := nameTurned read data walk
      generalize nameTurn read data walk = turn at turned done
      cases turned with
      | fails error => cases done
      | ends there =>
          cases done
          refine ⟨fun jumped => if_pos jumped, fun straight => ?_⟩
          rw [straight, MAX_NAME_BYTES]
          simp only [Bool.false_eq_true, if_false]
          omega
      | follows there mark next few =>
          have there := (ih done).1 rfl
          refine ⟨fun jumped => there.trans (if_pos jumped), fun straight => ?_⟩
          rw [straight] at there
          simp only [Bool.false_eq_true, if_false] at there
          rw [MAX_NAME_BYTES]
          omega
      | takes there filled plain inside room =>
          have later := ih done
          dsimp only at later
          refine ⟨later.1, fun straight => ?_⟩
          rcases later.2 straight with near | far
          · omega
          · exact absurd far (Nat.not_lt_of_le room)

/-- A name ends behind its start and in the message, and where it ends is decided by the
bytes up to there. -/
theorem stop_of_loop {walk last : NameWalk β} {bound stop : Nat} {labels : List β}
    (straight : walk.jumped = false)
    (done : loop (nameTurn read data) bound walk = some (.ok (labels, stop), last)) :
    walk.pos < stop ∧ stop ≤ data.length ∧
      ∀ {data' : List Byte} {walk' last' : NameWalk β} {bound' stop' : Nat} {labels' : List β},
        data'.take stop = data.take stop → walk'.pos = walk.pos → walk'.jumped = false →
        loop (nameTurn read data') bound' walk' = some (.ok (labels', stop'), last') →
        stop' = stop := by
  -- The walk over the other bytes is inverted along the walk over these.
  have same : ∀ {data' : List Byte} {place stop : Nat} {byte byte' : Byte}, place < stop →
      data'.take stop = data.take stop → data[place]? = some byte → data'[place]? = some byte' →
      byte' = byte := by
    intro data' place stop byte byte' before agrees found found'
    have here := congrArg (·[place]?) agrees
    rw [List.getElem?_take_of_lt before, List.getElem?_take_of_lt before, found, found'] at here
    exact Option.some.inj here
  induction bound generalizing walk with
  | zero => cases done
  | succ bound ih =>
      rw [loop] at done
      have turned := nameTurned read data walk
      generalize nameTurn read data walk = turn at turned done
      cases turned with
      | fails error => cases done
      | ends there =>
          cases done
          rw [straight]
          simp only [Bool.false_eq_true, if_false]
          refine ⟨Nat.lt_succ_self _, (List.getElem?_eq_some_iff.mp there).1, ?_⟩
          intro data' walk' last' bound' stop' labels' agrees place straight' done'
          cases bound' with
          | zero => cases done'
          | succ bound' =>
              rw [loop] at done'
              have turned' := nameTurned read data' walk'
              generalize nameTurn read data' walk' = turn' at turned' done'
              cases turned' with
              | fails error => cases done'
              | ends there' =>
                  cases done'
                  rw [straight', place]
                  rfl
              | follows there' mark =>
                  have zero := same (Nat.lt_succ_self _) agrees there (place ▸ there')
                  rw [zero] at mark
                  exact absurd mark (by decide)
              | takes there' filled =>
                  have zero := same (Nat.lt_succ_self _) agrees there (place ▸ there')
                  rw [zero] at filled
                  exact absurd rfl filled
      | @follows byte low there mark next few =>
          have ends := (offset_of_loop done).1 rfl
          rw [straight] at ends
          simp only [Bool.false_eq_true, if_false] at ends
          subst ends
          refine ⟨by omega, (List.getElem?_eq_some_iff.mp next).1, ?_⟩
          intro data' walk' last' bound' stop' labels' agrees place straight' done'
          have before : walk.pos < walk.pos + 2 := by omega
          cases bound' with
          | zero => cases done'
          | succ bound' =>
              rw [loop] at done'
              have turned' := nameTurned read data' walk'
              generalize nameTurn read data' walk' = turn' at turned' done'
              cases turned' with
              | fails error => cases done'
              | ends there' =>
                  have zero := same before agrees there (place ▸ there')
                  rw [← zero] at mark
                  exact absurd mark (by decide)
              | follows there' mark' =>
                  have ends' := (offset_of_loop done').1 rfl
                  rw [straight', place] at ends'
                  exact ends'
              | takes there' filled plain =>
                  have zero := same before agrees there (place ▸ there')
                  rw [zero] at plain
                  exact absurd mark (Nat.not_le.mpr plain)
      | @takes byte there filled plain inside room =>
          rcases @ih
            { walk with
              nameBytes := walk.nameBytes + (byte.toNat + 1)
              labels := walk.labels ++ [read (slice data (walk.pos + 1) byte.toNat)]
              pos := walk.pos + 1 + byte.toNat } straight done with ⟨behind, within, unique⟩
          dsimp only at behind unique
          refine ⟨by omega, within, ?_⟩
          intro data' walk' last' bound' stop' labels' agrees place straight' done'
          have before : walk.pos < stop := by omega
          cases bound' with
          | zero => cases done'
          | succ bound' =>
              rw [loop] at done'
              have turned' := nameTurned read data' walk'
              generalize nameTurn read data' walk' = turn' at turned' done'
              cases turned' with
              | fails error => cases done'
              | ends there' =>
                  have zero := same before agrees there (place ▸ there')
                  rw [← zero] at filled
                  exact absurd rfl filled
              | follows there' mark =>
                  have zero := same before agrees there (place ▸ there')
                  rw [zero] at mark
                  exact absurd mark (Nat.not_le.mpr plain)
              | takes there' =>
                  have zero := same before agrees there (place ▸ there')
                  exact unique agrees (by dsimp only; rw [zero, place]) (by exact straight') done'

theorem offset_lt_of_not_fits {walk last : NameWalk β} {bound offset : Nat} {found : List β}
    {rest : List Byte} (straight : walk.jumped = false) (filled : ∀ label ∈ labels, label ≠ [])
    (there : data.drop walk.pos = labelBytes labels ++ 0 :: rest) (four : rest.length = 4)
    (within : walk.nameBytes ≤ MAX_NAME_BYTES)
    (unfit : ¬((∀ label ∈ labels, label.length < 192) ∧
      walk.nameBytes + nameLength labels ≤ MAX_NAME_BYTES))
    (done : loop (nameTurn read data) bound walk = some (.ok (found, offset), last)) :
    offset + 4 < data.length := by
  induction labels generalizing walk bound with
  | nil => exact absurd ⟨fun _ member => absurd member List.not_mem_nil, within⟩ unfit
  | cons label labels ih =>
      cases bound with
      | zero => cases done
      | succ bound =>
          rw [List.forall_mem_cons] at filled
          have there' : data.drop walk.pos =
              BitVec.ofNat 8 label.length :: (label ++ (labelBytes labels ++ 0 :: rest)) := by
            rw [there, labelBytes, List.flatMap_cons, List.append_assoc, List.cons_append]
            rfl
          have length := congrArg List.length there'
          rw [List.length_drop, List.length_cons, List.length_append, List.length_append,
            List.length_cons, four] at length
          by_cases short : label.length < 192
          · rw [loop, nameTurn_label filled.1 short there'] at done
            by_cases long : walk.nameBytes + (label.length + 1) > MAX_NAME_BYTES
            · rw [if_pos long] at done
              cases done
            · rw [if_neg long] at done
              have behind : data.drop (walk.pos + 1 + label.length) =
                  labelBytes labels ++ 0 :: rest := by
                rw [← List.drop_drop, ← List.drop_drop, there', List.drop_one, List.tail_cons,
                  List.drop_left]
              refine @ih
                { walk with
                  nameBytes := walk.nameBytes + (label.length + 1)
                  labels := walk.labels ++ [read label]
                  pos := walk.pos + 1 + label.length } bound straight filled.2 behind
                (Nat.le_of_not_lt long) (fun fits => ?_) done
              refine unfit ⟨List.forall_mem_cons.mpr ⟨short, fits.1⟩, ?_⟩
              have room := fits.2
              dsimp only at room
              rw [nameLength_cons]
              omega
          · by_cases byte : label.length < 256
            · have len : (BitVec.ofNat 8 label.length).toNat = label.length := by
                rw [BitVec.toNat_ofNat, Nat.mod_eq_of_lt byte]
              rw [loop] at done
              rcases @nameTurn_pointer β read data walk _ _ (by rw [len]; omega) there' with
                ⟨error, turned⟩ | ⟨next, turned, jumped, jumpPos⟩
              · rw [turned] at done
                cases done
              · rw [turned] at done
                have ends := (offset_of_loop done).1 jumped
                rw [jumpPos, straight] at ends
                simp only [Bool.false_eq_true, if_false] at ends
                omega
            · rcases (offset_of_loop done).2 straight with near | far
              · omega
              · exact absurd far (Nat.not_lt_of_le within)

/-- The same walk, with something made of its labels. -/
def NameWalk.map (make : β → γ) (walk : NameWalk β) : NameWalk γ :=
  { walk with labels := walk.labels.map make }

theorem nameTurn_map (make : β → γ) (walk : NameWalk β) :
    (∃ next, nameTurn read data walk = .again next ∧
      nameTurn (make ∘ read) data (walk.map make) = .again (next.map make)) ∨
    ∃ result last, nameTurn read data walk = .returns result last ∧
      nameTurn (make ∘ read) data (walk.map make) =
        .returns (result.map fun walked => (walked.1.map make, walked.2)) (last.map make) := by
  rcases walk with ⟨labels, pos, jumped, jumpPos, pointers, nameBytes⟩
  rw [NameWalk.map, nameTurn, nameTurn]
  dsimp only
  cases data[pos]? with
  | none => exact Or.inr ⟨_, _, rfl, rfl⟩
  | some byte =>
      dsimp only
      by_cases zero : byte.toNat = 0
      · rw [if_pos zero, if_pos zero]
        exact Or.inr ⟨_, _, rfl, rfl⟩
      rw [if_neg zero, if_neg zero]
      by_cases mark : byte &&& 0xC0 = 0xC0
      · rw [if_pos mark, if_pos mark]
        cases data[pos + 1]? with
        | none => exact Or.inr ⟨_, _, rfl, rfl⟩
        | some low =>
            dsimp only
            by_cases more : pointers + 1 > MAX_POINTERS
            · rw [if_pos more, if_pos more]
              exact Or.inr ⟨_, _, rfl, rfl⟩
            · rw [if_neg more, if_neg more]
              exact Or.inl ⟨_, rfl, rfl⟩
      rw [if_neg mark, if_neg mark]
      by_cases cut : pos + 1 + byte.toNat > data.length
      · rw [if_pos cut, if_pos cut]
        exact Or.inr ⟨_, _, rfl, rfl⟩
      rw [if_neg cut, if_neg cut]
      by_cases long : nameBytes + (byte.toNat + 1) > MAX_NAME_BYTES
      · rw [if_pos long, if_pos long]
        exact Or.inr ⟨_, _, rfl, rfl⟩
      · rw [if_neg long, if_neg long]
        refine Or.inl ⟨_, rfl, ?_⟩
        rw [NameWalk.map, List.map_append]
        rfl

theorem loop_map (make : β → γ) (bound : Nat) (walk : NameWalk β) :
    loop (nameTurn (make ∘ read) data) bound (walk.map make) =
      (loop (nameTurn read data) bound walk).map fun done =>
        (done.1.map fun walked => (walked.1.map make, walked.2), done.2.map make) := by
  induction bound generalizing walk with
  | zero => rfl
  | succ bound ih =>
      rw [loop, loop]
      rcases @nameTurn_map β γ read data make walk with
        ⟨next, turned, turned'⟩ | ⟨result, last, turned, turned'⟩
      · rw [turned, turned']
        exact ih next
      · rw [turned, turned']
        rfl

theorem parseName_eq (data : List Byte) (start : Nat) :
    parseName data start = (walkName id data start).map fun walked =>
      walked.map fun (labels, pos) => (".".intercalate (labels.map fromUtf8Lossy), pos) := by
  have mapped := @loop_map (List Byte) String id data fromUtf8Lossy
    (MAX_POINTERS + MAX_NAME_BYTES + 1) ⟨[], start, false, 0, 0, 0⟩
  rw [parseName, walkName, walkName]
  change Option.map _ (Option.map Prod.fst (loop (nameTurn (fromUtf8Lossy ∘ id) data) _
    (NameWalk.map fromUtf8Lossy ⟨[], start, false, 0, 0, 0⟩))) = _
  rw [mapped]
  cases loop (nameTurn id data) (MAX_POINTERS + MAX_NAME_BYTES + 1) ⟨[], start, false, 0, 0, 0⟩ with
  | none => rfl
  | some done =>
      rcases done with ⟨_ | _, _⟩
      · rfl
      · rfl

/-- No raw label is empty. -/
theorem ne_nil_of_loop {walk last : NameWalk (List Byte)} {bound offset : Nat}
    (filled : ∀ label ∈ walk.labels, label ≠ [])
    (done : loop (nameTurn id data) bound walk = some (.ok (labels, offset), last)) :
    ∀ label ∈ labels, label ≠ [] := by
  induction bound generalizing walk with
  | zero => cases done
  | succ bound ih =>
      rw [loop] at done
      have turned := nameTurned id data walk
      generalize nameTurn id data walk = turn at turned done
      cases turned with
      | fails error => cases done
      | ends there =>
          cases done
          exact filled
      | follows =>
          refine ih ?_ done
          exact filled
      | takes there positive plain inside room =>
          refine ih ?_ done
          intro label member
          rcases List.mem_append.mp member with old | new
          · exact filled label old
          · rw [List.mem_singleton.mp new, id, ← List.length_pos_iff, slice, List.length_take,
              List.length_drop]
            omega

theorem toString_dot : "." = String.singleton '.' := rfl

theorem parseName_labels {start : Nat} {rest : List Byte} (filled : ∀ label ∈ labels, label ≠ [])
    (fits : Fits labels) (there : data.drop start = labelBytes labels ++ 0 :: rest) :
    parseName data start = some (.ok
      (".".intercalate (labels.map fromUtf8Lossy), start + nameLength labels + 1)) := by
  have few := length_le_nameLength filled
  have long := fits.2
  rcases @loop_labels String fromUtf8Lossy data labels ⟨[], start, false, 0, 0, 0⟩ rest
    (MAX_POINTERS + MAX_NAME_BYTES + 1) filled fits.1 there
    (by rw [Nat.zero_add]; exact long) (by omega) with ⟨last, read⟩
  rw [parseName, walkName, read]
  rfl

theorem parseName_pointer {pos : Nat} {rest tail : List Byte}
    (filled : ∀ label ∈ labels, label ≠ []) (fits : Fits labels)
    (there : data.drop 12 = labelBytes labels ++ 0 :: rest)
    (pointer : data.drop pos = 0xC0 :: 0x0C :: tail) :
    parseName data pos =
      some (.ok (".".intercalate (labels.map fromUtf8Lossy), pos + 2)) := by
  have few := length_le_nameLength filled
  have long := fits.2
  have second : data.drop (pos + 1) = 0x0C :: tail := by
    rw [← List.drop_drop, pointer]
    rfl
  rcases @loop_labels String fromUtf8Lossy data labels ⟨[], 12, true, pos + 2, 1, 0⟩ rest
    (MAX_POINTERS + MAX_NAME_BYTES) filled fits.1 there
    (by rw [Nat.zero_add]; exact long) (by rw [MAX_POINTERS]; omega) with ⟨last, read⟩
  have turn : nameTurn fromUtf8Lossy data ⟨[], pos, false, 0, 0, 0⟩ =
      .again ⟨[], 12, true, pos + 2, 1, 0⟩ := by
    rw [nameTurn, getElem?_of_drop pointer, getElem?_of_drop second]
    rfl
  rw [parseName, walkName, loop, turn]
  dsimp only
  rw [read]
  rfl

/-- Reading a name ends, without an access outside of the message; where it succeeds, the
name ends in the message, behind its start, at a place that the bytes up to there
decide. -/
theorem parseName_total (data : List Byte) (start : Nat) :
    (parseName data start).isSome = true ∧
      (∀ walk : NameWalk String, nameTurnIndexed fromUtf8Lossy data walk =
        .ok (nameTurn fromUtf8Lossy data walk)) ∧
      ∀ name stop, parseName data start = some (.ok (name, stop)) →
        start < stop ∧ stop ≤ data.length ∧
          ∀ data' name' stop', data'.take stop = data.take stop →
            parseName data' start = some (.ok (name', stop')) → stop' = stop := by
  have walked : ∀ {data : List Byte} {name : String} {stop : Nat},
      parseName data start = some (.ok (name, stop)) → ∃ labels last,
        loop (nameTurn fromUtf8Lossy data) (MAX_POINTERS + MAX_NAME_BYTES + 1)
          ⟨[], start, false, 0, 0, 0⟩ = some (.ok (labels, stop), last) := by
    intro data name stop parsed
    rw [parseName, walkName] at parsed
    rcases Option.map_eq_some_iff.mp parsed with ⟨_, found, read⟩
    rcases Option.map_eq_some_iff.mp found with ⟨⟨result, last⟩, done, rfl⟩
    cases result with
    | error error => cases read
    | ok result =>
        cases read
        exact ⟨_, last, done⟩
  refine ⟨?_, nameTurnIndexed_eq fromUtf8Lossy data, ?_⟩
  · rw [parseName, Option.isSome_map]
    exact walkName_isSome fromUtf8Lossy data start
  · intro name stop parsed
    rcases walked parsed with ⟨labels, last, done⟩
    rcases stop_of_loop rfl done with ⟨behind, within, unique⟩
    refine ⟨behind, within, fun data' name' stop' agrees parsed' => ?_⟩
    rcases walked parsed' with ⟨labels', last', done'⟩
    exact unique agrees rfl rfl done'

/-- A label, and a pointer to a label before it. -/
theorem parseName_total_pointer :
    3 < 7 ∧ 7 ≤ 7 ∧ ∀ data' name' stop',
      data'.take 7 = ([1, 97, 0, 1, 98, 0xC0, 0] : List Byte).take 7 →
        parseName data' 3 = some (.ok (name', stop')) → stop' = 7 :=
  (parseName_total [1, 97, 0, 1, 98, 0xC0, 0] 3).2.2 "b.a" 7 (by decide +kernel)

end Labels

end Corduit.Netstack.Dns
