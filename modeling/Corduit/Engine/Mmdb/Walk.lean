import Corduit.Engine.Mmdb.Core

/-!
# The walk over a database

Decoding a value arrives at one field after another: the fields in a map or an array
in their order, the field that a pointer leads to in the place of the pointer.  The
walk over the fields says where decoding arrives without saying what it decodes; a
decode panics where the walk arrives at a field whose type does not fit a byte, and
nowhere else.
-/

namespace Corduit.Engine.Mmdb

open Netstack Text Transition Word

section Fields

variable {data : Blob} {offset pos size : Nat}

theorem get_eq_ok_iff {bytes : List Byte} {place : Nat} {byte : Byte} :
    get bytes place = .ok byte ↔ bytes[place]? = some byte :=
  Checked.okOr_eq_ok_iff

theorem get_of_none {bytes : List Byte} {place : Nat} (absent : bytes[place]? = none) :
    get bytes place = missing := by
  rw [get, absent]
  rfl

theorem add_place {place step : Nat} (inside : place ≤ data.bytes.length)
    (small : step < 2 ^ 63) : (Checked.add 64 place step : Try Nat) = .ok (place + step) :=
  Checked.add_of_lt (by have short := data.short; omega)

/-- The type of the field does not fit a byte. -/
def TypeOverflows (data : Blob) (offset : Nat) : Prop :=
  ∃ control ext, data.bytes[offset]? = some control ∧ (control >>> 5).toNat = 0 ∧
    data.bytes[offset + 1]? = some ext ∧ 256 ≤ ext.toNat + 7

theorem fieldType_cases (data : Blob) (offset : Nat) :
    (∃ ty sizeBits pos, fieldType data offset = .ok (ty, sizeBits, pos) ∧
        offset < pos ∧ pos ≤ data.bytes.length ∧ ¬TypeOverflows data offset) ∨
      (fieldType data offset = missing ∧ ¬TypeOverflows data offset) ∨
      (fieldType data offset = .error .panics ∧ TypeOverflows data offset) := by
  rw [fieldType]
  cases controlled : data.bytes[offset]? with
  | none =>
      refine Or.inr (Or.inl ⟨by rw [get_of_none controlled]; rfl, ?_⟩)
      rintro ⟨control, ext, there, _⟩
      rw [controlled] at there
      cases there
  | some control =>
      have inside := (List.getElem?_eq_some_iff.mp controlled).1
      rw [get_eq_ok_iff.mpr controlled, add_place (Nat.le_of_lt inside) (by decide)]
      by_cases extended : (control >>> 5).toNat = 0
      · cases extension : data.bytes[offset + 1]? with
        | none =>
            refine Or.inr (Or.inl ⟨?_, ?_⟩)
            · simp only [bind, Except.bind, if_pos extended, get_of_none extension]
              rfl
            · rintro ⟨control', ext, _, _, there, _⟩
              rw [extension] at there
              cases there
        | some ext =>
            have inside' := (List.getElem?_eq_some_iff.mp extension).1
            have next : (Checked.add 64 (offset + 1) 1 : Try Nat) = .ok (offset + 1 + 1) :=
              add_place (Nat.le_of_lt inside') (by decide)
            by_cases small : ext.toNat + 7 < 256
            · have type_eq : (Checked.add 8 ext.toNat 7 : Try Nat) = .ok (ext.toNat + 7) :=
                Checked.add_of_lt small
              refine Or.inl ⟨ext.toNat + 7, control &&& 0x1F, offset + 1 + 1, ?_, ?_, inside', ?_⟩
              · simp only [bind, Except.bind, if_pos extended, get_eq_ok_iff.mpr extension, next,
                  type_eq]
                rfl
              · omega
              · rintro ⟨_, other, _, _, there, large⟩
                rw [extension] at there
                cases there
                omega
            · have type_eq : (Checked.add 8 ext.toNat 7 : Try Nat) = .error .panics :=
                if_neg small
              refine Or.inr (Or.inr ⟨?_, control, ext, controlled, extended, extension, by omega⟩)
              simp only [bind, Except.bind, if_pos extended, get_eq_ok_iff.mpr extension, next,
                type_eq]
      · refine Or.inl ⟨_, _, _, if_neg extended, Nat.lt_succ_self _, inside, ?_⟩
        rintro ⟨other, _, there, zero, _⟩
        rw [controlled] at there
        cases there
        exact extended zero

theorem cases_of_yields {α : Type} {post : α → Prop} {computed : Try α}
    (yields : Checked.Yields post computed) :
    (∃ value, computed = .ok value ∧ post value) ∨ computed = missing := by
  cases yields with
  | ok holds => exact Or.inl ⟨_, rfl, holds⟩
  | fails error => exact Or.inr rfl

theorem yields_get (bytes : List Byte) (place : Nat) :
    Checked.Yields (fun _ => place < bytes.length) (get bytes place) := by
  rw [get]
  cases found : bytes[place]? with
  | none => exact .fails ()
  | some byte => exact .ok (List.getElem?_eq_some_iff.mp found).1

theorem yields_add_place {place step : Nat} (inside : place ≤ data.bytes.length)
    (small : step < 2 ^ 63) :
    Checked.Yields (fun sum => sum = place + step) (Checked.add 64 place step : Try Nat) :=
  Checked.yields_add (by have short := data.short; omega)

theorem yields_readSize (sizeBits : Byte) (inside : pos ≤ data.bytes.length) :
    Checked.Yields (fun found => pos ≤ found.2 ∧ found.2 ≤ data.bytes.length ∧ found.1 < 2 ^ 32)
      (readSize data sizeBits pos) := by
  have byte_lt (byte : Byte) : byte.toNat < 256 := byte.isLt
  rw [readSize]
  split
  · refine (yields_get _ _).bind fun first _ inside' => ?_
    refine (yields_add_place inside (by decide)).bind fun pos' _ place => ?_
    have small := byte_lt first
    exact .ok ⟨by dsimp only; omega, by dsimp only; omega, by dsimp only; omega⟩
  · refine (yields_get _ _).bind fun high _ _ => ?_
    refine (yields_add_place inside (by decide)).bind fun second _ place => ?_
    refine (yields_get _ _).bind fun low _ inside' => ?_
    refine (yields_add_place inside (by decide)).bind fun pos' _ place' => ?_
    have small := byte_lt high
    have small' := byte_lt low
    refine .ok ⟨by dsimp only; omega, by dsimp only; omega, ?_⟩
    dsimp only
    rw [Nat.shiftLeft_eq]
    omega
  · refine (yields_get _ _).bind fun first _ _ => ?_
    refine (yields_add_place inside (by decide)).bind fun second _ place => ?_
    refine (yields_get _ _).bind fun middle _ _ => ?_
    refine (yields_add_place inside (by decide)).bind fun third _ place' => ?_
    refine (yields_get _ _).bind fun last _ inside' => ?_
    refine (yields_add_place inside (by decide)).bind fun pos' _ place'' => ?_
    have small := byte_lt first
    have small' := byte_lt middle
    have small'' := byte_lt last
    refine .ok ⟨by dsimp only; omega, by dsimp only; omega, ?_⟩
    dsimp only
    rw [Nat.shiftLeft_eq, Nat.shiftLeft_eq]
    omega
  · split
    · exact .ok ⟨Nat.le_refl _, inside, by dsimp only; omega⟩
    · exact .fails ()

theorem yields_readPointer (sizeBits : Byte) (payload : List Byte) :
    Checked.Yields (fun found => found.2 ≤ payload.length) (readPointer sizeBits payload) := by
  have high : (sizeBits &&& 0x07).toNat < 2 ^ 8 := (sizeBits &&& 0x07).isLt
  have byte_lt (byte : Byte) : byte.toNat < 2 ^ 8 := byte.isLt
  have shifted {number bits : Nat} (small : number < 2 ^ 8) (few : bits ≤ 24) :
      number <<< bits < 2 ^ 32 := by
    rw [Nat.shiftLeft_eq]
    calc number * 2 ^ bits < 2 ^ 8 * 2 ^ bits := Nat.mul_lt_mul_of_pos_right small (Nat.two_pow_pos bits)
      _ ≤ 2 ^ 8 * 2 ^ 24 := Nat.mul_le_mul_left _ (Nat.pow_le_pow_right (by decide) few)
      _ = 2 ^ 32 := by decide
  have plain {number : Nat} (small : number < 2 ^ 8) : number < 2 ^ 32 :=
    small.trans (by decide)
  rw [readPointer]
  split
  · exact (yields_get _ _).bind fun first _ inside => .ok inside
  · refine (yields_get _ _).bind fun first _ _ => ?_
    refine (yields_get _ _).bind fun second _ inside => ?_
    have small := Nat.or_lt_two_pow (@shifted _ 16 high (by decide))
      (Nat.or_lt_two_pow (@shifted _ 8 (byte_lt first) (by decide)) (plain (byte_lt second)))
    exact (Checked.yields_add (by omega)).bind fun value _ _ => .ok inside
  · refine (yields_get _ _).bind fun first _ _ => ?_
    refine (yields_get _ _).bind fun second _ _ => ?_
    refine (yields_get _ _).bind fun third _ inside => ?_
    have small := Nat.or_lt_two_pow (@shifted _ 24 high (by decide))
      (Nat.or_lt_two_pow (Nat.or_lt_two_pow (@shifted _ 16 (byte_lt first) (by decide))
        (@shifted _ 8 (byte_lt second) (by decide))) (plain (byte_lt third)))
    exact (Checked.yields_add (by omega)).bind fun value _ _ => .ok inside
  · split
    · rename_i four
      exact .ok four
    · exact .fails ()

theorem yields_pointerTarget (ptrBase depth : Nat) (sizeBits : Byte)
    (inside : pos ≤ data.bytes.length) :
    Checked.Yields (fun found => pos + found.2 ≤ data.bytes.length ∧ depth < MAX_DEPTH)
      (pointerTarget data ptrBase depth sizeBits pos) := by
  rw [pointerTarget, rest, if_pos inside]
  refine (yields_readPointer sizeBits (data.bytes.drop pos)).bind fun found _ short => ?_
  rcases found with ⟨value, payloadLen⟩
  rw [List.length_drop] at short
  dsimp only at short ⊢
  split
  · exact .fails ()
  · rename_i shallow
    split
    · exact .fails ()
    · split
      · exact .fails ()
      · exact .ok ⟨by dsimp only; omega, Nat.lt_of_not_le shallow⟩

theorem yields_scalar (ty : Nat) (payload : List Byte) :
    Checked.Returns (scalar ty payload) := by
  have number (width : Nat) : Checked.Returns (beUint width payload) := by
    rw [beUint]
    split
    · exact .fails ()
    · exact Checked.returns_ok _
  rw [scalar.eq_def]
  split
  · exact Checked.returns_bind (Checked.returns_okOr _ _) fun text _ => Checked.returns_ok _
  · exact Checked.returns_bind (number 8) fun value _ => Checked.returns_ok _
  · exact Checked.returns_ok _
  · exact Checked.returns_bind (number 2) fun value _ => Checked.returns_ok _
  · exact Checked.returns_bind (number 4) fun value _ => Checked.returns_ok _
  · exact Checked.returns_bind (number 8) fun value _ => Checked.returns_ok _
  · exact Checked.returns_ok _

theorem yields_payloadValue (ty : Nat) (inside : pos ≤ data.bytes.length) (small : size < 2 ^ 32) :
    Checked.Yields (fun found => pos ≤ found.2 ∧ found.2 ≤ data.bytes.length)
      (payloadValue data ty pos size) := by
  rw [payloadValue]
  refine (yields_add_place inside (small.trans (by decide))).bind fun stop _ place => ?_
  refine (Checked.yields_okOr _ _).bind fun payload _ found => ?_
  have within : pos ≤ stop ∧ stop ≤ data.bytes.length := by
    by_contra outside
    rw [range?, if_neg outside] at found
    cases found
  exact (yields_scalar ty payload).bind fun value _ _ => .ok within

end Fields

/-- What a walk has still to do: a field, which may have to be a text, a place to go
on from, or to stop. -/
inductive Task where
  | field (isKey : Bool) (depth : Nat)
  | resume (pos : Nat)
  | stop

/-- A walk over the fields of a database. -/
structure Walk where
  tasks : List Task
  pos : Nat
  values : Nat

/-- The value is a text. -/
def DataValue.isStr : DataValue → Bool
  | .str _ => true
  | _ => false

/-- A key that is no text stops the walk. -/
def unlessText (isKey isText : Bool) : List Task :=
  if isKey && !isText then [.stop] else []

/-- The fields of a map. -/
def entryTasks (depth : Nat) : (count : Nat) → List Task
  | 0 => []
  | count + 1 => .field true depth :: .field false depth :: entryTasks depth count

/-- The fields that a field leads to, and where they begin. -/
def fieldTasks (data : Blob) (ptrBase : Nat) (isKey : Bool) (depth offset : Nat) :
    Option (List Task × Nat) :=
  match fieldType data offset with
  | .error _ => none
  | .ok (ty, sizeBits, pos) =>
      if ty = 1 then
        match pointerTarget data ptrBase depth sizeBits pos with
        | .error _ => none
        | .ok (target, payloadLen) =>
            some ([.field isKey (depth + 1), .resume (pos + payloadLen)], target)
      else
        match readSize data sizeBits pos with
        | .error _ => none
        | .ok (size, pos) =>
            if ty = 14 then some (unlessText isKey false, pos)
            else if ty = 7 ∨ ty = 11 then
              if size > MAX_CONTAINER_ENTRIES ∨ depth ≥ MAX_DEPTH then none
              else if ty = 7 then some (entryTasks (depth + 1) size ++ unlessText isKey false, pos)
              else
                some (List.replicate size (.field false (depth + 1)) ++ unlessText isKey false, pos)
            else
              match payloadValue data ty pos size with
              | .error _ => none
              | .ok (value, stop) => some (unlessText isKey value.isStr, stop)

/-- A step of the walk. -/
def advance (data : Blob) (ptrBase : Nat) : Step Walk := fun walk =>
  match walk.tasks with
  | [] => none
  | .stop :: _ => none
  | .resume pos :: tasks => some ⟨tasks, pos, walk.values⟩
  | .field isKey depth :: tasks =>
      if walk.values ≥ MAX_DECODED_VALUES then none
      else
        (fieldTasks data ptrBase isKey depth walk.pos).map fun (fields, pos) =>
          ⟨fields ++ tasks, pos, walk.values + 1⟩

/-- The walk is at a field whose type does not fit a byte. -/
def Walk.Overflows (data : Blob) (walk : Walk) : Prop :=
  match walk.tasks with
  | .field _ _ :: _ => walk.values < MAX_DECODED_VALUES ∧ TypeOverflows data walk.pos
  | _ => False

/-- The walk from a field on arrives at fields with types that fit a byte only. -/
def TypesFit (data : Blob) (ptrBase offset : Nat) : Prop :=
  ∀ walk, Reaches (advance data ptrBase) ⟨[.field false 0], offset, 0⟩ walk →
    ¬walk.Overflows data

section Following

variable {data : Blob} {ptrBase depth : Nat}

/-- The walk comes to an end, at no field whose type overflows. -/
def Stops (data : Blob) (ptrBase : Nat) (walk : Walk) : Prop :=
  ∃ last, Reaches (advance data ptrBase) walk last ∧ advance data ptrBase last = none ∧
    ¬last.Overflows data

/-- The walk arrives at a field whose type overflows. -/
def Breaks (data : Blob) (ptrBase : Nat) (walk : Walk) : Prop :=
  ∃ last, Reaches (advance data ptrBase) walk last ∧ last.Overflows data

variable {walk : Walk} {α : Type} {state : DecodeState}

theorem advance_of_overflows (overflows : walk.Overflows data) :
    advance data ptrBase walk = none := by
  rcases walk with ⟨tasks, pos, values⟩
  cases tasks with
  | nil => exact overflows.elim
  | cons task tasks =>
      cases task with
      | field isKey depth =>
          have type_eq : fieldType data pos = .error .panics := by
            rcases fieldType_cases data pos with ⟨_, _, _, _, _, _, fits⟩ | ⟨_, fits⟩ | ⟨read, _⟩
            · exact absurd overflows.2 fits
            · exact absurd overflows.2 fits
            · exact read
          have none_eq : fieldTasks data ptrBase isKey depth pos = none := by
            rw [fieldTasks, type_eq]
          rw [advance]
          dsimp only
          rw [if_neg (Nat.not_le_of_lt overflows.1), none_eq]
          rfl
      | resume pos => exact overflows.elim
      | stop => exact overflows.elim

theorem Stops.not_breaks (stops : Stops data ptrBase walk) :
    ¬Breaks data ptrBase walk := by
  rintro ⟨broken, reaches', overflows⟩
  rcases stops with ⟨last, reaches, ended, fits⟩
  have same := reaches.end_unique ended reaches' (advance_of_overflows overflows)
  exact fits (same ▸ overflows)

/-- The result of a decode is where the walk goes. -/
def Tracks {α : Type} (data : Blob) (ptrBase : Nat) (start : List Task → Walk) (depth : Nat)
    (result : Try (α × Nat)) (state : DecodeState) : Prop :=
  match result with
  | .ok (_, next) =>
      state.depth = depth ∧ next ≤ data.bytes.length ∧
        ∀ tasks, Reaches (advance data ptrBase) (start tasks) ⟨tasks, next, state.values⟩
  | .error (.fails _) => ∀ tasks, Stops data ptrBase (start tasks)
  | .error .panics => ∀ tasks, Breaks data ptrBase (start tasks)
  | .error .unending => False

/-- A value that has to be a text is missing if it is none. -/
def judge (isKey : Bool) (result : Try (DataValue × Nat)) : Try (DataValue × Nat) :=
  match result with
  | .ok (value, next) => if isKey && !value.isStr then missing else .ok (value, next)
  | .error halt => .error halt

/-- What decoding a field does: it keeps to the budgets, goes forward and follows the
walk. -/
structure FieldFollows (data : Blob) (ptrBase depth offset values : Nat)
    (decoded : Decoded (DataValue × Nat)) : Prop where
  budget : values ≤ decoded.2.values ∧ decoded.2.values ≤ MAX_DECODED_VALUES
  deep : depth ≤ decoded.2.depth
  forward : ∀ value next, decoded.1 = .ok (value, next) → offset < next
  tracks : ∀ isKey, Tracks data ptrBase (fun tasks => ⟨.field isKey depth :: tasks, offset, values⟩)
    depth (judge isKey decoded.1) decoded.2

/-- Decoding does so at a depth. -/
def Follows (data : Blob) (ptrBase depth : Nat) (read : Reads) : Prop :=
  ∀ offset values, values ≤ MAX_DECODED_VALUES →
    FieldFollows data ptrBase depth offset values (read offset ⟨depth, values⟩)

theorem Tracks.head {start middle : List Task → Walk} {result : Try (α × Nat)}
    (tracks : Tracks data ptrBase middle depth result state)
    (step : ∀ tasks, Reaches (advance data ptrBase) (start tasks) (middle tasks)) :
    Tracks data ptrBase start depth result state := by
  cases result with
  | ok found => exact ⟨tracks.1, tracks.2.1, fun tasks => (step tasks).trans (tracks.2.2 tasks)⟩
  | error halt =>
      cases halt with
      | fails error =>
          intro tasks
          rcases tracks tasks with ⟨last, reaches, ended, fits⟩
          exact ⟨last, (step tasks).trans reaches, ended, fits⟩
      | panics =>
          intro tasks
          rcases tracks tasks with ⟨last, reaches, overflows⟩
          exact ⟨last, (step tasks).trans reaches, overflows⟩
      | unending => exact tracks

theorem stops_here (ended : advance data ptrBase walk = none) (fits : ¬walk.Overflows data) :
    Stops data ptrBase walk :=
  ⟨walk, Relation.ReflTransGen.refl, ended, fits⟩

theorem tracks_judge {start : List Task → Walk} {isKey : Bool} {value : DataValue}
    {next values : Nat} (inside : next ≤ data.bytes.length)
    (reaches : ∀ tasks, Reaches (advance data ptrBase) (start tasks)
      ⟨unlessText isKey value.isStr ++ tasks, next, values⟩) :
    Tracks data ptrBase start depth (judge isKey (.ok (value, next))) ⟨depth, values⟩ := by
  rw [judge]
  rw [unlessText] at reaches
  by_cases rejected : (isKey && !value.isStr) = true
  · rw [if_pos rejected]
    rw [if_pos rejected] at reaches
    intro tasks
    exact ⟨_, reaches tasks, rfl, fun overflows => overflows⟩
  · rw [if_neg rejected]
    rw [if_neg rejected] at reaches
    exact ⟨rfl, inside, reaches⟩

/-- What the loops over the fields of a container do. -/
structure LoopFollows {α : Type} (data : Blob) (ptrBase depth p values : Nat)
    (start : List Task → Walk) (decoded : Decoded (α × Nat)) : Prop where
  budget : values ≤ decoded.2.values ∧ decoded.2.values ≤ MAX_DECODED_VALUES
  deep : depth ≤ decoded.2.depth
  forward : ∀ content next, decoded.1 = .ok (content, next) → p ≤ next
  tracks : Tracks data ptrBase start depth decoded.1 decoded.2

/-- One decode after another. -/
def chain {α β : Type} (decoded : Decoded (α × Nat)) (later : α → Nat → DecodeState → Decoded β) :
    Decoded β :=
  match decoded with
  | (.error halt, state) => (.error halt, state)
  | (.ok (value, p), state) => later value p state

theorem chain_follows {α β : Type} {p values : Nat} {start : List Task → Walk} {fields : List Task}
    {decoded : Decoded (α × Nat)} {later : α → Nat → DecodeState → Decoded (β × Nat)}
    (first : LoopFollows data ptrBase depth p values start decoded)
    (rest : ∀ value p' values', decoded.1 = .ok (value, p') → p' ≤ data.bytes.length →
      values' ≤ MAX_DECODED_VALUES →
      LoopFollows data ptrBase depth p' values' (fun tasks => ⟨fields ++ tasks, p', values'⟩)
        (later value p' ⟨depth, values'⟩)) :
    LoopFollows data ptrBase depth p values (fun tasks => start (fields ++ tasks))
      (chain decoded later) := by
  rcases decoded with ⟨result, ⟨depth', values'⟩⟩
  rcases first with ⟨budget, deep, forward, tracks⟩
  cases result with
  | error halt =>
      refine ⟨budget, deep, (fun content next done => by cases done), ?_⟩
      cases halt with
      | fails error => exact fun tasks => tracks (fields ++ tasks)
      | panics => exact fun tasks => tracks (fields ++ tasks)
      | unending => exact tracks
  | ok found =>
      rcases found with ⟨value, p'⟩
      rcases tracks with ⟨same, inside, reaches⟩
      obtain rfl : depth' = depth := same
      have later := rest value p' values' rfl inside budget.2
      refine ⟨⟨budget.1.trans later.budget.1, later.budget.2⟩, later.deep, ?_,
        later.tracks.head fun tasks => reaches (fields ++ tasks)⟩
      intro content next done
      exact (forward value p' rfl).trans (later.forward content next done)

theorem judge_false (result : Try (DataValue × Nat)) : judge false result = result := by
  cases result with
  | error halt => rfl
  | ok found => rfl

section

variable {p values : Nat} {decoded : Decoded (DataValue × Nat)}
  (follows : FieldFollows data ptrBase depth p values decoded)

include follows

theorem FieldFollows.key (isKey : Bool) :
    LoopFollows data ptrBase depth p values (fun tasks => ⟨.field isKey depth :: tasks, p, values⟩)
      (judge isKey decoded.1, decoded.2) := by
  refine ⟨follows.budget, follows.deep, ?_, follows.tracks isKey⟩
  intro value next done
  have forward := follows.forward
  generalize decoded.1 = result at *
  cases result with
  | error halt => cases done
  | ok found =>
      rcases found with ⟨found, next'⟩
      rw [judge] at done
      split at done
      · cases done
      · cases done
        exact Nat.le_of_lt (forward _ _ rfl)

theorem FieldFollows.value :
    LoopFollows data ptrBase depth p values (fun tasks => ⟨.field false depth :: tasks, p, values⟩)
      decoded := by
  have follows := follows.key false
  rw [judge_false] at follows
  exact follows

end

theorem loopFollows_done {p values : Nat} (content : α) (inside : p ≤ data.bytes.length)
    (few : values ≤ MAX_DECODED_VALUES) :
    LoopFollows data ptrBase depth p values (fun tasks => ⟨[] ++ tasks, p, values⟩)
      (.ok (content, p), ⟨depth, values⟩) := by
  refine ⟨⟨Nat.le_refl _, few⟩, Nat.le_refl _, ?_, rfl, inside,
    fun tasks => Relation.ReflTransGen.refl⟩
  intro content next done
  cases done
  exact Nat.le_refl _

/-- The text of a key. -/
def DataValue.text : DataValue → String
  | .str text => text
  | _ => ""

theorem readItems_succ (read : Reads) (count p : Nat) (state : DecodeState) :
    readItems read (count + 1) p state =
      chain (read p state) fun value p state =>
        chain (readItems read count p state) fun items p state => (.ok (value :: items, p), state) := by
  rw [readItems]
  rcases read p state with ⟨_ | ⟨value, p⟩, state⟩
  · rfl
  · rw [chain]
    dsimp only
    rcases readItems read count p state with ⟨_ | ⟨items, p⟩, state⟩
    · rfl
    · rfl

theorem readEntries_succ (read : Reads) (count p : Nat) (state : DecodeState) :
    readEntries read (count + 1) p state =
      chain (judge true (read p state).1, (read p state).2) fun key p state =>
        chain (read p state) fun value p state =>
          chain (readEntries read count p state) fun entries p state =>
            (.ok ((key.text, value) :: entries, p), state) := by
  rw [readEntries]
  rcases read p state with ⟨_ | ⟨key, p⟩, state⟩
  · rfl
  cases key with
  | str key =>
      change _ = chain (read p state) _
      dsimp only
      rcases read p state with ⟨_ | ⟨value, p⟩, state⟩
      · rfl
      · change _ = chain (readEntries read count p state) _
        dsimp only
        rcases readEntries read count p state with ⟨_ | ⟨entries, p⟩, state⟩
        · rfl
        · rfl
  | _ => rfl

section

variable {read : Reads} (follows : Follows data ptrBase depth read) (count : Nat) {p values : Nat}
  (inside : p ≤ data.bytes.length) (few : values ≤ MAX_DECODED_VALUES)

include follows inside few

theorem readItems_follows :
    LoopFollows data ptrBase depth p values
      (fun tasks => ⟨List.replicate count (.field false depth) ++ tasks, p, values⟩)
      (readItems read count p ⟨depth, values⟩) := by
  induction count generalizing p values with
  | zero => exact loopFollows_done [] inside few
  | succ count ih =>
      rw [readItems_succ]
      refine chain_follows (follows p values few).value fun value p values _ inside few => ?_
      have later := chain_follows (ih inside few) fun items p values _ inside few =>
        loopFollows_done (value :: items) inside few
      exact later

theorem readEntries_follows :
    LoopFollows data ptrBase depth p values
      (fun tasks => ⟨entryTasks depth count ++ tasks, p, values⟩)
      (readEntries read count p ⟨depth, values⟩) := by
  induction count generalizing p values with
  | zero => exact loopFollows_done [] inside few
  | succ count ih =>
      rw [readEntries_succ]
      refine @chain_follows data ptrBase depth _ _ p values _
        (.field false depth :: entryTasks depth count) _ _ ((follows p values few).key true)
        fun key p values _ inside few => ?_
      refine chain_follows (follows p values few).value fun value p values _ inside few => ?_
      have later := chain_follows (ih inside few) fun entries p values _ inside few =>
        loopFollows_done ((key.text, value) :: entries) inside few
      exact later

end

theorem container_follows {size p values : Nat} {start : List Task → Walk}
    {read : DecodeState → Decoded (α × Nat)} {make : α → DataValue}
    (loop : LoopFollows data ptrBase (depth + 1) p values start (read ⟨depth + 1, values⟩))
    (allowed : ¬(size > MAX_CONTAINER_ENTRIES ∨ depth ≥ MAX_DEPTH)) :
    LoopFollows data ptrBase depth p values start (container size ⟨depth, values⟩ read make) := by
  rw [container, if_neg allowed]
  dsimp only
  rcases decoded : read ⟨depth + 1, values⟩ with ⟨result, ⟨depth', values'⟩⟩
  rw [decoded] at loop
  rcases loop with ⟨budget, deep, forward, tracks⟩
  cases result with
  | error halt =>
      refine ⟨budget, Nat.le_of_succ_le deep, (fun content next done => by cases done), ?_⟩
      cases halt with
      | fails error => exact tracks
      | panics => exact tracks
      | unending => exact tracks
  | ok found =>
      rcases found with ⟨content, next⟩
      rcases tracks with ⟨same, inside, reaches⟩
      obtain rfl : depth' = depth + 1 := same
      refine ⟨budget, Nat.le_refl _, ?_, rfl, inside, reaches⟩
      intro value last done
      cases done
      exact forward content next rfl

theorem isStr_of_container {size next : Nat} {read : DecodeState → Decoded (α × Nat)}
    {make : α → DataValue} {value : DataValue} (notText : ∀ content, (make content).isStr = false)
    (done : (container size state read make).1 = .ok (value, next)) : value.isStr = false := by
  rw [container] at done
  split at done
  · cases done
  · split at done
    · cases done
    · split at done
      · cases done
      · cases done
        exact notText _

theorem Tracks.judged {start : List Task → Walk} {isText : Bool} {result : Try (DataValue × Nat)}
    (tracks : Tracks data ptrBase start depth result state) (isKey : Bool)
    (text : ∀ value next, result = .ok (value, next) → value.isStr = isText) :
    Tracks data ptrBase (fun tasks => start (unlessText isKey isText ++ tasks)) depth
      (judge isKey result) state := by
  cases result with
  | error halt =>
      cases halt with
      | fails error => exact fun tasks => tracks (unlessText isKey isText ++ tasks)
      | panics => exact fun tasks => tracks (unlessText isKey isText ++ tasks)
      | unending => exact tracks
  | ok found =>
      rcases found with ⟨value, next⟩
      rcases state with ⟨depth', values⟩
      rcases tracks with ⟨same, inside, reaches⟩
      obtain rfl : depth' = depth := same
      refine tracks_judge inside fun tasks => ?_
      rw [text value next rfl]
      exact reaches (unlessText isKey isText ++ tasks)

theorem fieldFollows_of_loop {offset values pos p : Nat} {inner : List Task} {isText : Bool}
    {decoded : Decoded (DataValue × Nat)} (more : values < MAX_DECODED_VALUES)
    (tasks_eq : ∀ isKey, fieldTasks data ptrBase isKey depth offset =
      some (inner ++ unlessText isKey isText, pos))
    (loop : LoopFollows data ptrBase depth p (values + 1)
      (fun tasks => ⟨inner ++ tasks, pos, values + 1⟩) decoded)
    (text : ∀ value next, decoded.1 = .ok (value, next) → value.isStr = isText)
    (behind : offset < p) : FieldFollows data ptrBase depth offset values decoded := by
  refine ⟨⟨(Nat.le_succ _).trans loop.budget.1, loop.budget.2⟩, loop.deep,
    fun value next done => behind.trans_le (loop.forward value next done), fun isKey => ?_⟩
  refine (loop.tracks.judged isKey text).head fun tasks => Reaches.head ?_ Relation.ReflTransGen.refl
  rw [advance]
  dsimp only
  rw [if_neg (Nat.not_le_of_lt more), tasks_eq, Option.map_some, List.append_assoc]

theorem fieldFollows_missing {offset values values' : Nat}
    (few : values ≤ values' ∧ values' ≤ MAX_DECODED_VALUES)
    (stuck : values < MAX_DECODED_VALUES →
      (∀ isKey, fieldTasks data ptrBase isKey depth offset = none) ∧ ¬TypeOverflows data offset) :
    FieldFollows data ptrBase depth offset values (missing, ⟨depth, values'⟩) := by
  refine ⟨few, Nat.le_refl _, (fun value next done => by cases done), fun isKey tasks => ?_⟩
  refine stops_here ?_ ?_
  · rw [advance]
    dsimp only
    by_cases more : values ≥ MAX_DECODED_VALUES
    · rw [if_pos more]
    · rw [if_neg more, (stuck (Nat.lt_of_not_le more)).1]
      rfl
  · rintro ⟨more, overflows⟩
    exact (stuck more).2 overflows

theorem pointer_follows {offset values target payloadLen pos : Nat}
    {decoded : Decoded (DataValue × Nat)} (more : values < MAX_DECODED_VALUES)
    (tasks_eq : ∀ isKey, fieldTasks data ptrBase isKey depth offset =
      some ([.field isKey (depth + 1), .resume (pos + payloadLen)], target))
    (before : offset < pos) (inside : pos + payloadLen ≤ data.bytes.length)
    (follows : FieldFollows data ptrBase (depth + 1) target (values + 1) decoded) :
    FieldFollows data ptrBase depth offset values
      (match decoded with
      | (resolved, state) =>
          match ascend state with
          | .error halt => (.error halt, state)
          | .ok state =>
              (resolved.bind fun (value, _) =>
                (Checked.add 64 pos payloadLen).map (value, ·), state)) := by
  rcases decoded with ⟨resolved, ⟨depth', values'⟩⟩
  rcases follows with ⟨budget, deep, _, tracks⟩
  have up : ascend ⟨depth', values'⟩ = .ok ⟨depth' - 1, values'⟩ := by
    rw [ascend, Checked.sub_of_le ((Nat.le_add_left 1 depth).trans deep)]
    rfl
  have behind : (Checked.add 64 pos payloadLen : Try Nat) = .ok (pos + payloadLen) :=
    Checked.add_of_lt (by have short := data.short; omega)
  have turn (isKey : Bool) (tasks : List Task) : Reaches (advance data ptrBase)
      ⟨.field isKey depth :: tasks, offset, values⟩
      ⟨.field isKey (depth + 1) :: .resume (pos + payloadLen) :: tasks, target, values + 1⟩ := by
    refine Reaches.head ?_ Relation.ReflTransGen.refl
    rw [advance]
    dsimp only
    rw [if_neg (Nat.not_le_of_lt more), tasks_eq]
    rfl
  dsimp only
  rw [up, behind]
  refine ⟨⟨(Nat.le_succ _).trans budget.1, budget.2⟩, Nat.le_sub_one_of_lt deep, ?_, fun isKey => ?_⟩
  · intro value next done
    cases resolved with
    | error halt => cases done
    | ok found =>
        cases done
        exact before.trans_le (Nat.le_add_right _ _)
  · have tracks := tracks isKey
    cases resolved with
    | error halt =>
        cases halt with
        | fails error =>
            intro tasks
            rcases tracks (.resume (pos + payloadLen) :: tasks) with ⟨last, reaches, ended, fits⟩
            exact ⟨last, (turn isKey tasks).trans reaches, ended, fits⟩
        | panics =>
            intro tasks
            rcases tracks (.resume (pos + payloadLen) :: tasks) with ⟨last, reaches, overflows⟩
            exact ⟨last, (turn isKey tasks).trans reaches, overflows⟩
        | unending => exact tracks
    | ok found =>
        rcases found with ⟨value, next⟩
        rw [judge] at tracks
        change Tracks data ptrBase _ depth (judge isKey (.ok (value, pos + payloadLen))) _
        rw [judge]
        by_cases rejected : (isKey && !value.isStr) = true
        · rw [if_pos rejected] at tracks ⊢
          intro tasks
          rcases tracks (.resume (pos + payloadLen) :: tasks) with ⟨last, reaches, ended, fits⟩
          exact ⟨last, (turn isKey tasks).trans reaches, ended, fits⟩
        · rw [if_neg rejected] at tracks ⊢
          rcases tracks with ⟨same, _, reaches⟩
          obtain rfl : depth' = depth + 1 := same
          refine ⟨rfl, inside, fun tasks => (turn isKey tasks).trans ?_⟩
          exact (reaches (.resume (pos + payloadLen) :: tasks)).tail rfl

theorem fieldTasks_of_sized {isKey : Bool} {offset ty pos size pos' : Nat} {sizeBits : Byte}
    (typed : fieldType data offset = .ok (ty, sizeBits, pos)) (plain : ty ≠ 1)
    (sized : readSize data sizeBits pos = .ok (size, pos')) :
    fieldTasks data ptrBase isKey depth offset =
      if ty = 14 then some (unlessText isKey false, pos')
      else if ty = 7 ∨ ty = 11 then
        if size > MAX_CONTAINER_ENTRIES ∨ depth ≥ MAX_DEPTH then none
        else if ty = 7 then some (entryTasks (depth + 1) size ++ unlessText isKey false, pos')
        else some (List.replicate size (.field false (depth + 1)) ++ unlessText isKey false, pos')
      else
        match payloadValue data ty pos' size with
        | .error _ => none
        | .ok (value, stop) => some (unlessText isKey value.isStr, stop) := by
  rw [fieldTasks, typed]
  dsimp only
  rw [if_neg plain, sized]

/-- Decoding a field follows the walk if decoding the fields one level deeper does. -/
theorem readField_follows {read : Reads}
    (deeper : depth < MAX_DEPTH → Follows data ptrBase (depth + 1) read) :
    Follows data ptrBase depth (readField data ptrBase read) := by
  intro offset values few
  rw [readField]
  dsimp only
  by_cases spent : values ≥ MAX_DECODED_VALUES
  · rw [if_pos spent]
    exact fieldFollows_missing ⟨Nat.le_refl _, few⟩ fun more => absurd spent (Nat.not_le_of_lt more)
  rw [if_neg spent]
  have more := Nat.lt_of_not_le spent
  have budget : values ≤ values + 1 ∧ values + 1 ≤ MAX_DECODED_VALUES := ⟨Nat.le_succ _, more⟩
  rcases fieldType_cases data offset with
    ⟨ty, sizeBits, pos, typed, before, inside, fits⟩ | ⟨typed, fits⟩ | ⟨typed, overflows⟩
  · rw [typed]
    dsimp only
    by_cases pointer : ty = 1
    · rw [if_pos pointer]
      rcases cases_of_yields (yields_pointerTarget ptrBase depth sizeBits inside) with
        ⟨⟨target, payloadLen⟩, pointed, inside', shallow⟩ | pointed
      · rw [pointed]
        refine pointer_follows more (fun isKey => ?_) before inside'
          (deeper shallow target (values + 1) more)
        rw [fieldTasks, typed]
        dsimp only
        rw [if_pos pointer, pointed]
      · rw [pointed]
        refine fieldFollows_missing budget fun _ => ⟨fun isKey => ?_, fits⟩
        rw [fieldTasks, typed]
        dsimp only
        rw [if_pos pointer, pointed]
        rfl
    rw [if_neg pointer]
    rcases cases_of_yields (yields_readSize sizeBits inside) with
      ⟨⟨size, pos'⟩, sized, ordered, inside', small⟩ | sized
    · rw [sized]
      dsimp only
      have behind : offset < pos' := before.trans_le ordered
      by_cases bool : ty = 14
      · rw [if_pos bool]
        refine @fieldFollows_of_loop data ptrBase depth offset values pos' pos' [] false _ more
          (fun isKey => ?_) (loopFollows_done (DataValue.bool (size = 1)) inside' more)
          (fun value next done => ?_) behind
        · rw [fieldTasks_of_sized typed pointer sized, if_pos bool]
          rfl
        · cases done
          rfl
      rw [if_neg bool]
      by_cases map : ty = 7
      · rw [if_pos map]
        by_cases large : size > MAX_CONTAINER_ENTRIES ∨ depth ≥ MAX_DEPTH
        · rw [container, if_pos large]
          refine fieldFollows_missing budget fun _ => ⟨fun isKey => ?_, fits⟩
          rw [fieldTasks_of_sized typed pointer sized, if_neg bool, if_pos (Or.inl map), if_pos large]
        · have shallow := Nat.lt_of_not_le fun deep => large (Or.inr deep)
          refine fieldFollows_of_loop more (fun isKey => ?_)
            (container_follows (readEntries_follows (deeper shallow) size inside' more) large)
            (fun value next done => isStr_of_container (fun content => rfl) done) behind
          rw [fieldTasks_of_sized typed pointer sized, if_neg bool, if_pos (Or.inl map), if_neg large, if_pos map]
      rw [if_neg map]
      by_cases array : ty = 11
      · rw [if_pos array]
        by_cases large : size > MAX_CONTAINER_ENTRIES ∨ depth ≥ MAX_DEPTH
        · rw [container, if_pos large]
          refine fieldFollows_missing budget fun _ => ⟨fun isKey => ?_, fits⟩
          rw [fieldTasks_of_sized typed pointer sized, if_neg bool, if_pos (Or.inr array), if_pos large]
        · have shallow := Nat.lt_of_not_le fun deep => large (Or.inr deep)
          refine fieldFollows_of_loop more (fun isKey => ?_)
            (container_follows (readItems_follows (deeper shallow) size inside' more) large)
            (fun value next done => isStr_of_container (fun content => rfl) done) behind
          rw [fieldTasks_of_sized typed pointer sized, if_neg bool, if_pos (Or.inr array), if_neg large, if_neg map]
      rw [if_neg array]
      have tasks_eq (isKey : Bool) : fieldTasks data ptrBase isKey depth offset =
          match payloadValue data ty pos' size with
          | .error _ => none
          | .ok (value, stop) => some (unlessText isKey value.isStr, stop) := by
        rw [fieldTasks_of_sized typed pointer sized, if_neg bool, if_neg (not_or.mpr ⟨map, array⟩)]
      rcases cases_of_yields (yields_payloadValue ty inside' small) with
        ⟨⟨value, stop⟩, read, ordered', inside''⟩ | read
      · rw [read]
        refine @fieldFollows_of_loop data ptrBase depth offset values stop stop [] value.isStr _ more
          (fun isKey => by rw [tasks_eq, read]; rfl) (loopFollows_done value inside'' more)
          (fun other next done => ?_) (behind.trans_le ordered')
        cases done
        rfl
      · rw [read]
        exact fieldFollows_missing budget fun _ => ⟨fun isKey => by rw [tasks_eq, read]; rfl, fits⟩
    · rw [sized]
      refine fieldFollows_missing budget fun _ => ⟨fun isKey => ?_, fits⟩
      rw [fieldTasks, typed]
      dsimp only
      rw [if_neg pointer, sized]
      rfl
  · rw [typed]
    refine fieldFollows_missing budget fun _ => ⟨fun isKey => ?_, fits⟩
    rw [fieldTasks, typed]
    rfl
  · rw [typed]
    refine ⟨budget, Nat.le_refl _, (fun value next done => by cases done), fun isKey tasks => ?_⟩
    exact ⟨_, Relation.ReflTransGen.refl, more, overflows⟩

theorem readValue_follows (levels : Nat) (enough : depth + levels = MAX_DEPTH + 1)
    (some : levels ≠ 0) : Follows data ptrBase depth (readValue data ptrBase levels) := by
  induction levels generalizing depth with
  | zero => exact absurd rfl some
  | succ levels ih =>
      refine readField_follows fun shallow => ih (by omega) (by omega)

end Following

end Corduit.Engine.Mmdb
