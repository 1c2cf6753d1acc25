import Corduit.Word.BigEndian

/-!
# Computations that may panic

An addition that overflows, an index or a range outside of its list ends a program,
other than an error that a function returns.  Each of these operations has a value
under a condition, and panics otherwise.
-/

namespace Corduit.Word

/-- How a computation without a value ends: it returns an error, it panics, or the
bound of its model is used up. -/
inductive Halt (ε : Type) where
  | fails (error : ε)
  | panics
  | unending
deriving DecidableEq

namespace Checked

variable {ε α : Type}

/-- The sum, of a width. -/
def add (width first second : Nat) : Except (Halt ε) Nat :=
  if first + second < 2 ^ width then .ok (first + second) else .error .panics

/-- The value, of a width. -/
def fit (width value : Nat) : Except (Halt ε) Nat :=
  if value < 2 ^ width then .ok value else .error .panics

/-- A subtraction that stops the program below zero. -/
def sub (first second : Nat) : Except (Halt ε) Nat :=
  if second ≤ first then .ok (first - second) else .error .panics

/-- `elements[place]`. -/
def index (elements : List α) (place : Nat) : Except (Halt ε) α :=
  match elements[place]? with
  | some element => .ok element
  | none => .error .panics

/-- `&elements[start..stop]`. -/
def range (elements : List α) (start stop : Nat) : Except (Halt ε) (List α) :=
  match range? elements start stop with
  | some elements => .ok elements
  | none => .error .panics

/-- What an option holds, or an error. -/
def okOr (error : ε) (found : Option α) : Except (Halt ε) α :=
  match found with
  | some element => .ok element
  | none => .error (.fails error)

variable {β : Type} {width first second : Nat}

theorem ok_bind (value : α) (next : α → Except (Halt ε) β) :
    (Except.ok value >>= next) = next value := by
  -- not `rfl`: the kernel would unfold the sums of large numbers in `next value`
  simp only [bind, Except.bind]

theorem add_of_lt (small : first + second < 2 ^ width) :
    (add width first second : Except (Halt ε) Nat) = .ok (first + second) :=
  if_pos small

theorem fit_of_lt {width value : Nat} (small : value < 2 ^ width) :
    (fit width value : Except (Halt ε) Nat) = .ok value :=
  if_pos small

theorem sub_of_le {first second : Nat} (ordered : second ≤ first) :
    (sub first second : Except (Halt ε) Nat) = .ok (first - second) :=
  if_pos ordered

theorem range_of_le {elements : List α} {start stop : Nat} (ordered : start ≤ stop)
    (inside : stop ≤ elements.length) :
    (range elements start stop : Except (Halt ε) (List α)) =
      .ok (slice elements start (stop - start)) := by
  rw [range, range?_of_le ordered inside]

theorem okOr_eq_ok_iff {error : ε} {found : Option α} {element : α} :
    okOr error found = .ok element ↔ found = some element := by
  cases found with
  | none =>
      constructor
      · intro found
        cases found
      · intro found
        cases found
  | some other => rw [okOr, Except.ok.injEq, Option.some.injEq]

/-- The computation returns, an error or a value with some property. -/
inductive Yields (post : α → Prop) : Except (Halt ε) α → Prop where
  | ok {value : α} (holds : post value) : Yields post (.ok value)
  | fails (error : ε) : Yields post (.error (.fails error))

theorem Yields.bind {post : α → Prop} {post' : β → Prop} {first : Except (Halt ε) α}
    {next : α → Except (Halt ε) β} (yields : Yields post first)
    (later : ∀ value, first = .ok value → post value → Yields post' (next value)) :
    Yields post' (first >>= next) := by
  cases yields with
  | ok holds => exact later _ rfl holds
  | fails error => exact .fails error

theorem yields_okOr (error : ε) (found : Option α) :
    Yields (fun element => found = some element) (okOr error found) := by
  cases found with
  | none => exact .fails error
  | some element => exact .ok rfl

theorem yields_add (small : first + second < 2 ^ width) :
    Yields (fun sum => sum = first + second) (add width first second : Except (Halt ε) Nat) := by
  rw [add_of_lt small]
  exact .ok rfl

/-- The computation returns, a value or an error. -/
def Returns (computed : Except (Halt ε) α) : Prop :=
  Yields (fun _ => True) computed

theorem Yields.returns {post : α → Prop} {computed : Except (Halt ε) α}
    (yields : Yields post computed) : Returns computed := by
  cases yields with
  | ok holds => exact .ok trivial
  | fails error => exact .fails error

theorem returns_ok (value : α) : Returns (.ok value : Except (Halt ε) α) :=
  .ok trivial

theorem not_returns_panics : ¬Returns (.error .panics : Except (Halt ε) α) := by
  intro returns
  cases returns

theorem not_returns_unending : ¬Returns (.error .unending : Except (Halt ε) α) := by
  intro returns
  cases returns

instance : (computed : Except (Halt ε) α) → Decidable (Returns computed)
  | .error .panics => isFalse not_returns_panics
  | .error .unending => isFalse not_returns_unending
  | .error (.fails error) => isTrue (.fails error)
  | .ok value => isTrue (returns_ok value)

theorem returns_error_bind (halt : Halt ε) (next : α → Except (Halt ε) β) :
    Returns ((.error halt : Except (Halt ε) α) >>= next) ↔
      Returns (.error halt : Except (Halt ε) α) := by
  cases halt with
  | fails error => exact iff_of_true (.fails error) (.fails error)
  | panics => exact iff_of_false not_returns_panics not_returns_panics
  | unending => exact iff_of_false not_returns_unending not_returns_unending

section

variable {β : Type} {first : Except (Halt ε) α} {next : α → Except (Halt ε) β}

theorem returns_bind (returns : Returns first)
    (later : ∀ value, first = .ok value → Returns (next value)) :
    Returns (first >>= next) :=
  Yields.bind returns fun value found _ => later value found

/-- What always returns does not matter behind a computation. -/
theorem returns_bind_iff (later : ∀ value, Returns (next value)) :
    Returns (first >>= next) ↔ Returns first := by
  cases first with
  | error halt => exact returns_error_bind halt next
  | ok value => exact iff_of_true (later value) (returns_ok value)

end

theorem returns_okOr (error : ε) (found : Option α) : Returns (okOr error found) :=
  (yields_okOr error found).returns

theorem returns_add (small : first + second < 2 ^ width) :
    Returns (add width first second : Except (Halt ε) Nat) :=
  (yields_add small).returns

end Checked

end Corduit.Word
