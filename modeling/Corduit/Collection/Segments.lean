import Corduit.Word.BigEndian
import Mathlib.Data.List.Basic

/-!
# Chunks

A list cut into pieces of one size, the last of which may be shorter.
-/

namespace Corduit.Collection

universe u

variable {α : Type u} {size : Nat}

/-- The pieces of `items`, at most `bound` of them. -/
def chunksWithin (size : Nat) : (bound : Nat) → List α → List (List α)
  | 0, _ => []
  | bound + 1, items =>
      if items.isEmpty then []
      else items.take size :: chunksWithin size bound (items.drop size)

/-- `slice::chunks`. -/
def chunks (size : Nat) (items : List α) : List (List α) :=
  chunksWithin size items.length items

@[simp]
theorem chunks_nil : chunks size ([] : List α) = [] :=
  rfl

/-- Any bound of at least the length gives the same pieces. -/
theorem chunksWithin_eq (positive : 0 < size) {bound bound' : Nat} {items : List α}
    (enough : items.length ≤ bound) (enough' : items.length ≤ bound') :
    chunksWithin size bound items = chunksWithin size bound' items := by
  induction bound generalizing bound' items with
  | zero =>
      have empty := List.length_eq_zero_iff.mp (Nat.le_zero.mp enough)
      subst empty
      cases bound' with
      | zero => rfl
      | succ bound' => rfl
  | succ bound ih =>
      cases items with
      | nil =>
          cases bound' with
          | zero => rfl
          | succ bound' => rfl
      | cons item items =>
          obtain ⟨bound', rfl⟩ : ∃ less, bound' = less + 1 :=
            Nat.exists_eq_succ_of_ne_zero (Nat.ne_of_gt (Nat.lt_of_lt_of_le (Nat.succ_pos _) enough'))
          have shorter : ((item :: items).drop size).length ≤ items.length := by
            rw [List.length_drop, List.length_cons]
            omega
          rw [chunksWithin, chunksWithin, if_neg (by simp), if_neg (by simp)]
          congr 1
          exact ih (Nat.le_trans shorter (Nat.le_of_succ_le_succ enough))
            (Nat.le_trans shorter (Nat.le_of_succ_le_succ enough'))

theorem chunks_of_ne_nil (positive : 0 < size) {items : List α} (nonempty : items ≠ []) :
    chunks size items = items.take size :: chunks size (items.drop size) := by
  obtain ⟨item, rest, rfl⟩ := List.exists_cons_of_ne_nil nonempty
  rw [chunks, List.length_cons, chunksWithin, if_neg (by simp)]
  congr 1
  refine chunksWithin_eq positive ?_ (Nat.le_refl _)
  rw [List.length_drop, List.length_cons]
  omega

/-- What holds of the empty list, and of a list as soon as it holds of what is
behind its first piece, holds of every list. -/
theorem chunks_induction (positive : 0 < size) {property : List α → Prop} (nil : property [])
    (step : ∀ items, items ≠ [] → property (items.drop size) → property items)
    (items : List α) : property items := by
  by_cases empty : items = []
  · rw [empty]
    exact nil
  · exact step items empty (chunks_induction positive nil step (items.drop size))
termination_by items.length
decreasing_by
  have some : 0 < items.length := List.length_pos_iff.mpr empty
  rw [List.length_drop]
  omega

variable (positive : 0 < size)

include positive

theorem flatten_chunks (items : List α) :
    (chunks size items).flatten = items := by
  induction items using chunks_induction positive with
  | nil => rfl
  | step items nonempty ih =>
      rw [chunks_of_ne_nil positive nonempty, List.flatten_cons, ih, List.take_append_drop]

/-- Pieces of the full size stay what they are. -/
theorem chunks_flatten_append {whole : List (List α)} (rest : List α)
    (full : ∀ chunk ∈ whole, chunk.length = size) :
    chunks size (whole.flatten ++ rest) = whole ++ chunks size rest := by
  induction whole with
  | nil => rfl
  | cons chunk whole ih =>
      have length := full chunk List.mem_cons_self
      have nonempty : chunk ++ (whole.flatten ++ rest) ≠ [] := by
        apply List.append_ne_nil_of_left_ne_nil
        rw [← List.length_pos_iff, length]
        exact positive
      rw [List.flatten_cons, List.append_assoc, chunks_of_ne_nil positive nonempty,
        List.take_left' length, List.drop_left' length,
        ih fun later member => full later (List.mem_cons_of_mem _ member), List.cons_append]

theorem chunks_of_short {items : List α} (nonempty : items ≠ []) (short : items.length ≤ size) :
    chunks size items = [items] := by
  rw [chunks_of_ne_nil positive nonempty, List.take_of_length_le short,
    List.drop_eq_nil_of_le short, chunks_nil]

theorem mem_chunks {items chunk : List α} (member : chunk ∈ chunks size items) :
    chunk ≠ [] ∧ chunk.length ≤ size := by
  induction items using chunks_induction positive with
  | nil => exact absurd member List.not_mem_nil
  | step items nonempty ih =>
      rw [chunks_of_ne_nil positive nonempty] at member
      rcases List.mem_cons.mp member with rfl | later
      · refine ⟨fun empty => ?_, List.length_take_le _ _⟩
        rcases List.take_eq_nil_iff.mp empty with zero | none
        · exact Nat.ne_of_gt positive zero
        · exact nonempty none
      · exact ih later

/-- As many pieces as it takes, counting a shorter last one. -/
theorem length_chunks (items : List α) :
    (chunks size items).length = (items.length + size - 1) / size := by
  induction items using chunks_induction positive with
  | nil =>
      rw [chunks_nil, List.length_nil, List.length_nil, Nat.zero_add]
      exact (Nat.div_eq_of_lt (Nat.sub_lt positive Nat.one_pos)).symm
  | step items nonempty ih =>
      have some : 0 < items.length := List.length_pos_iff.mpr nonempty
      rw [chunks_of_ne_nil positive nonempty, List.length_cons, ih, List.length_drop]
      by_cases last : items.length ≤ size
      · have none : items.length - size + size - 1 = size - 1 := by omega
        have one : items.length + size - 1 = items.length - 1 + 1 * size := by omega
        rw [none, one, Nat.add_mul_div_right _ _ positive,
          Nat.div_eq_of_lt (Nat.sub_lt positive Nat.one_pos),
          Nat.div_eq_of_lt (by omega)]
      · have more : items.length + size - 1 = items.length - size + size - 1 + 1 * size := by omega
        rw [more, Nat.add_mul_div_right _ _ positive]

end Corduit.Collection

/-!
# Segments of a stream

A segment is a list together with the offset at which it stands in a stream.
Segments are slices of a stream when their contents are what the stream holds
there; slices are cut and joined along their offsets.  Segments are spread out
when each one ends before the next begins, with room between them.
-/

namespace Corduit.Collection

open Word

universe u

/-- An offset and the contents from there on. -/
abbrev Segment (α : Type u) := Nat × List α

namespace Segment

variable {α : Type u}

/-- The offset behind the last element. -/
def stop (segment : Segment α) : Nat :=
  segment.1 + segment.2.length

/-- The segment reaches over a position. -/
def Covers (segment : Segment α) (position : Nat) : Prop :=
  segment.1 ≤ position ∧ position < segment.stop

/-- Some segment reaches over the position. -/
def CoveredBy (segments : List (Segment α)) (position : Nat) : Prop :=
  ∃ segment ∈ segments, Covers segment position

/-- Each segment ends strictly before any later one begins. -/
def SpreadOut (segments : List (Segment α)) : Prop :=
  ∀ first ∈ segments, ∀ second ∈ segments, first.1 < second.1 → first.stop < second.1

variable {segments : List (Segment α)}

theorem start_le_stop (segment : Segment α) : segment.1 ≤ segment.stop :=
  Nat.le_add_right _ _

theorem SpreadOut.subset {fewer : List (Segment α)} (spread : SpreadOut segments)
    (subset : fewer ⊆ segments) : SpreadOut fewer :=
  fun first firstMem second secondMem =>
    spread first (subset firstMem) second (subset secondMem)

theorem SpreadOut.pairwise (spread : SpreadOut segments)
    (sorted : segments.Pairwise fun first second => first.1 < second.1) :
    segments.Pairwise fun first second => first.stop < second.1 :=
  sorted.imp_of_mem fun firstMem secondMem below => spread _ firstMem _ secondMem below

end Segment

section Slices

variable {α : Type} {stream : List α} {offset count : Nat} {data front back : List α}

/-- `data` is what the stream holds from `offset` on. -/
structure SliceOf (stream : List α) (offset : Nat) (data : List α) : Prop where
  inside : offset + data.length ≤ stream.length
  content : slice stream offset data.length = data

namespace SliceOf

theorem iff_split : SliceOf stream offset data ↔
    ∃ before after, stream = before ++ data ++ after ∧ before.length = offset := by
  constructor
  · rintro ⟨inside, content⟩
    refine ⟨stream.take offset, stream.drop (offset + data.length), ?_,
      List.length_take_of_le (by omega)⟩
    have tail : data ++ stream.drop (offset + data.length) = stream.drop offset := by
      rw [← List.drop_drop]
      nth_rewrite 1 [← content]
      exact List.take_append_drop ..
    rw [List.append_assoc, tail, List.take_append_drop]
  · rintro ⟨before, after, rfl, rfl⟩
    constructor
    · simp only [List.length_append]
      omega
    · simp [slice]

theorem append (first : SliceOf stream offset front)
    (second : SliceOf stream (offset + front.length) back) :
    SliceOf stream offset (front ++ back) := by
  rcases iff_split.mp second with ⟨before, after, rfl, length_eq⟩
  constructor
  · simp only [List.length_append] at length_eq ⊢
    omega
  · have content := first.content
    rw [slice, List.length_append, List.take_add]
    rw [slice] at content
    rw [content, List.drop_drop, ← length_eq]
    simp

theorem append_right (whole : SliceOf stream offset data) (more : List α) :
    SliceOf (stream ++ more) offset data := by
  rcases iff_split.mp whole with ⟨before, after, rfl, rfl⟩
  apply iff_split.mpr
  exact ⟨before, after ++ more, by simp only [List.append_assoc], rfl⟩

theorem take (whole : SliceOf stream offset data) (count : Nat) :
    SliceOf stream offset (data.take count) := by
  rcases iff_split.mp whole with ⟨before, after, rfl, rfl⟩
  apply iff_split.mpr
  refine ⟨before, data.drop count ++ after, ?_, rfl⟩
  simp only [List.append_assoc]
  rw [← List.append_assoc (data.take count), List.take_append_drop]

theorem drop (whole : SliceOf stream offset data) (inside : count ≤ data.length) :
    SliceOf stream (offset + count) (data.drop count) := by
  rcases iff_split.mp whole with ⟨before, after, rfl, rfl⟩
  apply iff_split.mpr
  refine ⟨before ++ data.take count, after, ?_, ?_⟩
  · rw [List.append_assoc before (data.take count), List.take_append_drop]
  · rw [List.length_append, List.length_take_of_le inside]

theorem nil (inside : offset ≤ stream.length) : SliceOf stream offset [] :=
  ⟨inside, rfl⟩

theorem zero_iff : SliceOf stream 0 data ↔ data <+: stream := by
  rw [iff_split]
  constructor
  · rintro ⟨before, after, split, empty⟩
    obtain rfl := List.length_eq_zero_iff.mp empty
    exact ⟨after, by simpa using split.symm⟩
  · rintro ⟨after, rfl⟩
    exact ⟨[], after, rfl, rfl⟩

theorem of_slice (inside : offset ≤ stream.length) (count : Nat) :
    SliceOf stream offset (slice stream offset count) := by
  refine iff_split.mpr ⟨stream.take offset, (stream.drop offset).drop count, ?_,
    List.length_take_of_le inside⟩
  rw [List.append_assoc, slice, List.take_append_drop, List.take_append_drop]

/-- Writing over a buffer leaves it as it is exactly when the bytes are there
already. -/
theorem iff_writeAt_eq (inside : offset ≤ stream.length) :
    SliceOf stream offset data ↔ writeAt stream offset data = stream := by
  constructor
  · intro whole
    rcases iff_split.mp whole with ⟨before, after, rfl, rfl⟩
    simp [writeAt]
  · intro same
    exact iff_split.mpr ⟨stream.take offset, stream.drop (offset + data.length), same.symm,
      List.length_take_of_le inside⟩

/-- Writing a slice over the part of the stream that is there extends it. -/
theorem writeAt_take (whole : SliceOf stream offset data) (reached : offset ≤ count) :
    writeAt (stream.take count) offset data = stream.take (max count (offset + data.length)) := by
  rcases iff_split.mp whole with ⟨before, after, rfl, rfl⟩
  have front : ((before ++ data ++ after).take count).take before.length = before := by
    rw [List.take_take, Nat.min_eq_left reached, List.append_assoc, List.take_left]
  rw [writeAt, front, ← List.length_append, List.drop_take, List.drop_left]
  rcases Nat.le_total count (before ++ data).length with short | long
  · rw [Nat.sub_eq_zero_of_le short, List.take_zero, List.append_nil, Nat.max_eq_right short,
      List.take_left]
  · rw [Nat.max_eq_left long, List.take_append,
      List.take_of_length_le long]

end SliceOf

end Slices

end Corduit.Collection
