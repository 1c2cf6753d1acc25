import Corduit.Protocol.Quic.Stream.Core

/-!
# Merging out-of-order segments

The segments that wait are spread out: no two overlap or touch.  Among those
that touch a new segment, only the first can begin before it and only the last
can end behind it, so one round of absorption never slices out of range, and
the next round finds nothing left to absorb.
-/

namespace Corduit.Protocol.Quic

open Collection Transition Word

variable {gaps gaps' : OrderedMap Nat (List Byte)} {merged result stored : Segment Byte}
  {found : List (Segment Byte)} {offset : Nat} {data : List Byte}

/-- Two segments overlap or touch. -/
def Touches (merged stored : Segment Byte) : Prop :=
  stored.1 ≤ merged.stop ∧ merged.1 ≤ stored.stop

theorem absorb_eq (touches : Touches merged stored) :
    absorb merged.stop merged stored = some (min merged.1 stored.1,
      stored.2.take (merged.1 - stored.1) ++ merged.2 ++
        stored.2.drop (merged.stop - stored.1)) := by
  rcases merged with ⟨mergedOffset, data⟩
  rcases stored with ⟨key, value⟩
  rcases touches with ⟨starts, reaches⟩
  simp only [Segment.stop] at starts reaches ⊢
  have front : (if min mergedOffset key < mergedOffset then
      (checkedSub mergedOffset key).bind (sliceTo value) else some []) =
      some (value.take (mergedOffset - key)) := by
    by_cases before : key < mergedOffset
    · have fits : mergedOffset - key ≤ value.length := by omega
      simp [checkedSub, sliceTo, before, before.le, fits]
    · have equal : mergedOffset - key = 0 := by omega
      simp [before, equal]
  have back : (if key + value.length > mergedOffset + data.length then
      (checkedSub (mergedOffset + data.length) key).bind (sliceFrom value) else some []) =
      some (value.drop (mergedOffset + data.length - key)) := by
    by_cases behind : key + value.length > mergedOffset + data.length
    · have fits : mergedOffset + data.length - key ≤ value.length := by omega
      rw [if_pos behind, checkedSub, if_pos starts]
      exact if_pos fits
    · have all : value.length ≤ mergedOffset + data.length - key := by omega
      rw [if_neg behind, List.drop_eq_nil_of_le all]
  simp only [absorb, front, back]
  rfl

/-- What absorbing some segments makes of one. -/
structure Merges (found : List (Segment Byte)) (merged result : Segment Byte) : Prop where
  startLe : result.1 ≤ merged.1 ∧ ∀ stored ∈ found, result.1 ≤ stored.1
  leStop : merged.stop ≤ result.stop ∧ ∀ stored ∈ found, stored.stop ≤ result.stop
  startEq : result.1 = merged.1 ∨ ∃ stored ∈ found, result.1 = stored.1
  stopEq : result.stop = merged.stop ∨ ∃ stored ∈ found, result.stop = stored.stop
  sliced : ∀ stream, SliceOf stream merged.1 merged.2 →
    (∀ stored ∈ found, SliceOf stream stored.1 stored.2) → SliceOf stream result.1 result.2

theorem Merges.refl (merged : Segment Byte) : Merges [] merged merged where
  startLe := ⟨le_rfl, by simp⟩
  leStop := ⟨le_rfl, by simp⟩
  startEq := Or.inl rfl
  stopEq := Or.inl rfl
  sliced _ slice _ := slice

theorem merges_absorb (touches : Touches merged stored) :
    ∃ result, absorb merged.stop merged stored = some result ∧ Merges [stored] merged result ∧
      result.1 = min merged.1 stored.1 ∧ result.stop = max merged.stop stored.stop := by
  refine ⟨_, absorb_eq touches, ?_⟩
  rcases touches with ⟨starts, reaches⟩
  have frontLength : (stored.2.take (merged.1 - stored.1)).length = merged.1 - stored.1 :=
    List.length_take_of_le (by simp only [Segment.stop] at reaches; omega)
  have stop : Segment.stop (min merged.1 stored.1,
      stored.2.take (merged.1 - stored.1) ++ merged.2 ++
        stored.2.drop (merged.stop - stored.1)) = max merged.stop stored.stop := by
    simp only [Segment.stop, List.length_append, frontLength, List.length_drop] at starts reaches ⊢
    omega
  refine ⟨⟨?_, ?_, ?_, ?_, ?_⟩, rfl, stop⟩
  · simp
  · rw [stop]
    simp
  · rcases Nat.le_total merged.1 stored.1 with first | first
    · exact Or.inl (min_eq_left first)
    · exact Or.inr ⟨stored, by simp, min_eq_right first⟩
  · rw [stop]
    rcases Nat.le_total merged.stop stored.stop with last | last
    · exact Or.inr ⟨stored, by simp, max_eq_right last⟩
    · exact Or.inl (max_eq_left last)
  · intro stream mergedSlice storedSlices
    have storedSlice := storedSlices stored (by simp)
    have front := storedSlice.take (merged.1 - stored.1)
    have middle : SliceOf stream (min merged.1 stored.1)
        (stored.2.take (merged.1 - stored.1) ++ merged.2) := by
      rcases Nat.le_total merged.1 stored.1 with first | first
      · rw [Nat.sub_eq_zero_of_le first, min_eq_left first]
        exact mergedSlice
      · rw [min_eq_right first]
        apply front.append
        rw [frontLength, Nat.add_sub_cancel' first]
        exact mergedSlice
    apply middle.append
    rw [List.length_append, frontLength]
    by_cases inside : merged.stop - stored.1 ≤ stored.2.length
    · have back := storedSlice.drop inside
      have place : stored.1 + (merged.stop - stored.1) =
          min merged.1 stored.1 + (merged.1 - stored.1 + merged.2.length) := by
        simp only [Segment.stop] at starts reaches ⊢
        omega
      rwa [place] at back
    · rw [List.drop_eq_nil_of_le (by omega)]
      apply SliceOf.nil
      have bound := middle.inside
      rw [List.length_append, frontLength] at bound
      omega

theorem Merges.cons {middle : Segment Byte} (first : Merges [stored] merged middle)
    (later : Merges found middle result) : Merges (stored :: found) merged result where
  startLe := by
    refine ⟨later.startLe.1.trans first.startLe.1, fun other member => ?_⟩
    rcases List.mem_cons.mp member with rfl | member
    · exact later.startLe.1.trans (first.startLe.2 other (by simp))
    · exact later.startLe.2 other member
  leStop := by
    refine ⟨first.leStop.1.trans later.leStop.1, fun other member => ?_⟩
    rcases List.mem_cons.mp member with rfl | member
    · exact (first.leStop.2 other (by simp)).trans later.leStop.1
    · exact later.leStop.2 other member
  startEq := by
    rcases later.startEq with same | ⟨other, member, same⟩
    · rcases first.startEq with before | ⟨other, member, before⟩
      · exact Or.inl (same.trans before)
      · obtain rfl := List.mem_singleton.mp member
        exact Or.inr ⟨other, List.mem_cons_self, same.trans before⟩
    · exact Or.inr ⟨other, List.mem_cons_of_mem stored member, same⟩
  stopEq := by
    rcases later.stopEq with same | ⟨other, member, same⟩
    · rcases first.stopEq with before | ⟨other, member, before⟩
      · exact Or.inl (same.trans before)
      · obtain rfl := List.mem_singleton.mp member
        exact Or.inr ⟨other, List.mem_cons_self, same.trans before⟩
    · exact Or.inr ⟨other, List.mem_cons_of_mem stored member, same⟩
  sliced stream slice slices := by
    apply later.sliced stream
    · apply first.sliced stream slice
      intro other member
      obtain rfl := List.mem_singleton.mp member
      exact slices other List.mem_cons_self
    · exact fun other member => slices other (List.mem_cons_of_mem stored member)

/-- The result reaches over exactly what was joined. -/
theorem Merges.covers_iff (merges : Merges found merged result)
    (touches : ∀ stored ∈ found, Touches merged stored) {position : Nat} :
    result.Covers position ↔ merged.Covers position ∨ Segment.CoveredBy found position := by
  constructor
  · rintro ⟨starts, ends⟩
    by_cases before : position < merged.1
    · -- The position stands in front of the new segment, so in the first one.
      rcases merges.startEq with same | ⟨stored, member, same⟩
      · omega
      · exact Or.inr ⟨stored, member, same ▸ starts, before.trans_le (touches stored member).2⟩
    · by_cases inside : position < merged.stop
      · exact Or.inl ⟨Nat.le_of_not_lt before, inside⟩
      · rcases merges.stopEq with same | ⟨stored, member, same⟩
        · omega
        · exact Or.inr ⟨stored, member,
            (touches stored member).1.trans (Nat.le_of_not_lt inside), same ▸ ends⟩
  · rintro (⟨starts, ends⟩ | ⟨stored, member, starts, ends⟩)
    · exact ⟨merges.startLe.1.trans starts, ends.trans_le merges.leStop.1⟩
    · exact ⟨(merges.startLe.2 stored member).trans starts,
        ends.trans_le (merges.leStop.2 stored member)⟩

/-- A round of absorption: as long as segments are left, the merged one still
ends where it did when the round began. -/
theorem merges_fold (apart : found.Pairwise fun first second => first.stop < second.1)
    (touches : ∀ stored ∈ found, Touches merged stored) :
    ∃ result, found.foldlM (absorb merged.stop) merged = some result ∧
      Merges found merged result := by
  induction found generalizing merged with
  | nil => exact ⟨merged, rfl, Merges.refl merged⟩
  | cons stored found ih =>
      rcases List.pairwise_cons.mp apart with ⟨below, apart⟩
      obtain ⟨middle, absorbed, first, start_eq, stop_eq⟩ :=
        merges_absorb (touches stored List.mem_cons_self)
      cases found with
      | nil => exact ⟨middle, by simp [absorbed], first⟩
      | cons next found =>
          have nextTouches := touches next (by simp)
          have sameStop : middle.stop = merged.stop := by
            rw [stop_eq]
            exact max_eq_left ((below next List.mem_cons_self).le.trans nextTouches.1)
          have still : ∀ other ∈ next :: found, Touches middle other := by
            intro other member
            have old := touches other (List.mem_cons_of_mem stored member)
            exact ⟨sameStop ▸ old.1, first.startLe.1.trans old.2⟩
          rcases ih apart still with ⟨result, folded, later⟩
          refine ⟨result, ?_, first.cons later⟩
          rw [sameStop] at folded
          rw [List.foldlM_cons, absorbed]
          exact folded

theorem mem_overlapping : stored ∈ overlapping gaps merged ↔
    stored ∈ gaps.entries ∧ Touches merged stored := by
  simp [overlapping, Touches, Segment.stop]

theorem pairwise_overlapping (spread : Segment.SpreadOut gaps.entries) (merged : Segment Byte) :
    (overlapping gaps merged).Pairwise fun first second => first.stop < second.1 :=
  (spread.pairwise gaps.sorted).filter _

theorem mem_eraseFound {entry : Segment Byte} :
    entry ∈ (found.foldl (fun gaps stored => gaps.erase stored.1) gaps).entries ↔
      entry ∈ gaps.entries ∧ ∀ stored ∈ found, entry.1 ≠ stored.1 := by
  induction found generalizing gaps with
  | nil => simp
  | cons stored found ih =>
      rw [List.foldl_cons, ih]
      simp [and_assoc]

/-- What a round leaves in the map touches neither the new segment nor any that
it absorbed. -/
theorem mem_rest_iff {entry : Segment Byte} :
    entry ∈ ((overlapping gaps merged).foldl (fun gaps stored => gaps.erase stored.1) gaps).entries ↔
      entry ∈ gaps.entries ∧ ¬ Touches merged entry := by
  rw [mem_eraseFound]
  constructor
  · rintro ⟨member, different⟩
    exact ⟨member, fun touches => different entry (mem_overlapping.mpr ⟨member, touches⟩) rfl⟩
  · rintro ⟨member, apart⟩
    refine ⟨member, fun stored storedMem same => apart ?_⟩
    rcases mem_overlapping.mp storedMem with ⟨inGaps, touches⟩
    have equal : stored = entry := Prod.ext same.symm
      (OrderedMap.value_unique (same ▸ inGaps : (entry.1, stored.2) ∈ gaps.entries) member)
    exact equal ▸ touches

theorem Merges.clear_of_rest (spread : Segment.SpreadOut gaps.entries)
    (merges : Merges (overlapping gaps merged) merged result) {entry : Segment Byte}
    (member : entry ∈ gaps.entries) (apart : ¬ Touches merged entry) :
    entry.stop < result.1 ∨ result.stop < entry.1 := by
  by_cases behind : merged.stop < entry.1
  · right
    rcases merges.stopEq with same | ⟨stored, storedMem, same⟩
    · rwa [same]
    · rcases mem_overlapping.mp storedMem with ⟨inGaps, touches⟩
      rw [same]
      exact spread stored inGaps entry member (touches.1.trans_lt behind)
  · have before : entry.stop < merged.1 :=
      Nat.lt_of_not_le fun reaches => apart ⟨Nat.le_of_not_lt behind, reaches⟩
    left
    rcases merges.startEq with same | ⟨stored, storedMem, same⟩
    · rwa [same]
    · rcases mem_overlapping.mp storedMem with ⟨inGaps, touches⟩
      rw [same]
      apply spread entry member stored inGaps
      apply Nat.lt_of_not_le
      intro later
      rcases later.lt_or_eq with less | equal
      · have gap := spread stored inGaps entry member less
        have := entry.start_le_stop
        have := touches.2
        omega
      · have equal : stored = entry := Prod.ext equal
          (OrderedMap.value_unique (equal ▸ inGaps : (entry.1, stored.2) ∈ gaps.entries) member)
        exact apart (equal ▸ touches)

/-- The second round finds nothing: the loop ends after at most one absorbing
round. -/
theorem mergeLoop_eq (spread : Segment.SpreadOut gaps.entries) (merged : Segment Byte) :
    ∃ result, Merges (overlapping gaps merged) merged result ∧
      mergeLoop (gaps.entries.length + 1) gaps merged = some
        ((overlapping gaps merged).foldl (fun gaps stored => gaps.erase stored.1) gaps, result) := by
  obtain ⟨result, folded, merges⟩ := merges_fold (pairwise_overlapping spread merged)
    fun stored member => (mem_overlapping.mp member).2
  refine ⟨result, merges, ?_⟩
  by_cases none : overlapping gaps merged = []
  · rw [none] at folded ⊢
    obtain rfl : merged = result := by simpa using folded
    simp [mergeLoop, none]
  · rcases List.exists_mem_of_ne_nil _ none with ⟨stored, storedMem⟩
    obtain ⟨bound, bound_eq⟩ : ∃ bound, gaps.entries.length = bound + 1 :=
      Nat.exists_eq_succ_of_ne_zero
        (Nat.ne_of_gt (List.length_pos_of_mem (mem_overlapping.mp storedMem).1))
    have clear : overlapping ((overlapping gaps merged).foldl
        (fun gaps stored => gaps.erase stored.1) gaps) result = [] := by
      apply List.eq_nil_iff_forall_not_mem.mpr
      intro entry member
      rcases mem_overlapping.mp member with ⟨inRest, starts, reaches⟩
      rcases mem_rest_iff.mp inRest with ⟨inGaps, apart⟩
      rcases merges.clear_of_rest spread inGaps apart with before | behind
      · exact absurd reaches (Nat.not_le.mpr before)
      · exact absurd starts (Nat.not_le.mpr behind)
    change _ = some result at folded
    rw [bound_eq, mergeLoop]
    simp only [List.isEmpty_iff, none, if_false]
    rw [Segment.stop] at folded
    rw [folded]
    change mergeLoop (bound + 1) _ _ = _
    rw [mergeLoop]
    simp [clear]

/-- What inserting a segment does to the segments that wait. -/
structure Inserted (gaps : OrderedMap Nat (List Byte)) (segment : Segment Byte)
    (gaps' : OrderedMap Nat (List Byte)) : Prop where
  spread : Segment.SpreadOut gaps'.entries
  sliced : ∀ stream, SliceOf stream segment.1 segment.2 →
    (∀ stored ∈ gaps.entries, SliceOf stream stored.1 stored.2) →
    ∀ stored ∈ gaps'.entries, SliceOf stream stored.1 stored.2
  covers : ∀ position, Segment.CoveredBy gaps'.entries position ↔
    segment.Covers position ∨ Segment.CoveredBy gaps.entries position
  above : ∀ bound, bound < segment.1 → (∀ stored ∈ gaps.entries, bound < stored.1) →
    ∀ stored ∈ gaps'.entries, bound < stored.1

theorem insertGap_eq (spread : Segment.SpreadOut gaps.entries) (offset : Nat)
    (data : List Byte) :
    ∃ gaps', insertGap gaps offset data = some gaps' ∧ Inserted gaps (offset, data) gaps' := by
  rcases mergeLoop_eq spread (offset, data) with ⟨result, merges, looped⟩
  set rest := (overlapping gaps (offset, data)).foldl
    (fun gaps stored => gaps.erase stored.1) gaps with rest_def
  have clear : ∀ entry ∈ rest.entries, Segment.stop entry < result.1 ∨ result.stop < entry.1 := by
    intro entry member
    rcases mem_rest_iff.mp member with ⟨inGaps, apart⟩
    exact merges.clear_of_rest spread inGaps apart
  have touching : ∀ stored ∈ overlapping gaps (offset, data), Touches (offset, data) stored :=
    fun stored member => (mem_overlapping.mp member).2
  have vacant : rest.get? result.1 = none := by
    apply OrderedMap.get?_eq_none_iff.mpr
    intro entry member same
    have := Segment.start_le_stop entry
    have := result.start_le_stop
    rcases clear entry member with before | behind <;> omega
  have members : ∀ entry, entry ∈ (rest.insert result.1 result.2).entries ↔
      entry = result ∨ (entry ∈ gaps.entries ∧ ¬ Touches (offset, data) entry) := by
    intro entry
    rw [OrderedMap.mem_insert_of_vacant vacant, mem_rest_iff]
  refine ⟨rest.insert result.1 result.2, by simp [insertGap, looped], ⟨?_, ?_, ?_, ?_⟩⟩
  · intro first firstMem second secondMem below
    rw [OrderedMap.mem_insert_of_vacant vacant] at firstMem secondMem
    have := result.start_le_stop
    rcases firstMem with rfl | firstMem <;> rcases secondMem with rfl | secondMem
    · exact absurd below (Nat.lt_irrefl _)
    · have := second.start_le_stop
      rcases clear second secondMem with before | behind
      · change result.1 < second.1 at below
        omega
      · exact behind
    · rcases clear first firstMem with before | behind
      · exact before
      · change first.1 < result.1 at below
        omega
    · exact spread first (mem_rest_iff.mp firstMem).1 second (mem_rest_iff.mp secondMem).1 below
  · intro stream slice slices entry member
    rcases (members entry).mp member with rfl | ⟨inGaps, _⟩
    · exact merges.sliced stream slice fun stored member =>
        slices stored (mem_overlapping.mp member).1
    · exact slices entry inGaps
  · intro position
    constructor
    · rintro ⟨entry, member, covers⟩
      rcases (members entry).mp member with rfl | ⟨inGaps, _⟩
      · rcases (merges.covers_iff touching).mp covers with new | ⟨stored, storedMem, old⟩
        · exact Or.inl new
        · exact Or.inr ⟨stored, (mem_overlapping.mp storedMem).1, old⟩
      · exact Or.inr ⟨entry, inGaps, covers⟩
    · rintro (new | ⟨stored, inGaps, old⟩)
      · exact ⟨result, (members result).mpr (Or.inl rfl),
          (merges.covers_iff touching).mpr (Or.inl new)⟩
      · by_cases touches : Touches (offset, data) stored
        · have absorbed : Segment.CoveredBy (overlapping gaps (offset, data)) position :=
            ⟨stored, mem_overlapping.mpr ⟨inGaps, touches⟩, old⟩
          exact ⟨result, (members result).mpr (Or.inl rfl),
            (merges.covers_iff touching).mpr (Or.inr absorbed)⟩
        · exact ⟨stored, (members stored).mpr (Or.inr ⟨inGaps, touches⟩), old⟩
  · intro bound below above entry member
    rcases (members entry).mp member with rfl | ⟨inGaps, _⟩
    · rcases merges.startEq with same | ⟨stored, storedMem, same⟩
      · rwa [same]
      · rw [same]
        exact above stored (mem_overlapping.mp storedMem).1
    · exact above entry inGaps

end Corduit.Protocol.Quic
