import Mathlib.Data.Finset.Card
import Corduit.Collection.ReplayWindow
import Corduit.Protocol.WireGuard.Handshake

/-!
# The receive-side replay filter

The filter keeps the accepted nonces that are still inside the window in an
unordered array and compacts the array in place when the highest nonce moves.
Indexing and addition are checked: a computation that is `none` is a panic.
-/

namespace Corduit.Protocol.WireGuard

open Collection

/-- `REPLAY_WINDOW_SIZE`. -/
def replayWindowSize : Nat :=
  2048

/-- `u64` addition with overflow checks. -/
def checkedAdd (first second : Nat) : Option Nat :=
  if first + second < 2 ^ 64 then some (first + second) else none

/-- The array of nonces. -/
abbrev Slots :=
  Vector Nat replayWindowSize

namespace Slots

/-- `self.buffer[index]`. -/
def load (buffer : Slots) (index : Nat) : Option Nat :=
  buffer[index]?

/-- `self.buffer[index] = nonce`. -/
def store (buffer : Slots) (index nonce : Nat) : Option Slots :=
  if within : index < replayWindowSize then some (buffer.set index nonce) else none

end Slots

/-- The replay filter. -/
structure ReplayFilter where
  highest : Nat
  buffer : Slots
  count : Nat
  initialized : Bool
deriving DecidableEq

namespace ReplayFilter

/-- The empty filter. -/
def new : ReplayFilter where
  highest := 0
  buffer := Vector.replicate replayWindowSize 0
  count := 0
  initialized := false

/-- The loop that evicts the entries that slide out of the window; `left` reads
remain. -/
def evict (nonce : Nat) : (left read write : Nat) → Slots → Option (Slots × Nat)
  | 0, _, write, buffer => some (buffer, write)
  | left + 1, read, write, buffer => do
      let entry ← buffer.load read
      let last ← checkedAdd entry replayWindowSize
      if last > nonce && entry != nonce then
        let buffer ← buffer.store write entry
        evict nonce left (read + 1) (write + 1) buffer
      else
        evict nonce left (read + 1) write buffer

/-- Validate and record a packet nonce. -/
def checkAndRecord (filter : ReplayFilter) (nonce : Nat) : Option (Bool × ReplayFilter) :=
  if nonce ≥ rejectAfterMessages then
    some (false, filter)
  else if !filter.initialized then do
    let buffer ← filter.buffer.store 0 nonce
    return (true, { highest := nonce, buffer, count := 1, initialized := true })
  else if nonce > filter.highest then do
    let (buffer, write) ← evict nonce filter.count 0 0 filter.buffer
    let buffer ← buffer.store write nonce
    return (true, { filter with buffer, count := write + 1, highest := nonce })
  else if filter.highest - nonce ≥ replayWindowSize then
    some (false, filter)
  else if filter.count > replayWindowSize then
    none
  else if (filter.buffer.toList.take filter.count).contains nonce then
    some (false, filter)
  else do
    let buffer ← filter.buffer.store filter.count nonce
    return (true, { filter with buffer, count := filter.count + 1 })

/-- Nonces one after the other, with the answer to each. -/
def checkAll (filter : ReplayFilter) : List Nat → Option (List Bool × ReplayFilter)
  | [] => some ([], filter)
  | nonce :: nonces => do
      let (answer, filter) ← filter.checkAndRecord nonce
      let (answers, filter) ← filter.checkAll nonces
      return (answer :: answers, filter)

/-- The entries of the array in use. -/
def live (filter : ReplayFilter) : List Nat :=
  filter.buffer.toList.take filter.count

end ReplayFilter

section Slots

variable {buffer : Slots} {index nonce : Nat}

theorem Slots.store_eq_some (buffer : Slots) (nonce : Nat) (within : index < replayWindowSize) :
    ∃ buffer', buffer.store index nonce = some buffer' ∧
      buffer'.toList = buffer.toList.set index nonce :=
  ⟨buffer.set index nonce, dif_pos within, Vector.toList_set within⟩

theorem Slots.load_eq_some (buffer : Slots) (within : index < replayWindowSize) :
    ∃ entry, buffer.load index = some entry ∧
      buffer.toList.drop index = entry :: buffer.toList.drop (index + 1) := by
  have inside : index < buffer.toList.length := by rwa [Vector.length_toList]
  refine ⟨buffer.toList[index], ?_, List.drop_eq_getElem_cons inside⟩
  simp [Slots.load, within]

theorem take_set_append {entries : List Nat} (within : index < entries.length) :
    (entries.set index nonce).take (index + 1) = entries.take index ++ [nonce] := by
  have inside : index < (entries.set index nonce).length := by rwa [List.length_set]
  rw [List.take_succ_eq_append_getElem inside, List.getElem_set_self,
    List.take_set_of_le (Nat.le_refl index)]

/-- What stays in the window while the highest nonce moves to `nonce`. -/
def Stays (nonce entry : Nat) : Bool :=
  entry + replayWindowSize > nonce && entry != nonce

theorem evict_succ {nonce left read write entry : Nat} {buffer : Slots}
    (loaded : buffer.load read = some entry) (fits : entry + replayWindowSize < 2 ^ 64) :
    ReplayFilter.evict nonce (left + 1) read write buffer =
      if Stays nonce entry then
        (buffer.store write entry).bind (ReplayFilter.evict nonce left (read + 1) (write + 1))
      else
        ReplayFilter.evict nonce left (read + 1) write buffer := by
  rw [ReplayFilter.evict, loaded, Option.bind_eq_bind, Option.bind_some, checkedAdd, if_pos fits]
  rfl

/-- The eviction keeps what stays, behind what was already written, and neither
reads nor writes outside the array. -/
theorem evict_spec (nonce left read write : Nat) (buffer : Slots)
    (within : read + left ≤ replayWindowSize) (behind : write ≤ read)
    (small : ∀ entry ∈ (buffer.toList.drop read).take left, entry < rejectAfterMessages) :
    ∃ buffer' write', ReplayFilter.evict nonce left read write buffer = some (buffer', write') ∧
      buffer'.toList.take write' = buffer.toList.take write ++
        ((buffer.toList.drop read).take left).filter (Stays nonce) ∧
      write' ≤ read + left := by
  induction left generalizing read write buffer with
  | zero => exact ⟨buffer, write, rfl, by simp, behind⟩
  | succ left ih =>
      rcases Slots.load_eq_some buffer (by omega : read < replayWindowSize) with
        ⟨entry, loaded, drop_eq⟩
      rw [drop_eq, List.take_succ_cons] at small ⊢
      have fits : entry + replayWindowSize < 2 ^ 64 := by
        have bound := small entry List.mem_cons_self
        unfold rejectAfterMessages at bound
        unfold replayWindowSize
        omega
      have rest : ∀ other ∈ (buffer.toList.drop (read + 1)).take left,
          other < rejectAfterMessages := fun other member =>
        small other (List.mem_cons_of_mem entry member)
      by_cases stays : Stays nonce entry
      · rcases Slots.store_eq_some buffer entry (by omega : write < replayWindowSize) with
           ⟨stored, store_eq, toList_eq⟩
        have unread : stored.toList.drop (read + 1) = buffer.toList.drop (read + 1) := by
          rw [toList_eq, List.drop_set_of_lt (by omega)]
        have written : stored.toList.take (write + 1) = buffer.toList.take write ++ [entry] := by
          rw [toList_eq, take_set_append (by rw [Vector.length_toList]; omega)]
        rcases ih (read + 1) (write + 1) stored (by omega) (by omega) (by rwa [unread]) with ⟨buffer', write', evicted, kept, bound⟩
        refine ⟨buffer', write', ?_, ?_, by omega⟩
        · rw [evict_succ loaded fits, if_pos stays, store_eq, Option.bind_some, evicted]
        · rw [kept, written, unread, List.filter_cons_of_pos stays, List.append_assoc]
          rfl
      · rcases ih (read + 1) write buffer (by omega) (by omega) rest with
          ⟨buffer', write', evicted, kept, bound⟩
        refine ⟨buffer', write', ?_, ?_, by omega⟩
        · rw [evict_succ loaded fits, if_neg stays, evicted]
        · rw [kept, List.filter_cons_of_neg stays]

end Slots

section Window

/-- What the filter accepts after the nonces of `accepted`. -/
def Accepts (accepted : Finset Nat) (nonce : Nat) : Prop :=
  nonce < rejectAfterMessages ∧ ReplayWindow.Fresh replayWindowSize accepted nonce

instance (accepted : Finset Nat) (nonce : Nat) : Decidable (Accepts accepted nonce) :=
  inferInstanceAs (Decidable (_ ∧ _))

/-- The accepted nonces after one more nonce. -/
def accept (accepted : Finset Nat) (nonce : Nat) : Finset Nat :=
  if Accepts accepted nonce then insert nonce accepted else accepted

/-- The filter of a receiver that accepted exactly the nonces of `accepted`. -/
structure Represents (filter : ReplayFilter) (accepted : Finset Nat) : Prop where
  initialized : filter.initialized = true ↔ accepted.Nonempty
  highest : filter.highest = ReplayWindow.highest accepted
  count : filter.count ≤ replayWindowSize
  distinct : filter.live.Nodup
  entries : ∀ nonce, nonce ∈ filter.live ↔
    nonce ∈ ReplayWindow.recent replayWindowSize accepted
  below : ∀ nonce ∈ accepted, nonce < rejectAfterMessages

theorem represents_new : Represents ReplayFilter.new ∅ where
  initialized := by simp [ReplayFilter.new]
  highest := rfl
  count := Nat.zero_le _
  distinct := List.nodup_nil
  entries := by simp [ReplayFilter.live, ReplayFilter.new, ReplayWindow.recent]
  below := by simp

variable {filter : ReplayFilter} {accepted : Finset Nat} {nonce : Nat}

theorem Represents.length_live (holds : Represents filter accepted) :
    filter.live.length = filter.count := by
  have bound := holds.count
  simp [ReplayFilter.live, bound]

theorem Represents.count_eq (holds : Represents filter accepted) :
    filter.count = (ReplayWindow.recent replayWindowSize accepted).card := by
  have same : filter.live.toFinset = ReplayWindow.recent replayWindowSize accepted := by
    ext nonce
    rw [List.mem_toFinset, holds.entries]
  rw [← same, List.toFinset_card_of_nodup holds.distinct, holds.length_live]

theorem checkAndRecord_first (holds : Represents filter ∅) (small : nonce < rejectAfterMessages) :
    ∃ filter', filter.checkAndRecord nonce = some (true, filter') ∧
      Represents filter' {nonce} := by
  have fresh : filter.initialized = false :=
    Bool.eq_false_iff.mpr fun ready => by simpa using holds.initialized.mp ready
  rcases Slots.store_eq_some filter.buffer nonce (by decide : 0 < replayWindowSize) with
    ⟨buffer, store_eq, toList_eq⟩
  have live_eq : buffer.toList.take 1 = [nonce] := by
    rw [toList_eq, take_set_append (by rw [Vector.length_toList]; decide)]
    rfl
  refine ⟨{ highest := nonce, buffer, count := 1, initialized := true }, ?_, ?_⟩
  · rw [ReplayFilter.checkAndRecord, if_neg (by omega), if_pos (by simp [fresh]), store_eq]
    rfl
  exact {
    initialized := by simp
    highest := by simp [ReplayWindow.highest]
    count := (by decide : 1 ≤ replayWindowSize)
    distinct := by simp [ReplayFilter.live, live_eq]
    entries := by
      intro other
      simp only [ReplayFilter.live, live_eq, ReplayWindow.mem_recent, List.mem_singleton,
        Finset.mem_singleton, ReplayWindow.highest, Finset.sup_singleton, id]
      unfold replayWindowSize
      omega
    below := by simpa using small }

section

variable (holds : Represents filter accepted) (nonempty : accepted.Nonempty)
  (small : nonce < rejectAfterMessages)

include holds nonempty small

theorem checkAndRecord_ahead (ahead : ReplayWindow.highest accepted < nonce) :
    ∃ filter', filter.checkAndRecord nonce = some (true, filter') ∧
      Represents filter' (insert nonce accepted) := by
  have ready := holds.initialized.mpr nonempty
  have positive : 0 < replayWindowSize := by decide
  rcases evict_spec nonce filter.count 0 0 filter.buffer (by simpa using holds.count) (Nat.le_refl 0)
      (fun entry member => holds.below entry
        (ReplayWindow.mem_recent.mp ((holds.entries entry).mp member)).1) with
    ⟨evicted, write, evict_eq, kept, bound⟩
  rw [List.take_zero, List.nil_append, List.drop_zero] at kept
  change _ = filter.live.filter (Stays nonce) at kept
  -- everything that was kept differs from `nonce`, so only the window decides
  have mem_kept : ∀ other, other ∈ evicted.toList.take write ↔
      other ∈ (ReplayWindow.recent replayWindowSize accepted).filter
        (nonce < · + replayWindowSize) := by
    intro other
    rw [kept, List.mem_filter, holds.entries, Finset.mem_filter]
    refine and_congr_right fun member => ?_
    have below := ReplayWindow.le_highest (ReplayWindow.mem_recent.mp member).1
    have differs : other ≠ nonce := by omega
    simp [Stays, differs]
  have distinct : (evicted.toList.take write).Nodup := by
    rw [kept]
    exact holds.distinct.filter _
  have room : write < replayWindowSize := by
    have same : (evicted.toList.take write).toFinset =
        (ReplayWindow.recent replayWindowSize accepted).filter
          (nonce < · + replayWindowSize) := by
      ext other
      rw [List.mem_toFinset, mem_kept]
    have card_eq := List.toFinset_card_of_nodup distinct
    have length_eq : (evicted.toList.take write).length = write := by
      rw [List.length_take, Vector.length_toList]
      have := holds.count
      omega
    rw [same, length_eq] at card_eq
    rw [← card_eq]
    exact ReplayWindow.card_filter_recent_lt ahead positive
  rcases Slots.store_eq_some evicted nonce room with
    ⟨buffer, store_eq, toList_eq⟩
  have live_eq : buffer.toList.take (write + 1) = evicted.toList.take write ++ [nonce] := by
    rw [toList_eq, take_set_append (by rwa [Vector.length_toList])]
  refine ⟨{ filter with buffer, count := write + 1, highest := nonce }, ?_, ?_⟩
  · rw [ReplayFilter.checkAndRecord, if_neg (by omega), if_neg (by simp [ready]),
      if_pos (by rwa [holds.highest]), evict_eq]
    change (evicted.store write nonce).bind _ = _
    rw [store_eq]
    rfl
  exact {
    initialized := by simp [ready]
    highest := by rw [ReplayWindow.highest_insert, max_eq_left ahead.le]
    count := room
    distinct := by
      rw [ReplayFilter.live, live_eq, List.nodup_append]
      refine ⟨distinct, List.nodup_singleton nonce, ?_⟩
      rintro other member _ last rfl
      rw [List.mem_singleton.mp last, mem_kept, Finset.mem_filter] at member
      have below := ReplayWindow.le_highest (ReplayWindow.mem_recent.mp member.1).1
      omega
    entries := by
      intro other
      rw [ReplayFilter.live, live_eq, ReplayWindow.mem_recent_insert_of_lt ahead positive,
        List.mem_append, List.mem_singleton, mem_kept, Finset.mem_filter]
      exact or_comm
    below := by
      intro other member
      rcases Finset.mem_insert.mp member with rfl | member
      · exact small
      · exact holds.below other member }

theorem checkAndRecord_behind (behind : nonce ≤ ReplayWindow.highest accepted) :
    ∃ filter', filter.checkAndRecord nonce = some (decide (Accepts accepted nonce), filter') ∧
      Represents filter' (accept accepted nonce) := by
  have ready := holds.initialized.mpr nonempty
  have notAhead : ¬filter.highest < nonce := by
    rw [holds.highest]
    omega
  by_cases near : ReplayWindow.highest accepted < nonce + replayWindowSize
  swap
  · have old : ¬Accepts accepted nonce := by
      rintro ⟨_, _, rfl | near'⟩
      · exact absurd nonempty (by simp)
      · exact near near'
    refine ⟨filter, ?_, by rwa [accept, if_neg old]⟩
    have far : replayWindowSize ≤ filter.highest - nonce := by
      rw [holds.highest]
      omega
    rw [ReplayFilter.checkAndRecord, if_neg (by omega), if_neg (by simp [ready]),
      if_neg notAhead, if_pos far]
    simp [old]
  have inside : ¬replayWindowSize ≤ filter.highest - nonce := by
    rw [holds.highest]
    omega
  have known : filter.live.contains nonce = true ↔ nonce ∈ accepted := by
    rw [List.contains_iff_mem, holds.entries, ReplayWindow.mem_recent_of_near near]
  by_cases seen : nonce ∈ accepted
  · have duplicate : ¬Accepts accepted nonce := fun accepts => accepts.2.1 seen
    refine ⟨filter, ?_, by rwa [accept, if_neg duplicate]⟩
    have found := known.mpr seen
    rw [ReplayFilter.live] at found
    rw [ReplayFilter.checkAndRecord, if_neg (by omega), if_neg (by simp [ready]),
      if_neg notAhead, if_neg inside, if_neg (by simpa using holds.count), if_pos found]
    simp [duplicate]
  have accepts : Accepts accepted nonce := ⟨small, seen, Or.inr near⟩
  have room : filter.count < replayWindowSize := by
    rw [holds.count_eq]
    exact ReplayWindow.card_recent_lt seen behind near
  rcases Slots.store_eq_some filter.buffer nonce room with
    ⟨buffer, store_eq, toList_eq⟩
  have live_eq : buffer.toList.take (filter.count + 1) = filter.live ++ [nonce] := by
    rw [toList_eq, take_set_append (by rwa [Vector.length_toList]), ReplayFilter.live]
  refine ⟨{ filter with buffer, count := filter.count + 1 }, ?_, ?_⟩
  · have missing := mt known.mp seen
    rw [ReplayFilter.live] at missing
    rw [ReplayFilter.checkAndRecord, if_neg (by omega), if_neg (by simp [ready]),
      if_neg notAhead, if_neg inside, if_neg (by simpa using holds.count), if_neg missing, store_eq]
    simp [accepts]
  rw [accept, if_pos accepts]
  exact {
    initialized := by simp [ready]
    highest := by
      rw [ReplayWindow.highest_insert, max_eq_right behind]
      exact holds.highest
    count := room
    distinct := by
      rw [ReplayFilter.live, live_eq, List.nodup_append]
      refine ⟨holds.distinct, List.nodup_singleton nonce, ?_⟩
      rintro other member _ last rfl
      rw [List.mem_singleton.mp last, ← List.contains_iff_mem, known] at member
      exact seen member
    entries := by
      intro other
      rw [ReplayFilter.live, live_eq, ReplayWindow.mem_recent_insert_of_le behind near,
        List.mem_append, List.mem_singleton, holds.entries]
      exact or_comm
    below := by
      intro other member
      rcases Finset.mem_insert.mp member with rfl | member
      · exact small
      · exact holds.below other member }

end

/-- The filter answers as the window over the accepted nonces does, and never
panics. -/
theorem checkAndRecord_spec (holds : Represents filter accepted) (nonce : Nat) :
    ∃ filter', filter.checkAndRecord nonce = some (decide (Accepts accepted nonce), filter') ∧
      Represents filter' (accept accepted nonce) := by
  by_cases small : nonce < rejectAfterMessages
  swap
  · have late : ¬Accepts accepted nonce := fun accepts => small accepts.1
    refine ⟨filter, ?_, by rwa [accept, if_neg late]⟩
    rw [ReplayFilter.checkAndRecord, if_pos (by omega)]
    simp [late]
  rcases accepted.eq_empty_or_nonempty with rfl | nonempty
  · have accepts : Accepts ∅ nonce := ⟨small, Finset.notMem_empty nonce, Or.inl rfl⟩
    rcases checkAndRecord_first holds small with ⟨filter', result, holds⟩
    exact ⟨filter', by simpa [accepts] using result, by simpa [accept, accepts] using holds⟩
  by_cases ahead : ReplayWindow.highest accepted < nonce
  · have unseen : nonce ∉ accepted := fun member =>
      absurd (ReplayWindow.le_highest member) (by omega)
    have accepts : Accepts accepted nonce := ⟨small, unseen, Or.inr (by omega)⟩
    rcases checkAndRecord_ahead holds nonempty small ahead with ⟨filter', result, holds⟩
    exact ⟨filter', by simpa [accepts] using result, by simpa [accept, accepts] using holds⟩
  · exact checkAndRecord_behind holds nonempty small (by omega)

/-- The nonces that were answered with `true`. -/
def acceptedNonces (nonces : List Nat) (answers : List Bool) : Finset Nat :=
  (((nonces.zip answers).filter Prod.snd).map Prod.fst).toFinset

theorem acceptedNonces_cons (nonces : List Nat) (answer : Bool) (answers : List Bool) :
    acceptedNonces (nonce :: nonces) (answer :: answers) =
      if answer then insert nonce (acceptedNonces nonces answers) else acceptedNonces nonces answers := by
  cases answer <;> simp [acceptedNonces]

/-- A run of the filter never panics and ends in the window over the nonces it
accepted. -/
theorem checkAll_spec {before : Finset Nat} (holds : Represents filter before)
    (nonces : List Nat) :
    ∃ answers filter', filter.checkAll nonces = some (answers, filter') ∧
      Represents filter' (before ∪ acceptedNonces nonces answers) := by
  induction nonces generalizing filter before with
  | nil => exact ⟨[], filter, rfl, by simpa [acceptedNonces] using holds⟩
  | cons nonce nonces ih =>
      rcases checkAndRecord_spec holds nonce with ⟨middle, first, holds⟩
      rcases ih holds with ⟨answers, filter', rest, holds⟩
      refine ⟨decide (Accepts before nonce) :: answers, filter', ?_, ?_⟩
      · simp [ReplayFilter.checkAll, first, rest]
      · rw [acceptedNonces_cons]
        by_cases accepts : Accepts before nonce
        · rw [accept, if_pos accepts] at holds
          simpa [accepts, Finset.insert_union] using holds
        · rw [accept, if_neg accepts] at holds
          simpa [accepts] using holds

theorem checkAll_new (nonces : List Nat) (nonce : Nat) :
    ∃ answers filter filter', ReplayFilter.new.checkAll nonces = some (answers, filter) ∧
      filter.checkAndRecord nonce =
        some (decide (Accepts (acceptedNonces nonces answers) nonce), filter') := by
  rcases checkAll_spec represents_new nonces with ⟨answers, filter, all, holds⟩
  rw [Finset.empty_union] at holds
  rcases checkAndRecord_spec holds nonce with ⟨filter', last, _⟩
  exact ⟨answers, filter, filter', all, last⟩

end Window

end Corduit.Protocol.WireGuard
