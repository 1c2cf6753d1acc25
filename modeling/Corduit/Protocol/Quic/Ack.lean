import Mathlib.Data.List.Basic
import Mathlib.Data.Nat.Init
import Corduit.Protocol.Quic.Frame

/-!
# Acknowledged packet numbers

An ACK frame lists packet-number ranges from the largest down: the first one by
its length, each later one by the numbers left out in front of it and its
length.  The program expands them into intervals.  Each interval behind the
first one also takes in the numbers that the gap in front of it leaves out.

Packet numbers, gaps and lengths are below `2 ^ 62`, so the sums do not wrap;
the subtractions of the program saturate, as those of natural numbers do.
-/

namespace Corduit.Protocol.Quic

/-- The most ranges of a frame. -/
def MAX_ACK_RANGES : Nat := 256

/-- The loop of `ack_intervals`, from the range `i` on. -/
def ackIntervalsFrom (i largest : Nat) : List (Nat × Nat) → List (Nat × Nat)
  | [] => []
  | (gap, len) :: ranges =>
      if i ≥ MAX_ACK_RANGES then
        []
      else
        let smallest := if i = 0 then largest - len else largest - (gap + 1) - len
        (smallest, largest) :: ackIntervalsFrom (i + 1) (smallest - 1) ranges

/-- The intervals of a frame. -/
def ackIntervals (largestAcked : Nat) (ranges : List (Nat × Nat)) : List (Nat × Nat) :=
  ackIntervalsFrom 0 largestAcked ranges

/-- Whether a number is acknowledged. -/
def ackCovers (intervals : List (Nat × Nat)) (pn : Nat) : Bool :=
  intervals.any fun interval => pn ≥ interval.1 && pn ≤ interval.2

/-- Some interval contains the packet number. -/
def InSome (intervals : List (Nat × Nat)) (pn : Nat) : Prop :=
  ∃ interval ∈ intervals, interval.1 ≤ pn ∧ pn ≤ interval.2

/-- The ranges behind one that begins at `previous`: each one ends two numbers
and the gap before it. -/
def laterRanges (previous : Nat) : List (Nat × Nat) → List (Nat × Nat)
  | [] => []
  | (gap, len) :: ranges =>
      (previous - gap - 2 - len, previous - gap - 2) ::
        laterRanges (previous - gap - 2 - len) ranges

/-- The ranges that an ACK frame acknowledges. -/
def assignedRanges (largestAcked : Nat) : List (Nat × Nat) → List (Nat × Nat)
  | [] => []
  | (_, len) :: ranges =>
      (largestAcked - len, largestAcked) :: laterRanges (largestAcked - len) ranges

/-- The numbers left out in front of the ranges behind one that begins at
`previous`. -/
def laterGaps (previous : Nat) : List (Nat × Nat) → List (Nat × Nat)
  | [] => []
  | (gap, len) :: ranges =>
      (previous - gap - 1, previous - 1) :: laterGaps (previous - gap - 2 - len) ranges

/-- The numbers between the ranges of an ACK frame. -/
def gapRanges (largestAcked : Nat) : List (Nat × Nat) → List (Nat × Nat)
  | [] => []
  | (_, len) :: ranges => laterGaps (largestAcked - len) ranges

/-- No range reaches below zero. -/
def LaterWellFormed (previous : Nat) : List (Nat × Nat) → Prop
  | [] => True
  | (gap, len) :: ranges =>
      gap + 2 + len ≤ previous ∧ LaterWellFormed (previous - gap - 2 - len) ranges

/-- No range goes below zero. -/
def WellFormed (largestAcked : Nat) : List (Nat × Nat) → Prop
  | [] => True
  | (_, len) :: ranges => len ≤ largestAcked ∧ LaterWellFormed (largestAcked - len) ranges

variable {previous largestAcked pn i : Nat} {ranges : List (Nat × Nat)}

theorem ackCovers_iff_inSome {intervals : List (Nat × Nat)} :
    ackCovers intervals pn = true ↔ InSome intervals pn := by
  simp [ackCovers, InSome]

@[simp]
theorem not_inSome_nil : ¬ InSome [] pn := by
  simp [InSome]

@[simp]
theorem inSome_cons {interval : Nat × Nat} {intervals : List (Nat × Nat)} :
    InSome (interval :: intervals) pn ↔
      (interval.1 ≤ pn ∧ pn ≤ interval.2) ∨ InSome intervals pn := by
  simp [InSome]

section

variable (wellFormed : LaterWellFormed previous ranges)

include wellFormed

theorem lt_of_inSome_later
    (inside : InSome (laterRanges previous ranges) pn ∨ InSome (laterGaps previous ranges) pn) :
    pn < previous := by
  induction ranges generalizing previous with
  | nil => simp [laterRanges, laterGaps] at inside
  | cons range ranges ih =>
      rcases range with ⟨gap, len⟩
      rcases wellFormed with ⟨fits, wellFormed⟩
      simp only [laterRanges, laterGaps, inSome_cons] at inside
      rcases inside with (here | later) | (here | later)
      · omega
      · have := ih wellFormed (Or.inl later)
        omega
      · omega
      · have := ih wellFormed (Or.inr later)
        omega

/-- No number that a gap leaves out is acknowledged. -/
theorem not_inSome_laterRanges_of_gap (gap : InSome (laterGaps previous ranges) pn) :
    ¬ InSome (laterRanges previous ranges) pn := by
  induction ranges generalizing previous with
  | nil => simp [laterGaps] at gap
  | cons range ranges ih =>
      rcases range with ⟨skipped, len⟩
      rcases wellFormed with ⟨fits, wellFormed⟩
      simp only [laterRanges, laterGaps, inSome_cons] at gap ⊢
      rintro (here | later)
      · rcases gap with gap | gap
        · omega
        · have := lt_of_inSome_later wellFormed (Or.inr gap)
          omega
      · rcases gap with gap | gap
        · have := lt_of_inSome_later wellFormed (Or.inl later)
          omega
        · exact ih wellFormed gap later

/-- Behind the first range, the intervals of the program are the ranges with
the gaps in front of them. -/
theorem inSome_ackIntervalsFrom (later : 0 < i) (short : i + ranges.length ≤ MAX_ACK_RANGES) :
    InSome (ackIntervalsFrom i (previous - 1) ranges) pn ↔
      InSome (laterRanges previous ranges) pn ∨ InSome (laterGaps previous ranges) pn := by
  induction ranges generalizing previous i with
  | nil => simp [ackIntervalsFrom, laterRanges, laterGaps]
  | cons range ranges ih =>
      rcases range with ⟨gap, len⟩
      rcases wellFormed with ⟨fits, wellFormed⟩
      rw [List.length_cons] at short
      have below : ¬ i ≥ MAX_ACK_RANGES := by omega
      have notFirst : i ≠ 0 := by omega
      have smallest : previous - 1 - (gap + 1) - len = previous - gap - 2 - len := by omega
      rw [ackIntervalsFrom, if_neg below, if_neg notFirst]
      simp only [smallest, inSome_cons, laterRanges, laterGaps]
      rw [ih wellFormed (Nat.succ_pos i) (by omega)]
      have union : previous - gap - 2 - len ≤ pn ∧ pn ≤ previous - 1 ↔
          (previous - gap - 2 - len ≤ pn ∧ pn ≤ previous - gap - 2) ∨
            (previous - gap - 1 ≤ pn ∧ pn ≤ previous - 1) := by omega
      rw [union]
      exact or_or_or_comm

end

section

variable (wellFormed : WellFormed largestAcked ranges)

include wellFormed

theorem ackCovers_iff (short : ranges.length ≤ MAX_ACK_RANGES) :
    ackCovers (ackIntervals largestAcked ranges) pn = true ↔
      InSome (assignedRanges largestAcked ranges) pn ∨ InSome (gapRanges largestAcked ranges) pn := by
  rw [ackCovers_iff_inSome]
  cases ranges with
  | nil => simp [ackIntervals, ackIntervalsFrom, assignedRanges, gapRanges]
  | cons range ranges =>
      rcases range with ⟨gap, len⟩
      rw [List.length_cons] at short
      have later := @inSome_ackIntervalsFrom _ pn 1 _ wellFormed.2 Nat.one_pos (by omega)
      simp only [ackIntervals, ackIntervalsFrom, assignedRanges, gapRanges, inSome_cons]
      rw [if_neg (by decide)]
      simp only [if_true, inSome_cons, later, or_assoc]

theorem not_assigned_of_gap (gap : InSome (gapRanges largestAcked ranges) pn) :
    ¬ InSome (assignedRanges largestAcked ranges) pn := by
  cases ranges with
  | nil => simp [gapRanges] at gap
  | cons range ranges =>
      rcases range with ⟨skipped, len⟩
      simp only [assignedRanges, gapRanges, inSome_cons] at gap ⊢
      rintro (here | later)
      · have := lt_of_inSome_later wellFormed.2 (Or.inr gap)
        omega
      · exact not_inSome_laterRanges_of_gap wellFormed.2 gap later

/-- Two ranges always leave a number out between them. -/
theorem exists_gap_iff :
    (∃ pn, InSome (gapRanges largestAcked ranges) pn) ↔ 1 < ranges.length := by
  match ranges with
  | [] => simp [gapRanges]
  | [_] => simp [gapRanges, laterGaps]
  | (_, len) :: (gap, _) :: _ =>
      have fits := wellFormed.2.1
      refine iff_of_true ⟨largestAcked - len - 1, ?_⟩ (by simp)
      simp only [gapRanges, laterGaps, inSome_cons]
      exact Or.inl ⟨by omega, Nat.le_refl _⟩

end

/-- The program agrees with the frame format on a packet number exactly when it
lies in no gap, and on all packet numbers exactly when the frame has no second
range. -/
theorem ack_agrees_iff (largestAcked : Nat) (ranges : List (Nat × Nat))
    (wellFormed : WellFormed largestAcked ranges) (short : ranges.length ≤ MAX_ACK_RANGES) :
    (∀ pn, (ackCovers (ackIntervals largestAcked ranges) pn = true ↔
        InSome (assignedRanges largestAcked ranges) pn) ↔
      ¬ InSome (gapRanges largestAcked ranges) pn) ∧
    ((∀ pn, ackCovers (ackIntervals largestAcked ranges) pn = true ↔
        InSome (assignedRanges largestAcked ranges) pn) ↔ ranges.length ≤ 1) := by
  have each : ∀ pn, (ackCovers (ackIntervals largestAcked ranges) pn = true ↔
      InSome (assignedRanges largestAcked ranges) pn) ↔
      ¬ InSome (gapRanges largestAcked ranges) pn := by
    intro pn
    rw [ackCovers_iff wellFormed short]
    constructor
    · intro agrees gap
      exact not_assigned_of_gap wellFormed gap (agrees.mp (Or.inr gap))
    · intro clear
      exact ⟨fun covered => covered.resolve_right clear, Or.inl⟩
  refine ⟨each, ?_⟩
  rw [forall_congr' each, ← not_exists, exists_gap_iff wellFormed, Nat.not_lt]

/-- Packets 8 to 10 and 2 to 4 are acknowledged. -/
theorem ack_agrees_two_ranges :
    ackCovers (ackIntervals 10 [(0, 2), (2, 2)]) 9 = true ∧
      InSome (assignedRanges 10 [(0, 2), (2, 2)]) 9 := by
  have agrees := (ack_agrees_iff 10 [(0, 2), (2, 2)] ⟨by decide, by decide, trivial⟩ (by decide)).1 9
  have covered : ackCovers (ackIntervals 10 [(0, 2), (2, 2)]) 9 = true := by decide
  refine ⟨covered, (agrees.mpr ?_).mp covered⟩
  rintro ⟨interval, member, starts, ends⟩
  obtain rfl : interval = (5, 7) := List.mem_singleton.mp member
  exact absurd ends (by decide)

/-- Packet 6 lies between the ranges, and is taken for acknowledged. -/
theorem unacknowledged_packet_covered :
    WellFormed 10 [(0, 2), (2, 2)] ∧
      ackCovers (ackIntervals 10 [(0, 2), (2, 2)]) 6 = true ∧
      ¬ InSome (assignedRanges 10 [(0, 2), (2, 2)]) 6 := by
  refine ⟨⟨by decide, by decide, trivial⟩, by decide, ?_⟩
  rw [← ackCovers_iff_inSome]
  decide

end Corduit.Protocol.Quic

/-!
# Acknowledging received packets

An ACK frame is built from the set of received packet numbers, walking its
runs of consecutive numbers from the top, four runs at most.  The frame format
places the top of a later run two numbers and the gap below the run in front of
it; the program writes a gap that is one too large, so every later run is
placed one number too low for each run in front of it.
-/

namespace Corduit.Protocol.Quic

open Collection

/-- Walk down from `prev` as long as the numbers are consecutive: how many there
were, and the last one. -/
def runDown (len prev : Nat) : List Nat → Nat × Nat
  | [] => (len, prev)
  | pn :: rest => if pn + 1 = prev then runDown (len + 1) pn rest else (len, prev)

/-- The loop for the ranges behind the first one, `remaining` of which still
fit; `gapBase` is the smallest number of the range in front. -/
def laterAckRanges (acked : OrderedSet Nat) : (remaining gapBase : Nat) → List (Nat × Nat)
  | 0, _ => []
  | remaining + 1, gapBase =>
      match (acked.below (gapBase - 1)).head? with
      | none => []
      | some p =>
          let gap := gapBase - p - 1
          let (len, q) := runDown 0 p (acked.below p)
          (gap, len) :: laterAckRanges acked remaining q

/-- The ranges of a set. -/
def buildAckRanges (acked : OrderedSet Nat) : List (Nat × Nat) :=
  match acked.descending with
  | [] => []
  | largest :: rest =>
      let (firstLen, prev) := runDown 0 largest rest
      (0, firstLen) :: laterAckRanges acked 3 prev

/-- Build an ACK frame from the numbers that wait to be acknowledged. -/
def buildAck (ackQueue : OrderedSet Nat) : Option Frame :=
  match ackQueue.descending.head? with
  | none => none
  | some largest => some (.ack largest 0 (buildAckRanges ackQueue) none)

/-- The runs of the set that end at `pn` or above. -/
def runsFrom (acked : OrderedSet Nat) (pn : Nat) : Nat :=
  acked.elements.countP fun top => decide (pn ≤ top) && !acked.contains (top + 1)

/-- The number lies in one of the four topmost runs of consecutive numbers. -/
def InTopRuns (acked : OrderedSet Nat) (pn : Nat) : Prop :=
  pn ∈ acked.elements ∧ runsFrom acked pn ≤ 4

/-- The frame is well formed and acknowledges the four topmost runs; an empty
set gives no frame. -/
def AcknowledgesTopRuns (acked : OrderedSet Nat) : Prop :=
  match buildAck acked with
  | some (.ack largest _ ranges _) =>
      WellFormed largest ranges ∧
        ∀ pn, InSome (assignedRanges largest ranges) pn ↔ InTopRuns acked pn
  | _ => acked.elements = []

/-- The set has no hole: what lies between two of its numbers is in it. -/
def WithoutHoles (acked : OrderedSet Nat) : Prop :=
  ∀ low ∈ acked.elements, ∀ high ∈ acked.elements, ∀ pn, low ≤ pn → pn ≤ high →
    pn ∈ acked.elements

variable {acked : OrderedSet Nat} {prev pn : Nat} {rest : List Nat}

/-- What the walk passes: a run that ends where the next number is missing. -/
theorem runDown_spec (len : Nat) (sorted : rest.Pairwise (· > ·)) (below : ∀ pn ∈ rest, pn < prev) :
    (runDown len prev rest).2 + (runDown len prev rest).1 = prev + len ∧
      (runDown len prev rest).2 ≤ prev ∧
      (∀ pn, (runDown len prev rest).2 ≤ pn → pn < prev → pn ∈ rest) ∧
      ∀ pn ∈ rest, pn + 1 ≠ (runDown len prev rest).2 := by
  induction rest generalizing len prev with
  | nil =>
      refine ⟨rfl, Nat.le_refl _, fun pn from_ before => ?_, by simp⟩
      exact absurd from_ (Nat.not_le_of_lt before)
  | cons first rest ih =>
      rcases List.pairwise_cons.mp sorted with ⟨above, sortedRest⟩
      rw [runDown]
      split
      · rename_i consecutive
        rcases ih (len + 1) sortedRest above with ⟨sum, atMost, passed, stopped⟩
        refine ⟨by omega, by omega, fun pn from_ before => ?_, fun pn member => ?_⟩
        · by_cases here : pn = first
          · exact List.mem_cons.mpr (Or.inl here)
          · exact List.mem_cons_of_mem first (passed pn from_ (by omega))
        · rcases List.mem_cons.mp member with rfl | member
          · omega
          · exact stopped pn member
      · rename_i apart
        refine ⟨rfl, Nat.le_refl _, fun pn from_ before => ?_, fun pn member => ?_⟩
        · exact absurd from_ (Nat.not_le_of_lt before)
        · rcases List.mem_cons.mp member with rfl | member
          · exact apart
          · have beneath := above pn member
            have under := below first List.mem_cons_self
            change pn + 1 ≠ prev
            omega

/-- The first range is a run that ends at the largest number. -/
theorem first_run (top : acked.descending = pn :: rest) :
    (runDown 0 pn rest).2 + (runDown 0 pn rest).1 = pn ∧
      (∀ other ∈ acked.elements, other ≤ pn) ∧
      (∀ other, (runDown 0 pn rest).2 ≤ other → other ≤ pn → other ∈ acked.elements) ∧
      ∀ other ∈ acked.elements, other + 1 ≠ (runDown 0 pn rest).2 := by
  have sorted := acked.pairwise_descending
  rw [top] at sorted
  rcases List.pairwise_cons.mp sorted with ⟨above, sortedRest⟩
  rcases runDown_spec 0 sortedRest above with ⟨sum, atMost, passed, stopped⟩
  have located : ∀ other, other ∈ acked.elements ↔ other = pn ∨ other ∈ rest := by
    intro other
    rw [← OrderedSet.mem_descending, top, List.mem_cons]
  refine ⟨sum, fun other member => ?_, fun other from_ upTo => ?_, fun other member => ?_⟩
  · rcases (located other).mp member with rfl | later
    · exact Nat.le_refl _
    · exact Nat.le_of_lt (above other later)
  · by_cases here : other = pn
    · exact (located other).mpr (Or.inl here)
    · exact (located other).mpr (Or.inr (passed other from_ (by omega)))
  · rcases (located other).mp member with rfl | later
    · omega
    · exact stopped other later

theorem runsFrom_le {tops : List Nat}
    (all : ∀ top ∈ acked.elements, pn ≤ top → top + 1 ∉ acked.elements → top ∈ tops) :
    runsFrom acked pn ≤ tops.length := by
  have distinct : acked.elements.Nodup := acked.pairwise_elements.imp Nat.ne_of_lt
  rw [runsFrom, List.countP_eq_length_filter]
  apply ((distinct.filter _).subperm _).length_le
  intro top member
  rcases List.mem_filter.mp member with ⟨present, isTop⟩
  rw [Bool.and_eq_true, decide_eq_true_iff, Bool.not_eq_true', Bool.eq_false_iff, ne_eq,
    OrderedSet.contains_iff] at isTop
  exact all top present isTop.1 isTop.2

theorem acknowledgesTopRuns_of_withoutHoles (whole : WithoutHoles acked) :
    AcknowledgesTopRuns acked := by
  rw [AcknowledgesTopRuns, buildAck]
  cases top : acked.descending with
  | nil =>
      change acked.elements = []
      exact List.reverse_eq_nil_iff.mp top
  | cons largest rest =>
      rcases first_run top with ⟨sum, greatest, run, stopped⟩
      have largestMem := run largest (by omega) (Nat.le_refl _)
      have lowest : ∀ pn ∈ acked.elements, (runDown 0 largest rest).2 ≤ pn := by
        intro pn member
        by_contra beneath
        have missing := whole pn member largest largestMem ((runDown 0 largest rest).2 - 1)
          (by omega) (by omega)
        exact stopped _ missing (by omega)
      have noLater : laterAckRanges acked 3 (runDown 0 largest rest).2 = [] := by
        rw [laterAckRanges]
        cases next : (acked.below ((runDown 0 largest rest).2 - 1)).head? with
        | none => rfl
        | some p =>
            rcases OrderedSet.mem_below.mp (List.mem_of_mem_head? next) with ⟨member, beneath⟩
            have := lowest p member
            omega
      simp only [List.head?_cons, buildAckRanges, top, noLater, assignedRanges, laterRanges,
        inSome_cons, not_inSome_nil, or_false]
      refine ⟨⟨by omega, trivial⟩, fun pn => ⟨fun inside => ?_, fun inside => ?_⟩⟩
      · refine ⟨run pn (by omega) inside.2, ?_⟩
        have onlyTop : runsFrom acked pn ≤ [largest].length := by
          apply runsFrom_le
          intro top member _ isTop
          have atMost := greatest top member
          by_contra other
          rw [List.mem_singleton] at other
          exact isTop (run (top + 1) (by have := lowest top member; omega) (by omega))
        exact Nat.le_trans onlyTop (by simp)
      · have := greatest pn inside.1
        have := lowest pn inside.1
        omega

/-- The top of the second run is in the set, and below it nothing of the frame
reaches it. -/
theorem withoutHoles_of_acknowledgesTopRuns (acknowledges : AcknowledgesTopRuns acked) :
    WithoutHoles acked := by
  rw [AcknowledgesTopRuns, buildAck] at acknowledges
  intro low lowMem high highMem pn fromLow toHigh
  by_contra missing
  cases top : acked.descending with
  | nil =>
      have empty : acked.elements = [] := List.reverse_eq_nil_iff.mp top
      rw [empty] at lowMem
      exact List.not_mem_nil lowMem
  | cons largest rest =>
      rcases first_run top with ⟨sum, greatest, run, stopped⟩
      have highest := greatest high highMem
      -- The hole is below the first run, so the lower number opens a later one.
      have beneath : low < (runDown 0 largest rest).2 - 1 := by
        have apart := stopped low lowMem
        have outside : ¬ (runDown 0 largest rest).2 ≤ pn := fun inside =>
          missing (run pn inside (by omega))
        omega
      cases next : (acked.below ((runDown 0 largest rest).2 - 1)).head? with
      | none =>
          rw [List.head?_eq_none_iff] at next
          have member := OrderedSet.mem_below.mpr ⟨lowMem, beneath⟩
          rw [next] at member
          exact List.not_mem_nil member
      | some p =>
          rcases OrderedSet.mem_below.mp (List.mem_of_mem_head? next) with ⟨pMem, pBelow⟩
          have nearest : ∀ other ∈ acked.elements, other < (runDown 0 largest rest).2 - 1 →
              other ≤ p := fun other member under =>
            (OrderedSet.eq_or_lt_of_head?_below next member under).elim Nat.le_of_eq Nat.le_of_lt
          have topRuns : InTopRuns acked p := by
            refine ⟨pMem, ?_⟩
            have twoTops : runsFrom acked p ≤ [p, largest].length := by
              apply runsFrom_le
              intro top member above isTop
              have atMost := greatest top member
              have apart := stopped top member
              by_contra other
              simp only [List.mem_cons, List.not_mem_nil, or_false, not_or] at other
              by_cases under : top < (runDown 0 largest rest).2 - 1
              · have := nearest top member under
                omega
              · exact isTop (run (top + 1) (by omega) (by omega))
            exact Nat.le_trans twoTops (by simp)
          simp only [top, List.head?_cons, buildAckRanges, laterAckRanges, next, assignedRanges,
            laterRanges, WellFormed, LaterWellFormed] at acknowledges
          rcases acknowledges with ⟨⟨_, fits, wellFormed⟩, denotes⟩
          have acknowledged := (denotes p).mpr topRuns
          rw [inSome_cons, inSome_cons] at acknowledged
          rcases acknowledged with first | second | later
          · omega
          · omega
          · have := lt_of_inSome_later wellFormed (Or.inl later)
            omega

/-- The frame acknowledges exactly the topmost runs of received numbers when,
and only when, the received numbers have no hole. -/
theorem acknowledgesTopRuns_iff (acked : OrderedSet Nat) :
    AcknowledgesTopRuns acked ↔ WithoutHoles acked :=
  ⟨withoutHoles_of_acknowledgesTopRuns, acknowledgesTopRuns_of_withoutHoles⟩

/-- Packets 5 and 10 have arrived. -/
def fiveAndTen : OrderedSet Nat :=
  (OrderedMap.empty.insert 5 ()).insert 10 ()

/-- The frame for packets 5 and 10 acknowledges packet 4. -/
theorem missing_packet_acknowledged :
    buildAck fiveAndTen = some (.ack 10 0 [(0, 0), (4, 0)] none) ∧
      WellFormed 10 [(0, 0), (4, 0)] ∧ InSome (assignedRanges 10 [(0, 0), (4, 0)]) 4 ∧
      4 ∉ fiveAndTen.elements ∧ ¬ AcknowledgesTopRuns fiveAndTen := by
  have built : buildAck fiveAndTen = some (.ack 10 0 [(0, 0), (4, 0)] none) := by decide
  have absent : 4 ∉ fiveAndTen.elements := by decide
  have acknowledged : InSome (assignedRanges 10 [(0, 0), (4, 0)]) 4 := by
    rw [← ackCovers_iff_inSome]
    decide
  refine ⟨built, ⟨by decide, by decide, trivial⟩, acknowledged, absent, fun acknowledges => ?_⟩
  rw [AcknowledgesTopRuns, built] at acknowledges
  exact absent ((acknowledges.2 4).mp acknowledged).1

end Corduit.Protocol.Quic
