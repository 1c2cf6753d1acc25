import Corduit.Engine.Outbound.Vmess.Downlink

/-!
# Which counters are used twice

A call that goes through takes the next counters and stores how far it came.  A
write that fails stores nothing: the counters it sealed with are the next ones
again.
-/

namespace Corduit.Engine.Outbound.Vmess

open Collection Transport Word

/-- Consecutive counters. -/
def countersFrom (first count : Nat) : List (BitVec 16) :=
  (List.range' first count).map (BitVec.ofNat 16)

theorem countersFrom_succ (first count : Nat) :
    countersFrom first (count + 1) = BitVec.ofNat 16 first :: countersFrom (first + 1) count :=
  rfl

theorem countersFrom_append (first count count' : Nat) :
    countersFrom first count ++ countersFrom (first + count) count' =
      countersFrom first (count + count') := by
  rw [countersFrom, countersFrom, countersFrom, ← List.map_append, List.range'_append_1]

theorem nodup_countersFrom {first count : Nat} (within : first + count ≤ 2 ^ 16) :
    (countersFrom first count).Nodup := by
  refine List.Nodup.map_on ?_ List.nodup_range'
  intro one member other member' same
  rw [List.mem_range'_1] at member member'
  have values := congrArg BitVec.toNat same
  rw [BitVec.toNat_ofNat, BitVec.toNat_ofNat, Nat.mod_eq_of_lt (by omega),
    Nat.mod_eq_of_lt (by omega)] at values
  exact values

namespace Uplink

variable {primitives : Primitives}

/-- How many chunks a call seals on a stream. -/
def chunkCount (uplink : Uplink) : Call → Nat
  | .write buf =>
      if uplink.stream.encExhausted || uplink.remaining < (chunks vmessChunkMax buf).length then 0
      else (chunks vmessChunkMax buf).length
  | .shutdown how =>
      if how.writes && !uplink.stream.endChunkSent && !uplink.stream.encExhausted then 1 else 0

/-- The call seals. -/
def Seals (uplink : Uplink) (made : Call) : Prop :=
  0 < uplink.chunkCount made

/-- The transport fails at one of the chunks of a write. -/
def Breaks (uplink : Uplink) : Call → Prop
  | .write buf => uplink.outgoing.FailsWithin (uplink.chunkCount (.write buf))
  | .shutdown _ => False

/-- What a call does to the counters: it takes none, or the next ones; or it
breaks behind the first of them and they are still the next ones. -/
inductive Took (uplink next : Uplink) : (count : Nat) → (broken : Prop) → Prop
  | none (cipher : next.stream.cipher = uplink.stream.cipher)
      (counters : next.counters = uplink.counters)
      (count : next.stream.encCount = uplink.stream.encCount)
      (exhausted : next.stream.encExhausted = uplink.stream.encExhausted) :
      Took uplink next 0 False
  | all {taken : Nat} (cipher : next.stream.cipher = uplink.stream.cipher) (positive : 0 < taken)
      (within : uplink.stream.encCount.toNat + taken ≤ 2 ^ 16)
      (fresh : uplink.stream.encExhausted = false)
      (counters : next.counters =
        uplink.counters ++ countersFrom uplink.stream.encCount.toNat taken)
      (count : next.stream.encCount = BitVec.ofNat 16 (uplink.stream.encCount.toNat + taken))
      (exhausted : next.stream.encExhausted =
        decide (uplink.stream.encCount.toNat + taken = 2 ^ 16)) :
      Took uplink next taken False
  | some {taken sealed : Nat} (cipher : next.stream.cipher = uplink.stream.cipher)
      (positive : 0 < sealed) (most : sealed ≤ taken)
      (within : uplink.stream.encCount.toNat + taken ≤ 2 ^ 16)
      (counters : next.counters =
        uplink.counters ++ countersFrom uplink.stream.encCount.toNat sealed)
      (count : next.stream.encCount = uplink.stream.encCount)
      (fresh : uplink.stream.encExhausted = false)
      (exhausted : next.stream.encExhausted = false) :
      Took uplink next taken True

theorem sendChunks_cases (primitives : Primitives) (pieces : List (List Byte)) (count : Nat)
    (uplink : Uplink) (within : count + pieces.length ≤ 2 ^ 16) (positive : 0 < pieces.length)
    (fresh : uplink.stream.encExhausted = false) :
    (∃ next, sendChunks primitives pieces (BitVec.ofNat 16 count) uplink =
        (.ok (BitVec.ofNat 16 (count + pieces.length)), next) ∧
      ¬ uplink.outgoing.FailsWithin pieces.length ∧
      next.counters = uplink.counters ++ countersFrom count pieces.length ∧
      next.stream = { uplink.stream with
        encExhausted := decide (count + pieces.length = 2 ^ 16) }) ∨
    ∃ error next sealed, sendChunks primitives pieces (BitVec.ofNat 16 count) uplink =
        (.error error, next) ∧
      uplink.outgoing.FailsWithin pieces.length ∧ 0 < sealed ∧ sealed ≤ pieces.length ∧
      next.counters = uplink.counters ++ countersFrom count sealed ∧
      next.stream = uplink.stream := by
  induction pieces generalizing count uplink with
  | nil => exact absurd positive (Nat.lt_irrefl 0)
  | cons piece pieces ih =>
      rw [List.length_cons] at within ⊢
      rw [sendChunks, sendChunk]
      rcases Outgoing.writeAll_cases uplink.outgoing
          (encryptChunkStatic primitives uplink.stream.cipher piece uplink.stream.encKey
            uplink.stream.encIv (BitVec.ofNat 16 count)) with
        ⟨outgoing, taken, failing⟩ | ⟨error, outgoing, failed, failing⟩
      · rw [taken]
        dsimp only
        rw [fresh, Bool.false_or]
        have last : decide (BitVec.ofNat 16 count = BitVec.allOnes 16) =
            decide (count + 1 = 2 ^ 16) := by
          rw [decide_eq_decide, ← BitVec.toNat_inj, BitVec.toNat_ofNat, BitVec.toNat_allOnes,
            Nat.mod_eq_of_lt (by omega)]
          omega
        have next_count : BitVec.ofNat 16 count + 1 = BitVec.ofNat 16 (count + 1) := by
          rw [BitVec.ofNat_add]
          rfl
        rw [last, next_count]
        by_cases done : pieces = []
        · subst done
          refine Or.inl ⟨_, rfl, ?_, ?_, rfl⟩
          · rw [failing]
            simp [Outgoing.FailsWithin]
          · rfl
        · have more := List.length_pos_iff.mpr done
          have early : decide (count + 1 = 2 ^ 16) = false := decide_eq_false (by omega)
          rcases ih (count + 1) { uplink with
              stream.encExhausted := decide (count + 1 = 2 ^ 16)
              outgoing := outgoing
              counters := uplink.counters ++ [BitVec.ofNat 16 count] } (by omega) more early with
            ⟨next, sent, held, counters, stream⟩ |
            ⟨error, next, sealed, sent, broken, some, most, counters, stream⟩
          · refine Or.inl ⟨next, ?_, ?_, ?_, ?_⟩
            · rw [sent, Nat.add_assoc, Nat.add_comm 1]
            · rw [failing]
              exact held
            · rw [counters, List.append_assoc, countersFrom_succ]
              rfl
            · rw [stream, Nat.add_assoc, Nat.add_comm 1]
          · refine Or.inr ⟨error, next, sealed + 1, sent, ?_, Nat.succ_pos _,
              Nat.succ_le_succ most, ?_, ?_⟩
            · rw [failing]
              exact broken
            · rw [counters, List.append_assoc, countersFrom_succ]
              rfl
            · rw [stream, early, ← fresh]
      · rw [failed]
        exact Or.inr ⟨error, _, 1, rfl, failing _, Nat.one_pos, Nat.succ_pos _, rfl, rfl⟩

theorem took_nothing (uplink : Uplink) : Took uplink uplink 0 (uplink.outgoing.FailsWithin 0) := by
  rw [eq_false (Outgoing.not_failsWithin_zero uplink.outgoing)]
  exact Took.none rfl rfl rfl rfl

section

variable (primitives : Primitives) (uplink : Uplink)

theorem took_write (buf : List Byte) :
    Took uplink (uplink.write primitives buf).2 (uplink.chunkCount (.write buf))
      (uplink.Breaks (.write buf)) := by
  rw [Breaks, chunkCount, write]
  by_cases full : uplink.stream.encExhausted = true
  · rw [if_pos full, full, Bool.true_or, if_pos rfl]
    exact took_nothing uplink
  rw [if_neg full]
  have fresh := Bool.eq_false_iff.mpr full
  rw [fresh, Bool.false_or]
  by_cases short : uplink.remaining < (chunks vmessChunkMax buf).length
  · rw [if_pos short, if_pos (decide_eq_true short)]
    exact took_nothing uplink
  rw [if_neg short, if_neg (by simpa using short)]
  by_cases none : (chunks vmessChunkMax buf).length = 0
  · rw [List.length_eq_zero_iff.mp none]
    rw [List.length_nil, eq_false (Outgoing.not_failsWithin_zero uplink.outgoing)]
    exact Took.none rfl rfl rfl rfl
  have positive := Nat.pos_of_ne_zero none
  have within : uplink.stream.encCount.toNat + (chunks vmessChunkMax buf).length ≤ 2 ^ 16 := by
    have counted := uplink.stream.encCount.isLt
    rw [remaining] at short
    omega
  have sending := sendChunks_cases primitives (chunks vmessChunkMax buf)
    uplink.stream.encCount.toNat uplink within positive fresh
  rw [BitVec.ofNat_toNat, BitVec.setWidth_eq] at sending
  rcases sending with ⟨next, sent, held, counters, stream⟩ |
    ⟨error, next, sealed, sent, broken, some, most, counters, stream⟩
  · rw [sent, eq_false held]
    refine Took.all ?_ positive within fresh counters rfl ?_
    · dsimp only
      rw [stream]
    · dsimp only
      rw [stream]
  · rw [sent, eq_true broken]
    exact Took.some (congrArg VmessStream.cipher stream) some most within counters
      (congrArg VmessStream.encCount stream) fresh
      ((congrArg VmessStream.encExhausted stream).trans fresh)

theorem took_shutdown (how : Shutdown) :
    Took uplink (uplink.shutdown primitives how).2 (uplink.chunkCount (.shutdown how)) False := by
  rw [chunkCount, shutdown]
  by_cases first : (how.writes && !uplink.stream.endChunkSent) = true
  · rw [if_pos first, first, Bool.true_and, sendEndChunk]
    by_cases full : uplink.stream.encExhausted = true
    · rw [if_pos full, full, Bool.not_true, if_neg Bool.false_ne_true]
      exact Took.none rfl rfl rfl rfl
    have fresh := Bool.eq_false_iff.mpr full
    have counted := uplink.stream.encCount.isLt
    rw [if_neg full, fresh, Bool.not_false, if_pos rfl]
    refine Took.all rfl Nat.one_pos counted fresh ?_ ?_ ?_
    · dsimp only [sendChunk]
      rw [countersFrom_succ, BitVec.ofNat_toNat, BitVec.setWidth_eq]
      rfl
    · dsimp only [sendChunk]
      rw [BitVec.ofNat_add, BitVec.ofNat_toNat, BitVec.setWidth_eq]
      rfl
    · dsimp only [sendChunk]
      rw [Bool.false_or, decide_eq_decide, ← BitVec.toNat_inj, BitVec.toNat_allOnes]
      omega
  · rw [if_neg first, Bool.eq_false_iff.mpr first, Bool.false_and, if_neg Bool.false_ne_true]
    exact Took.none rfl rfl rfl rfl

theorem took_call (made : Call) :
    Took uplink (uplink.call primitives made) (uplink.chunkCount made) (uplink.Breaks made) := by
  cases made with
  | write buf => exact took_write primitives uplink buf
  | shutdown how => exact took_shutdown primitives uplink how

end

theorem Took.cipher_eq {uplink next : Uplink} {count : Nat} {broken : Prop}
    (took : Took uplink next count broken) : next.stream.cipher = uplink.stream.cipher := by
  cases took with
  | none cipher _ _ _ => exact cipher
  | all cipher _ _ _ _ _ _ => exact cipher
  | some cipher _ _ _ _ _ _ _ => exact cipher

variable {uplink : Uplink}

@[simp]
theorem run_nil : uplink.run primitives [] = uplink :=
  rfl

@[simp]
theorem run_cons (made : Call) (calls : List Call) :
    uplink.run primitives (made :: calls) = (uplink.call primitives made).run primitives calls :=
  rfl

theorem cipher_run (calls : List Call) :
    (uplink.run primitives calls).stream.cipher = uplink.stream.cipher := by
  induction calls generalizing uplink with
  | nil => rfl
  | cons made calls ih => exact ih.trans (took_call primitives uplink made).cipher_eq

/-- No counter is forgotten. -/
theorem counters_prefix_run (calls : List Call) :
    uplink.counters <+: (uplink.run primitives calls).counters := by
  induction calls generalizing uplink with
  | nil => exact List.prefix_refl _
  | cons made calls ih =>
      refine List.IsPrefix.trans ?_ ih
      have took := took_call primitives uplink made
      generalize uplink.chunkCount made = count at took
      generalize uplink.Breaks made = broken at took
      cases took with
      | none _ counters _ _ => exact counters ▸ List.prefix_refl _
      | all _ _ _ _ counters _ _ => exact counters ▸ List.prefix_append _ _
      | some _ _ _ _ counters _ _ _ => exact counters ▸ List.prefix_append _ _

theorem counters_run_of_silent {calls : List Call}
    (silent : ∀ visit ∈ uplink.visits primitives calls, ¬ visit.1.Seals visit.2) :
    (uplink.run primitives calls).counters = uplink.counters := by
  induction calls generalizing uplink with
  | nil => rfl
  | cons made calls ih =>
      rw [visits, List.forall_mem_cons] at silent
      refine (ih silent.2).trans ?_
      have took := took_call primitives uplink made
      have nothing : ¬ 0 < uplink.chunkCount made := silent.1
      generalize uplink.chunkCount made = count at took nothing
      generalize uplink.Breaks made = broken at took
      cases took with
      | none _ counters _ _ => exact counters
      | all _ positive _ _ _ _ _ => exact absurd positive nothing
      | some _ positive most _ _ _ _ _ =>
          exact absurd (Nat.lt_of_lt_of_le positive most) nothing

/-- The next counter was already used. -/
def Stale (uplink : Uplink) : Prop :=
  uplink.stream.encCount ∈ uplink.counters

theorem not_nodup_run_of_stale (stale : uplink.Stale) {calls : List Call}
    (seals : ∃ visit ∈ uplink.visits primitives calls, visit.1.Seals visit.2) :
    ¬ (uplink.run primitives calls).counters.Nodup := by
  induction calls generalizing uplink with
  | nil =>
      rcases seals with ⟨_, member, _⟩
      exact absurd member List.not_mem_nil
  | cons made calls ih =>
      -- The call seals, with the counter that was used, or leaves it the next one.
      have again : ∀ {sealed : Nat}, 0 < sealed →
          (uplink.call primitives made).counters =
            uplink.counters ++ countersFrom uplink.stream.encCount.toNat sealed →
          ¬ (uplink.run primitives (made :: calls)).counters.Nodup := by
        intro sealed positive counters nodup
        have kept := nodup.sublist (counters_prefix_run calls).sublist
        rw [counters, List.nodup_append] at kept
        obtain ⟨less, rfl⟩ := Nat.exists_eq_succ_of_ne_zero (Nat.ne_of_gt positive)
        refine kept.2.2 _ stale _ ?_ rfl
        rw [Nat.succ_eq_add_one, countersFrom_succ, BitVec.ofNat_toNat, BitVec.setWidth_eq]
        exact List.mem_cons_self
      have took := took_call primitives uplink made
      generalize chunked : uplink.chunkCount made = count at took
      generalize uplink.Breaks made = broken at took
      cases took with
      | none _ counters value _ =>
          refine ih ?_ ?_
          · rw [Stale, counters, value]
            exact stale
          · rcases seals with ⟨visit, member, sealing⟩
            rcases List.mem_cons.mp member with rfl | later
            · rw [Seals, chunked] at sealing
              exact absurd sealing (Nat.lt_irrefl 0)
            · exact ⟨visit, later, sealing⟩
      | all _ positive _ _ counters _ _ => exact again positive counters
      | some _ positive _ _ counters _ _ _ => exact again positive counters

/-- The counters so far are the first ones, each of them once. -/
structure Fresh (uplink : Uplink) (count : Nat) : Prop where
  within : count ≤ 2 ^ 16
  counters : uplink.counters = countersFrom 0 count
  value : uplink.stream.encCount = BitVec.ofNat 16 count
  exhausted : uplink.stream.encExhausted = decide (count = 2 ^ 16)

theorem Fresh.toNat_encCount {count : Nat} (fresh : uplink.Fresh count)
    (open_ : uplink.stream.encExhausted = false) : uplink.stream.encCount.toNat = count := by
  have less : count ≠ 2 ^ 16 := of_decide_eq_false (fresh.exhausted.symm.trans open_)
  rw [fresh.value, BitVec.toNat_ofNat]
  exact Nat.mod_eq_of_lt (Nat.lt_of_le_of_ne fresh.within less)

/-- A write breaks and a later call seals. -/
def Reuses (earlier later : Uplink × Call) : Prop :=
  earlier.1.Breaks earlier.2 ∧ later.1.Seals later.2

/-- From a stream with fresh counters, a run uses none twice exactly if nothing
is sealed behind a write that breaks. -/
theorem Fresh.nodup_run_iff {count : Nat} (fresh : uplink.Fresh count) (calls : List Call) :
    (uplink.run primitives calls).counters.Nodup ↔
      (uplink.visits primitives calls).Pairwise fun earlier later => ¬ Reuses earlier later := by
  induction calls generalizing uplink count with
  | nil =>
      rw [run_nil, fresh.counters]
      exact iff_of_true (nodup_countersFrom (by simpa using fresh.within)) List.Pairwise.nil
  | cons made calls ih =>
      rw [run_cons, visits, List.pairwise_cons]
      have took := took_call primitives uplink made
      have whole : ∀ {next : Uplink}, ¬ uplink.Breaks made →
          ((∀ later ∈ visits primitives next calls, ¬ Reuses (uplink, made) later) ↔ True) :=
        fun held => iff_true_intro fun _ _ reuses => held reuses.1
      generalize broken_eq : uplink.Breaks made = broken at took whole
      generalize uplink.chunkCount made = taken at took
      cases took with
      | none _ counters value exhausted =>
          rw [whole id, true_and]
          exact ih ⟨fresh.within, counters.trans fresh.counters, value.trans fresh.value,
            exhausted.trans fresh.exhausted⟩
      | all _ positive within open_ counters value exhausted =>
          rw [whole id, true_and]
          rw [fresh.toNat_encCount open_] at within counters value exhausted
          refine ih ⟨within, ?_, value, exhausted⟩
          rw [counters, fresh.counters, ← countersFrom_append, Nat.zero_add]
      | @some _ sealed _ positive most within counters value open_ exhausted =>
          rw [fresh.toNat_encCount open_] at within counters
          by_cases silent : ∀ later ∈ visits primitives (uplink.call primitives made) calls,
              ¬ later.1.Seals later.2
          · refine iff_of_true ?_ ⟨fun later member reuses => silent later member reuses.2, ?_⟩
            · rw [counters_run_of_silent silent, counters, fresh.counters]
              have all := countersFrom_append 0 count sealed
              rw [Nat.zero_add] at all
              rw [all]
              exact nodup_countersFrom (by omega)
            · exact List.pairwise_of_forall_mem_list fun _ _ later member reuses =>
                silent later member reuses.2
          · push Not at silent
            refine iff_of_false ?_ ?_
            · refine not_nodup_run_of_stale ?_ silent
              rw [Stale, value, counters, fresh.value]
              obtain ⟨less, rfl⟩ := Nat.exists_eq_succ_of_ne_zero (Nat.ne_of_gt positive)
              rw [Nat.succ_eq_add_one, countersFrom_succ]
              exact List.mem_append_right _ List.mem_cons_self
            · rintro ⟨none, _⟩
              rcases silent with ⟨later, member, sealing⟩
              exact none later member ⟨broken_eq.symm ▸ trivial, sealing⟩

/-- `enc_key` sees no counter twice exactly if no chunk is sealed behind a write
that the transport broke, or the cipher has no key. -/
theorem nodup_keyCounters_run_iff (primitives : Primitives) (cipher : VmessCipher)
    (encKey encIv decKey decIv : Octets 16) (expectedResponseHeader : Byte) (legacy : Bool)
    (incoming : Incoming) (outgoing : Outgoing) (calls : List Call) :
    ((new cipher encKey encIv decKey decIv expectedResponseHeader legacy incoming outgoing).run
        primitives calls).keyCounters.Nodup ↔
      (cipher.isKeyed = true →
        ((new cipher encKey encIv decKey decIv expectedResponseHeader legacy incoming
          outgoing).visits primitives calls).Pairwise fun earlier later =>
            ¬ Reuses earlier later) := by
  have fresh : Fresh (new cipher encKey encIv decKey decIv expectedResponseHeader legacy incoming
      outgoing) 0 := ⟨Nat.zero_le _, rfl, rfl, rfl⟩
  have same : ((new cipher encKey encIv decKey decIv expectedResponseHeader legacy incoming
      outgoing).run primitives calls).stream.cipher = cipher := cipher_run calls
  rw [keyCounters, same]
  by_cases keyed : cipher.isKeyed = true
  · rw [if_pos keyed, fresh.nodup_run_iff]
    exact ⟨fun pairwise _ => pairwise, fun pairwise => pairwise keyed⟩
  · rw [if_neg keyed]
    exact iff_of_true List.nodup_nil fun keyed' => absurd keyed' keyed

/-- A write breaks in its only chunk, and the shutdown behind it seals the end
with the same counter. -/
theorem nodup_keyCounters_run_shutdown :
    ¬ ((new .aes128Gcm (.filled 16 1) (.filled 16 2) (.filled 16 3) (.filled 16 4) 7 false ⟨[], []⟩
      { fates := [.fails 5 ⟨.timedOut, ""⟩] }).run .naming
        [.write [1], .shutdown .both]).keyCounters.Nodup := by
  have counters : ((new .aes128Gcm (.filled 16 1) (.filled 16 2) (.filled 16 3) (.filled 16 4) 7
      false ⟨[], []⟩ { fates := [.fails 5 ⟨.timedOut, ""⟩] }).run .naming
        [.write [1], .shutdown .both]).keyCounters = [0, 0] := by
    decide
  rw [counters]
  decide

end Uplink

end Corduit.Engine.Outbound.Vmess
