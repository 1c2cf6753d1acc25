import Corduit.Engine.Outbound.Ssr.Stream

/-!
# Places in the keystream

Calls of `apply` with buffers of any sizes take the bytes of the keystream one
after the other, a block for each value of the counter.  Whether the counter has
come to its end is asked once for each call, and one call makes any number of
blocks.  Nothing here looks into a block.
-/

namespace Corduit.Engine.Outbound.Ssr

open Crypto Transition Word

/-- What calls have taken and given, and for each call that failed the bytes given
before it and the length of its buffer. -/
structure Calls where
  taken : List Byte := []
  given : List Byte := []
  failed : List (Nat × Nat) := []

namespace Calls

/-- Byte after byte is combined with the blocks of consecutive counters below the
limit, and a call fails only when fewer bytes are left than it asks for. -/
structure Exact (blockAt : Nat → Vector Byte 64) (counter limit : Nat) (calls : Calls) :
    Prop where
  places : calls.given = calls.taken.mapIdx fun index byte =>
    byte ^^^ (blockAt (counter + index / 64)).get (Fin.ofNat 64 index)
  within : ∀ index < calls.given.length, counter + index / 64 < limit
  failed : ∀ call ∈ calls.failed, 64 * (limit - counter) < call.1 + call.2

variable (encryptBlock : BlockCipher)

/-- The next call. -/
def next (state : SsrCipher × Calls) (buf : List Byte) : SsrCipher × Calls :=
  match state.1.apply encryptBlock buf with
  | .ok (out, cipher) =>
      (cipher, { state.2 with taken := state.2.taken ++ buf, given := state.2.given ++ out })
  | .error _ =>
      (state.1,
        { state.2 with failed := state.2.failed ++ [(state.2.given.length, buf.length)] })

/-- The calls of a cipher. -/
def made (cipher : SsrCipher) (bufs : List (List Byte)) : Calls :=
  (run (next encryptBlock) (cipher, {}) bufs).2

/-- The lengths that a keystream of so many bytes can serve: before calls are
refused no more than there is, and then more than there is. -/
def Serves (refuses : Nat → Bool) (available : Nat) : (place : Nat) → List Nat → Prop
  | _, [] => True
  | place, length :: lengths =>
      (if refuses place then available < place + length else place + length ≤ available) ∧
        Serves refuses available (if refuses place then place else place + length) lengths

instance Serves.decidable (refuses : Nat → Bool) (available : Nat) :
    (place : Nat) → (lengths : List Nat) → Decidable (Serves refuses available place lengths)
  | _, [] => isTrue trivial
  | _, _ :: lengths => @instDecidableAnd _ _ inferInstance (Serves.decidable _ _ _ lengths)

theorem serves_iff_sum {available place : Nat} {lengths : List Nat} (inside : place ≤ available) :
    Serves (fun _ => false) available place lengths ↔ place + lengths.sum ≤ available := by
  induction lengths generalizing place with
  | nil => exact iff_of_true trivial inside
  | cons length lengths ih =>
      rw [Serves, if_neg Bool.false_ne_true, if_neg Bool.false_ne_true, List.sum_cons,
        ← Nat.add_assoc]
      constructor
      · rintro ⟨first, later⟩
        exact (ih first).mp later
      · intro all
        have first : place + length ≤ available := Nat.le_trans (Nat.le_add_right _ _) all
        exact ⟨first, (ih first).mpr all⟩

variable {encryptBlock}

theorem run_grows (state : SsrCipher × Calls) (bufs : List (List Byte)) :
    state.2.given.length ≤ (run (next encryptBlock) state bufs).2.given.length ∧
      state.2.failed ⊆ (run (next encryptBlock) state bufs).2.failed := by
  refine run_invariant (fun reached : SsrCipher × Calls =>
    state.2.given.length ≤ reached.2.given.length ∧ state.2.failed ⊆ reached.2.failed) ?_
    ⟨Nat.le_refl _, fun _ member => member⟩ bufs
  rintro reached buf ⟨given, failed⟩
  rw [next]
  split
  · refine ⟨?_, failed⟩
    rw [List.length_append]
    exact Nat.le_add_right_of_le given
  · exact ⟨given, fun _ member => List.mem_append_left _ (failed member)⟩

section Rows

variable {σ : Type} {nextBlock : σ → Vector Byte 64 × σ} {row : BlockRow nextBlock}
  {embed : Pending σ → SsrCipher} {refuses : Nat → Bool} {blockAt : Nat → Vector Byte 64}
  {counter limit : Nat} {calls : Calls} {buf : List Byte}

theorem Exact.fail (exact : calls.Exact blockAt counter limit) {place length : Nat}
    (short : 64 * (limit - counter) < place + length) :
    Exact blockAt counter limit { calls with failed := calls.failed ++ [(place, length)] } := by
  refine ⟨exact.places, exact.within, fun call member => ?_⟩
  rcases List.mem_append.mp member with before | now
  · exact exact.failed call before
  · rw [List.mem_singleton.mp now]
    exact short

theorem Exact.give (exact : calls.Exact blockAt counter limit)
    (taken : calls.taken.length = calls.given.length) {out : List Byte}
    (places : out = buf.mapIdx fun index byte =>
      byte ^^^ keystreamByte (fun index => blockAt (counter + index)) (calls.given.length + index))
    (fits : calls.given.length + buf.length ≤ 64 * (limit - counter)) :
    Exact blockAt counter limit
      { calls with taken := calls.taken ++ buf, given := calls.given ++ out } := by
  refine ⟨?_, ?_, exact.failed⟩
  · dsimp only
    rw [List.mapIdx_append, ← exact.places, taken, places]
    simp only [Nat.add_comm _ calls.given.length]
    rfl
  · intro index inside
    dsimp only at inside
    rw [List.length_append, places, List.length_mapIdx] at inside
    omega

variable (blocks : ∀ index, row.blocks index = blockAt (counter + index))
  (total : counter + row.count = limit)
  (apply_eq : ∀ place cipher, row.At place cipher → ∀ buf,
    (embed cipher).apply encryptBlock buf =
      if refuses place then .error SsrCipher.exhaustedText
      else .ok ((steps (xorStep (Pending.nextByte nextBlock)) cipher buf).map id embed))

include blocks total apply_eq

/-- From a place of the keystream on, calls are exact exactly when it serves their
lengths. -/
theorem exact_run_iff {cipher : Pending σ} (here : row.At calls.given.length cipher)
    (taken : calls.taken.length = calls.given.length) (exact : calls.Exact blockAt counter limit)
    (bufs : List (List Byte)) :
    (run (next encryptBlock) (embed cipher, calls) bufs).2.Exact blockAt counter limit ↔
      Serves refuses (64 * (limit - counter)) calls.given.length (bufs.map List.length) := by
  induction bufs generalizing cipher calls with
  | nil => exact iff_of_true exact trivial
  | cons buf bufs ih =>
      have applied := apply_eq _ _ here buf
      have grows := @run_grows encryptBlock (next encryptBlock (embed cipher, calls) buf) bufs
      rw [run_cons, List.map_cons, Serves]
      by_cases refused : refuses calls.given.length = true
      · rw [if_pos refused] at applied
        rw [if_pos refused, if_pos refused]
        rw [next, applied] at grows ⊢
        by_cases short : 64 * (limit - counter) < calls.given.length + buf.length
        · exact (@ih { calls with failed := calls.failed ++ [(_, buf.length)] } _ here taken
            (exact.fail short)).trans (and_iff_right short).symm
        · refine iff_of_false (fun after => short ?_) fun serves => short serves.1
          exact after.failed _ (grows.2 (List.mem_append_right _ List.mem_cons_self))
      · rw [if_neg refused] at applied
        rw [if_neg refused, if_neg refused]
        rw [next, applied] at grows ⊢
        have length := length_steps (xorStep (Pending.nextByte nextBlock)) cipher buf
        by_cases fits : calls.given.length + buf.length ≤ 64 * (limit - counter)
        · rcases BlockRow.steps_at here (by omega : calls.given.length + buf.length ≤
            64 * row.count) with ⟨outs, reached⟩
          rw [funext blocks] at outs
          rw [← length, ← List.length_append] at reached ⊢
          refine (@ih ⟨_, _, _⟩ _ reached ?_ (exact.give taken outs fits)).trans
            (and_iff_right ?_).symm
          · dsimp only
            rw [List.length_append, List.length_append, taken, length]
          · rw [List.length_append, length]
            exact fits
        · refine iff_of_false (fun after => ?_) fun serves => fits serves.1
          have far := after.within (64 * (limit - counter)) (Nat.lt_of_lt_of_le ?_ grows.1)
          · omega
          · dsimp only [Prod.map]
            rw [List.length_append, id, length]
            exact Nat.lt_of_not_le fits

end Rows

variable (encryptBlock : BlockCipher) (key nonce : List Byte)

theorem exact_chacha20Ietf_iff (counter : BitVec 32) (bufs : List (List Byte)) :
    (made encryptBlock (.chacha20Ietf (ChaCha20.new key nonce counter)) bufs).Exact
        (ChaCha20.blockAt key nonce) counter.toNat (2 ^ 32) ↔
      Serves (ChaCha20.lastBegun counter) (64 * (2 ^ 32 - counter.toNat)) 0
        (bufs.map List.length) := by
  have start : (ChaCha20.row key nonce counter).At 0 (ChaCha20.new key nonce counter) := by
    refine ⟨Nat.succ_pos 63, rfl, ?_, fun some => absurd some (Nat.lt_irrefl 0)⟩
    have states : (ChaCha20.row key nonce counter).states 0 =
        if 0 < 2 ^ 32 - counter.toNat then
          (ChaCha20.new key nonce (BitVec.ofNat 32 counter.toNat)).state
        else { (ChaCha20.new key nonce (BitVec.allOnes 32)).state with exhausted := true } := rfl
    exact (states.trans ((if_pos (Nat.sub_pos_of_lt counter.isLt)).trans
      (by rw [BitVec.ofNat_toNat, BitVec.setWidth_eq]))).symm
  refine @exact_run_iff _ _ _ (ChaCha20.row key nonce counter) .chacha20Ietf _
    (ChaCha20.blockAt key nonce) _ _ {}
    (fun _ => rfl) (Nat.add_sub_cancel' counter.isLt.le) ?_ _ start rfl ⟨rfl, ?_, ?_⟩ bufs
  · intro place cipher here buf
    rw [SsrCipher.apply, ChaCha20.isExhausted_at here, Pending.applyKeystream_eq]
  · intro index inside
    cases inside
  · intro call member
    cases member

theorem exact_chacha20_iff (counter : BitVec 64) (bufs : List (List Byte)) :
    (made encryptBlock (.chacha20 (ChaCha20Legacy.new key nonce counter)) bufs).Exact
        (ChaCha20Legacy.blockAt key nonce) counter.toNat (2 ^ 64) ↔
      (bufs.map List.length).sum ≤ 64 * (2 ^ 64 - counter.toNat) := by
  have start : (ChaCha20Legacy.row key nonce counter).At 0
      (ChaCha20Legacy.new key nonce counter) := by
    refine ⟨Nat.succ_pos 63, rfl, ?_, fun some => absurd some (Nat.lt_irrefl 0)⟩
    have states : (ChaCha20Legacy.row key nonce counter).states 0 =
        (ChaCha20Legacy.new key nonce (BitVec.ofNat 64 counter.toNat)).state := rfl
    exact (states.trans (by rw [BitVec.ofNat_toNat, BitVec.setWidth_eq])).symm
  have served := @serves_iff_sum (64 * (2 ^ 64 - counter.toNat)) 0 (bufs.map List.length)
    (Nat.zero_le _)
  rw [Nat.zero_add] at served
  refine Iff.trans ?_ served
  refine @exact_run_iff _ _ _ (ChaCha20Legacy.row key nonce counter) .chacha20 _
    (ChaCha20Legacy.blockAt key nonce) _ _ {}
    (fun _ => rfl) (Nat.add_sub_cancel' counter.isLt.le) ?_ _ start rfl ⟨rfl, ?_, ?_⟩ bufs
  · intro place cipher _ buf
    rw [SsrCipher.apply, Pending.applyKeystream_eq]
    rfl
  · intro index inside
    cases inside
  · intro call member
    cases member

end Calls

/-- Calls of a `chacha20-ietf` cipher are exact exactly when those that begin before
the last block ask for no more than the keystream has left, and those behind for
more; calls of a `chacha20` cipher when they fit into its 64-bit counter together. -/
theorem keystream_places_iff (encryptBlock : BlockCipher) (key nonce : List Byte)
    (bufs : List (List Byte)) :
    (∀ counter : BitVec 32,
      (Calls.made encryptBlock (.chacha20Ietf (ChaCha20.new key nonce counter)) bufs).Exact
          (ChaCha20.blockAt key nonce) counter.toNat (2 ^ 32) ↔
        Calls.Serves (ChaCha20.lastBegun counter) (64 * (2 ^ 32 - counter.toNat)) 0
          (bufs.map List.length)) ∧
    ∀ counter : BitVec 64,
      (Calls.made encryptBlock (.chacha20 (ChaCha20Legacy.new key nonce counter)) bufs).Exact
          (ChaCha20Legacy.blockAt key nonce) counter.toNat (2 ^ 64) ↔
        (bufs.map List.length).sum ≤ 64 * (2 ^ 64 - counter.toNat) :=
  ⟨fun counter => Calls.exact_chacha20Ietf_iff encryptBlock key nonce counter bufs,
    fun counter => Calls.exact_chacha20_iff encryptBlock key nonce counter bufs⟩

/-- A call that begins with the last block and is one byte longer. -/
theorem keystream_places_repeat :
    ¬(Calls.made (fun _ block => block)
      (.chacha20Ietf (ChaCha20.new (List.replicate 32 0) (List.replicate 12 0) 0))
      [List.replicate (2 ^ 38 - 64) 0, List.replicate 65 0]).Exact
        (ChaCha20.blockAt (List.replicate 32 0) (List.replicate 12 0))
        (0 : BitVec 32).toNat (2 ^ 32) := by
  rw [Calls.exact_chacha20Ietf_iff]
  simp only [List.map_cons, List.map_nil, List.length_replicate]
  decide

end Corduit.Engine.Outbound.Ssr
