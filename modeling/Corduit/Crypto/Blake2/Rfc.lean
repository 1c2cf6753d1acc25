import Corduit.Collection.Segments
import Corduit.Crypto.Blake2.Core

/-!
# BLAKE2 and RFC 7693

The digest of RFC 7693 flags the last block of the data, whether it is full or
not.  The hasher compresses a block as soon as its buffer is full, so a message
that ends with a whole block, and a key alone that an empty update follows, come
out with one block too many.
-/

namespace Corduit.Crypto.Blake2

open Word Collection

section Rfc

variable {variant : Variant}

/-- A block that is filled up with zeros. -/
def rfcPadded (variant : Variant) (block : List Byte) : List Byte :=
  block ++ List.replicate (variant.blockBytes - block.length) 0

/-- The data: the padded key, when there is one, and the message. -/
def rfcData (variant : Variant) (key message : List Byte) : List Byte :=
  (if key = [] then [] else rfcPadded variant key) ++ message

/-- The state before the first block, with the parameters in it. -/
def rfcStart (variant : Variant) (digestLen keyLen : Nat) : Vector variant.Word 8 :=
  let parameters : variant.Word := (0x01010000 : variant.Word) ^^^
    (BitVec.ofNat variant.wordBits keyLen <<< 8) ^^^ BitVec.ofNat variant.wordBits digestLen
  variant.iv.put 0 (variant.iv.get 0 ^^^ parameters)

/-- The blocks in turn, each with the number of bytes up to its end.  The last one
carries the flag; no data at all is one block of zeros. -/
def rfcBlocks (f : Compression variant) (h : Vector variant.Word 8) (count : Nat) :
    (blocks : List (List Byte)) → Vector variant.Word 8
  | [] => f h (BitVec.ofNat _ count) (rfcPadded variant []) true
  | [last] => f h (BitVec.ofNat _ (count + last.length)) (rfcPadded variant last) true
  | block :: next :: rest =>
      rfcBlocks f (f h (BitVec.ofNat _ (count + block.length)) block false)
        (count + block.length) (next :: rest)

/-- The first bytes of a state. -/
def digestOf (digestLen : Nat) (h : Vector variant.Word 8) : List Byte :=
  (h.toList.flatMap (toLeBytes variant.wordBytes)).take digestLen

/-- The digest by the RFC. -/
def rfcDigest (f : Compression variant) (digestLen : Nat) (key message : List Byte) :
    List Byte :=
  let blocks := chunks variant.blockBytes (rfcData variant key message)
  digestOf digestLen (rfcBlocks f (rfcStart variant digestLen key.length) 0 blocks)

end Rfc

section Chain

variable {variant : Variant} {f : Compression variant} {h : Vector variant.Word 8}

/-- The state behind blocks none of which is the last. -/
def chain (f : Compression variant) (h : Vector variant.Word 8) (count : Nat) :
    (blocks : List (List Byte)) → Vector variant.Word 8
  | [] => h
  | block :: rest =>
      chain f (f h (BitVec.ofNat _ (count + block.length)) block false) (count + block.length)
        rest

theorem chain_concat (count : Nat) (blocks : List (List Byte)) (block : List Byte) :
    chain f h count (blocks ++ [block]) =
      f (chain f h count blocks)
        (BitVec.ofNat _ (count + blocks.flatten.length + block.length)) block false := by
  induction blocks generalizing h count with
  | nil => rfl
  | cons first blocks ih =>
      rw [List.cons_append, chain, ih, chain, List.flatten_cons, List.length_append,
        Nat.add_assoc count first.length]

theorem rfcBlocks_concat (count : Nat) (blocks : List (List Byte)) (last : List Byte) :
    rfcBlocks f h count (blocks ++ [last]) =
      f (chain f h count blocks) (BitVec.ofNat _ (count + blocks.flatten.length + last.length))
        (rfcPadded variant last) true := by
  induction blocks generalizing h count with
  | nil => rfl
  | cons first blocks ih =>
      rw [chain, List.flatten_cons, List.length_append, ← Nat.add_assoc count first.length, ← ih]
      cases blocks with
      | nil => rfl
      | cons second blocks => rfl

/-- A compression function that counts its calls. -/
def counting : Compression variant := fun h _ _ _ =>
  h.put 0 (h.get 0 + 1)

theorem counting_first (t : variant.Count) (block : List Byte) (isLast : Bool) :
    (counting h t block isLast).get 0 = h.get 0 + 1 :=
  Vector.get_put_self _ _ _

end Chain

section Digests

variable {variant : Variant} {digestLen : Nat}

theorem length_digestOf (h : Vector variant.Word 8) (fits : digestLen ≤ variant.maxDigest) :
    (digestOf digestLen h).length = digestLen := by
  have full : (h.toList.flatMap (toLeBytes variant.wordBytes)).length = variant.maxDigest := by
    rw [List.length_flatMap]
    simp only [length_toLeBytes, List.map_const', List.sum_replicate_nat, Vector.length_toList]
    cases variant <;> rfl
  rw [digestOf, List.length_take, full, Nat.min_eq_left fits]

theorem digestOf_first (h : Vector variant.Word 8) (positive : 0 < digestLen) :
    (digestOf digestLen h).head? = some ((h.get 0).setWidth 8) := by
  obtain ⟨less, digestLen_eq⟩ := Nat.exists_eq_succ_of_ne_zero (Nat.ne_of_gt positive)
  obtain ⟨width, width_eq⟩ := Nat.exists_eq_succ_of_ne_zero (Nat.ne_of_gt variant.wordBytes_pos)
  obtain ⟨words, words_eq⟩ : ∃ words, h.toList = h.get 0 :: words := by
    have length := h.length_toList
    cases list : h.toList with
    | nil =>
        rw [list] at length
        cases length
    | cons first words =>
        refine ⟨words, ?_⟩
        congr 1
        change first = h[0]
        rw [← Vector.getElem_toList (by rw [list]; exact Nat.succ_pos _)]
        simp only [list, List.getElem_cons_zero]
  obtain ⟨bytes, bytes_eq⟩ := toLeBytes_succ width (h.get 0)
  rw [digestOf, words_eq, List.flatMap_cons, width_eq, bytes_eq, digestLen_eq]
  rfl

theorem digestOf_ne {first second : Vector variant.Word 8} (positive : 0 < digestLen)
    (more : first.get 0 = second.get 0 + 1) : digestOf digestLen first ≠ digestOf digestLen second := by
  intro same
  have heads := congrArg List.head? same
  have wide : 8 ≤ variant.wordBits := Nat.le_mul_of_pos_right 8 variant.wordBytes_pos
  rw [digestOf_first first positive, digestOf_first second positive, more,
    BitVec.setWidth_add _ _ wide] at heads
  have bytes := Option.some.inj heads
  have zero : (1 : variant.Word).setWidth 8 = 0#8 := by
    rw [← BitVec.add_right_inj ((second.get 0).setWidth 8), bytes, BitVec.add_zero]
  cases variant <;> exact absurd zero (by decide)

end Digests

namespace Hasher

variable {variant : Variant} {f : Compression variant} {hasher : Hasher variant}
  {start : Vector variant.Word 8} {digestLen : Nat} {blocks : List (List Byte)}
  {data : List Byte}

/-- The data is the compressed blocks and what the buffer holds. -/
structure Absorbed (f : Compression variant) (start : Vector variant.Word 8) (digestLen : Nat)
    (hasher : Hasher variant) (blocks : List (List Byte)) (data : List Byte) : Prop where
  whole : ∀ block ∈ blocks, block.length = variant.blockBytes
  data_eq : data = blocks.flatten ++ hasher.buf.take hasher.bufLen
  state : hasher.h = chain f start 0 blocks
  count : hasher.t = BitVec.ofNat _ blocks.flatten.length
  length_buf : hasher.buf.length = variant.blockBytes
  fits : hasher.bufLen ≤ variant.blockBytes
  digestLen_eq : hasher.digestLen = digestLen

namespace Absorbed

section

variable (before : Absorbed f start digestLen hasher blocks data)

include before

theorem absorb {block : List Byte} (full : block.length = variant.blockBytes) :
    Absorbed f start digestLen { hasher.absorb f block with bufLen := 0 } (blocks ++ [block])
      (blocks.flatten ++ block) := by
  have count : hasher.t + BitVec.ofNat _ variant.blockBytes =
      BitVec.ofNat _ (blocks ++ [block]).flatten.length := by
    rw [before.count, List.flatten_concat, List.length_append, full, BitVec.ofNat_add]
  constructor
  · intro other member
    rcases List.mem_append.mp member with old | last
    · exact before.whole other old
    · rwa [List.mem_singleton.mp last]
  · rw [List.flatten_concat]
    exact (List.append_nil _).symm
  · rw [chain_concat, Nat.zero_add, ← before.state, full, BitVec.ofNat_add, ← before.count]
    rfl
  · exact count
  · exact before.length_buf
  · exact Nat.zero_le _
  · exact before.digestLen_eq

theorem buffer {more : List Byte} (room : hasher.bufLen + more.length ≤ variant.blockBytes) :
    Absorbed f start digestLen
      { hasher with
        buf := writeAt hasher.buf hasher.bufLen more
        bufLen := hasher.bufLen + more.length }
      blocks (data ++ more) := by
  have inside : hasher.bufLen ≤ hasher.buf.length := by
    rw [before.length_buf]
    exact before.fits
  constructor
  · exact before.whole
  · rw [take_writeAt inside, before.data_eq, List.append_assoc]
  · exact before.state
  · exact before.count
  · rw [length_writeAt (by rwa [before.length_buf])]
    exact before.length_buf
  · exact room
  · exact before.digestLen_eq

theorem absorbBuffer (full : hasher.bufLen = variant.blockBytes) :
    Absorbed f start digestLen { hasher.absorb f hasher.buf with bufLen := 0 }
      (blocks ++ [hasher.buf]) data := by
  have held : data = blocks.flatten ++ hasher.buf := by
    rw [before.data_eq, full, ← before.length_buf, List.take_length]
  rw [held]
  exact before.absorb before.length_buf

theorem fillBuffer (more : List Byte) :
    ∃ hasher' rest blocks' data', hasher.fillBuffer f more = (hasher', rest) ∧
      Absorbed f start digestLen hasher' blocks' data' ∧ data ++ more = data' ++ rest ∧
      hasher'.bufLen < variant.blockBytes ∧ (rest ≠ [] → hasher'.bufLen = 0) := by
  have positive := variant.blockBytes_pos
  have fits := before.fits
  by_cases empty : hasher.bufLen = 0
  · refine ⟨hasher, more, blocks, data, ?_, before, rfl, ?_, fun _ => empty⟩
    · rw [Hasher.fillBuffer, if_neg (not_not_intro empty)]
    · rwa [empty]
  · rw [Hasher.fillBuffer, if_pos empty]
    generalize taken_eq : min (variant.blockBytes - hasher.bufLen) more.length = taken
    have length : (more.take taken).length = taken := by
      rw [List.length_take]
      omega
    have room : hasher.bufLen + (more.take taken).length ≤ variant.blockBytes := by omega
    have filled := before.buffer room
    rw [length] at filled
    have split : data ++ more = data ++ more.take taken ++ more.drop taken := by
      rw [List.append_assoc, List.take_append_drop]
    by_cases full : hasher.bufLen + taken = variant.blockBytes
    · exact ⟨_, _, _, _, if_pos full, filled.absorbBuffer full, split, positive, fun _ => rfl⟩
    · refine ⟨_, _, _, _, if_neg full, filled, split, ?_, fun some => absurd ?_ some⟩
      · exact Nat.lt_of_le_of_ne filled.fits full
      · apply List.drop_eq_nil_of_le
        omega

theorem absorbWhole (empty : hasher.bufLen = 0) {turns : Nat} {more : List Byte}
    (enough : more.length ≤ turns) :
    ∃ hasher' rest blocks' data', hasher.absorbWhole f turns more = (hasher', rest) ∧
      Absorbed f start digestLen hasher' blocks' data' ∧ data ++ more = data' ++ rest ∧
      hasher'.bufLen = 0 ∧ rest.length < variant.blockBytes := by
  have positive := variant.blockBytes_pos
  have held : data = blocks.flatten := by
    rw [before.data_eq, empty]
    exact List.append_nil _
  induction turns generalizing hasher blocks data more with
  | zero =>
      refine ⟨hasher, more, blocks, data, rfl, before, rfl, empty, ?_⟩
      exact Nat.lt_of_le_of_lt enough positive
  | succ turns ih =>
      rw [Hasher.absorbWhole]
      by_cases whole : more.length ≥ variant.blockBytes
      · rw [if_pos whole]
        have length := List.length_take_of_le whole
        have shorter : (more.drop variant.blockBytes).length ≤ turns := by
          rw [List.length_drop]
          omega
        have absorbed := before.absorb length
        have same : { hasher.absorb f (more.take variant.blockBytes) with bufLen := 0 } =
            hasher.absorb f (more.take variant.blockBytes) := by
          rw [← empty]
          rfl
        rw [same] at absorbed
        rcases ih absorbed empty shorter (List.flatten_concat ..).symm with
          ⟨hasher', rest, blocks', data', run, after, split, empty', short⟩
        refine ⟨hasher', rest, blocks', data', run, after, ?_, empty', short⟩
        rw [← split, held, List.append_assoc, List.take_append_drop]
      · rw [if_neg whole]
        exact ⟨hasher, more, blocks, data, rfl, before, rfl, empty, Nat.lt_of_not_le whole⟩

theorem update (more : List Byte) :
    ∃ blocks', Absorbed f start digestLen (hasher.update f more) blocks' (data ++ more) ∧
      (hasher.update f more).bufLen < variant.blockBytes := by
  rcases before.fillBuffer more with ⟨filled, rest, blocks', data', run, after, split, short, none⟩
  rw [Hasher.update, run, split]
  by_cases last : rest = []
  · subst last
    have kept : filled.keepTail [] = filled := by
      rw [keepTail, writeAt]
      simp
    refine ⟨blocks', ?_⟩
    change Absorbed f start digestLen (filled.keepTail []) blocks' (data' ++ []) ∧
      (filled.keepTail []).bufLen < variant.blockBytes
    rw [kept, List.append_nil]
    exact ⟨after, short⟩
  · rcases after.absorbWhole (none last) (Nat.le_refl rest.length) with
      ⟨absorbed, tail, blocks', data', run, after, split, empty, short⟩
    have room : absorbed.bufLen + tail.length ≤ variant.blockBytes := by
      rw [empty, Nat.zero_add]
      exact Nat.le_of_lt short
    have kept : absorbed.keepTail tail =
        { absorbed with
          buf := writeAt absorbed.buf absorbed.bufLen tail
          bufLen := absorbed.bufLen + tail.length } := by
      rw [keepTail, empty, Nat.zero_add]
      cases tail <;> rfl
    refine ⟨blocks', ?_⟩
    simp only [run]
    rw [split, kept]
    exact ⟨after.buffer room, by rw [empty, Nat.zero_add]; exact short⟩

theorem updateAll (updates : List (List Byte)) :
    ∃ blocks', Absorbed f start digestLen (hasher.updateAll f updates) blocks'
        (data ++ updates.flatten) ∧
      (updates ≠ [] → (hasher.updateAll f updates).bufLen < variant.blockBytes) := by
  induction updates using List.reverseRecOn with
  | nil =>
      refine ⟨blocks, ?_, fun some => absurd rfl some⟩
      rw [List.flatten_nil, List.append_nil]
      exact before
  | append_singleton updates more ih =>
      rcases ih with ⟨blocks', after, _⟩
      rcases after.update more with ⟨blocks'', last, short⟩
      refine ⟨blocks'', ?_, fun _ => ?_⟩
      · rw [List.flatten_concat, ← List.append_assoc, Hasher.updateAll, List.foldl_concat]
        exact last
      · rw [Hasher.updateAll, List.foldl_concat]
        exact short

end

variable (absorbed : Absorbed f start digestLen hasher blocks data)

include absorbed

theorem length_data :
    data.length = blocks.flatten.length + hasher.bufLen := by
  have inside : hasher.bufLen ≤ hasher.buf.length := by
    rw [absorbed.length_buf]
    exact absorbed.fits
  rw [absorbed.data_eq, List.length_append, List.length_take_of_le inside]

/-- With less than a block in the buffer, it holds what is behind the whole blocks. -/
theorem bufLen_eq (short : hasher.bufLen < variant.blockBytes) :
    hasher.bufLen = data.length % variant.blockBytes := by
  have lengths : blocks.map List.length = List.replicate blocks.length variant.blockBytes := by
    rw [← List.map_const']
    exact List.map_congr_left absorbed.whole
  rw [absorbed.length_data, List.length_flatten, lengths, List.sum_replicate_nat,
    Nat.mul_add_mod_self_right, Nat.mod_eq_of_lt short]

/-- What `finalize` returns: the last call of the compression function gets what the
buffer holds, filled up with zeros. -/
theorem finalize_eq (fits : digestLen ≤ variant.maxDigest) :
    hasher.finalize f =
      digestOf digestLen (f (chain f start 0 blocks) (BitVec.ofNat _ data.length)
        (rfcPadded variant (hasher.buf.take hasher.bufLen)) true) ++
        List.replicate (variant.maxDigest - digestLen) 0 := by
  have count : hasher.t + BitVec.ofNat _ hasher.bufLen = BitVec.ofNat _ data.length := by
    rw [absorbed.count, absorbed.length_data, BitVec.ofNat_add]
  have inside : hasher.bufLen ≤ hasher.buf.length := by
    rw [absorbed.length_buf]
    exact absorbed.fits
  have block : (hasher.buf.take hasher.bufLen ++
      (hasher.buf.drop hasher.bufLen).map fun _ => (0 : Byte)) =
        rfcPadded variant (hasher.buf.take hasher.bufLen) := by
    rw [rfcPadded, List.map_const', List.length_drop, List.length_take_of_le inside,
      absorbed.length_buf]
  rw [finalize, finalizeInto, count, block, absorbed.state, absorbed.digestLen_eq, ← digestOf,
    writeAt, length_digestOf _ fits, List.take_zero, List.nil_append, Nat.zero_add,
    List.drop_replicate]

/-- With something in the buffer, and without any data, the digest is the one of
RFC 7693. -/
theorem finalize_eq_rfc (fits : digestLen ≤ variant.maxDigest)
    (held : hasher.bufLen ≠ 0 ∨ data = []) :
    hasher.finalize f =
      digestOf digestLen (rfcBlocks f start 0 (chunks variant.blockBytes data)) ++
        List.replicate (variant.maxDigest - digestLen) 0 := by
  have positive := variant.blockBytes_pos
  rw [absorbed.finalize_eq fits]
  congr 2
  by_cases none : data = []
  · have nothing := absorbed.length_data
    rw [none, List.length_nil] at nothing
    have empty : hasher.bufLen = 0 := by omega
    cases blocks with
    | nil =>
        rw [none, empty]
        rfl
    | cons block blocks =>
        have length := absorbed.whole block List.mem_cons_self
        rw [List.flatten_cons, List.length_append, length] at nothing
        omega
  · have some : hasher.buf.take hasher.bufLen ≠ [] := by
      rw [← List.length_pos_iff, List.length_take, absorbed.length_buf]
      exact Nat.lt_min.mpr ⟨Nat.pos_of_ne_zero (held.resolve_right none), positive⟩
    have short : (hasher.buf.take hasher.bufLen).length ≤ variant.blockBytes :=
      Nat.le_trans (List.length_take_le _ _) absorbed.fits
    rw [absorbed.data_eq, chunks_flatten_append positive _ absorbed.whole,
      chunks_of_short positive some short, rfcBlocks_concat, Nat.zero_add, List.length_append]

end Absorbed

theorem Absorbed.finalize_ne_rfc (absorbed : Absorbed counting start digestLen hasher blocks data)
    (positive : 0 < digestLen) (fits : digestLen ≤ variant.maxDigest) (empty : hasher.bufLen = 0)
    (some : data ≠ []) :
    hasher.finalize counting ≠
      digestOf digestLen (rfcBlocks counting start 0 (chunks variant.blockBytes data)) ++
        List.replicate (variant.maxDigest - digestLen) 0 := by
  intro same
  rw [absorbed.finalize_eq fits] at same
  have digests := List.append_cancel_right same
  refine digestOf_ne positive ?_ digests
  have held : data = blocks.flatten := by
    rw [absorbed.data_eq, empty]
    exact List.append_nil _
  have chunks_eq : chunks variant.blockBytes data = blocks := by
    have cut := chunks_flatten_append variant.blockBytes_pos [] absorbed.whole
    rwa [List.append_nil, chunks_nil, List.append_nil, ← held] at cut
  rw [chunks_eq]
  rcases List.eq_nil_or_concat blocks with rfl | ⟨front, last, rfl⟩
  · exact absurd held some
  · rw [List.concat_eq_append, counting_first, chain_concat, counting_first, rfcBlocks_concat,
      counting_first]

section Digest

variable {key : List Byte}

theorem withParams_eq_ok (accepted : withParams variant digestLen key = .ok hasher) :
    0 < digestLen ∧ digestLen ≤ variant.maxDigest ∧ key.length ≤ variant.maxKey ∧
      hasher = init variant digestLen key := by
  rw [withParams] at accepted
  by_cases refused : digestLen = 0 ∨ digestLen > variant.maxDigest ∨ key.length > variant.maxKey
  · rw [if_pos refused] at accepted
    cases accepted
  · rw [if_neg refused] at accepted
    refine ⟨?_, ?_, ?_, (Except.ok.inj accepted).symm⟩ <;> omega

theorem bufLen_init (keyed : key ≠ []) :
    (init variant digestLen key).bufLen = variant.blockBytes :=
  if_neg (by rwa [List.isEmpty_iff])

theorem absorbed_init (f : Compression variant) (short : key.length ≤ variant.maxKey) :
    Absorbed f (rfcStart variant digestLen key.length) digestLen (init variant digestLen key) []
      (rfcData variant key []) := by
  have room := Nat.le_trans short variant.maxKey_le
  have zeros : (List.replicate variant.blockBytes (0 : Byte)).length = variant.blockBytes :=
    List.length_replicate
  have padded : writeAt (List.replicate variant.blockBytes 0) 0 key = rfcPadded variant key := by
    rw [writeAt, rfcPadded, List.take_zero, List.nil_append, Nat.zero_add, List.drop_replicate]
  have length : (rfcPadded variant key).length = variant.blockBytes := by
    rw [← padded, length_writeAt (by rw [zeros, Nat.zero_add]; exact room), zeros]
  by_cases none : key = []
  · subst none
    exact ⟨fun block member => absurd member List.not_mem_nil, rfl, rfl, rfl, zeros,
      Nat.zero_le _, rfl⟩
  · have buf : (init variant digestLen key).buf = rfcPadded variant key := by
      rw [init, if_neg (by rwa [List.isEmpty_iff])]
      exact padded
    refine ⟨fun block member => absurd member List.not_mem_nil, ?_, rfl, rfl, ?_, ?_, rfl⟩
    · rw [buf, bufLen_init none, rfcData, if_neg none, List.append_nil, ← length,
        List.take_length]
      rfl
    · rw [buf, length]
    · rw [bufLen_init none]

theorem rfcData_append (key message : List Byte) :
    rfcData variant key [] ++ message = rfcData variant key message := by
  rw [rfcData, List.append_nil, rfcData]

theorem length_rfcData_mod (short : key.length ≤ variant.maxKey) (message : List Byte) :
    (rfcData variant key message).length % variant.blockBytes =
      message.length % variant.blockBytes := by
  have room := Nat.le_trans short variant.maxKey_le
  rw [rfcData]
  by_cases none : key = []
  · rw [if_pos none, List.nil_append]
  · rw [if_neg none, rfcPadded, List.length_append, List.length_append, List.length_replicate,
      Nat.add_sub_cancel' room, Nat.add_mod_left]

theorem rfcData_eq_nil_iff (key message : List Byte) :
    rfcData variant key message = [] ↔ key = [] ∧ message = [] := by
  rw [rfcData, List.append_eq_nil_iff]
  by_cases none : key = []
  · rw [if_pos none]
    exact and_congr_left fun _ => iff_of_true rfl none
  · rw [if_neg none, rfcPadded, List.append_eq_nil_iff]
    exact and_congr_left fun _ => ⟨fun both => both.1, fun empty => absurd empty none⟩

/-- `finalize` returns the digest of RFC 7693, whatever the compression function,
exactly when the message does not end with a whole block and no empty update
follows a key alone. -/
theorem finalize_eq_rfcDigest_iff {hasher : Hasher variant}
    (accepted : withParams variant digestLen key = .ok hasher) (updates : List (List Byte)) :
    (∀ f : Compression variant, (hasher.updateAll f updates).finalize f =
        rfcDigest f digestLen key updates.flatten ++
          List.replicate (variant.maxDigest - digestLen) 0) ↔
      (updates.flatten ≠ [] → updates.flatten.length % variant.blockBytes ≠ 0) ∧
        (updates.flatten = [] → key = [] ∨ updates = []) := by
  rcases withParams_eq_ok accepted with ⟨positive, fits, short, rfl⟩
  have absorbed := fun f : Compression variant =>
    (@absorbed_init variant digestLen key f short).updateAll updates
  simp only [rfcData_append] at absorbed
  constructor
  · intro equal
    rcases absorbed counting with ⟨blocks, after, filled⟩
    by_cases last : updates = []
    · rw [last]
      exact ⟨fun some => absurd rfl some, fun _ => Or.inr rfl⟩
    · have bufLen := after.bufLen_eq (filled last)
      rw [length_rfcData_mod short] at bufLen
      have exact' : updates.flatten.length % variant.blockBytes = 0 →
          key = [] ∧ updates.flatten = [] := by
        intro whole
        by_contra some
        rw [← @rfcData_eq_nil_iff variant] at some
        exact after.finalize_ne_rfc positive fits (bufLen.trans whole) some (equal counting)
      constructor
      · intro some whole
        exact some (exact' whole).2
      · intro empty
        refine Or.inl (exact' ?_).1
        rw [empty]
        exact Nat.zero_mod _
  · rintro ⟨partial', keyAlone⟩ f
    rcases absorbed f with ⟨blocks, after, filled⟩
    refine after.finalize_eq_rfc fits ?_
    by_cases last : updates = []
    · subst last
      change (init variant digestLen key).bufLen ≠ 0 ∨ rfcData variant key [] = []
      by_cases none : key = []
      · exact Or.inr (rfcData_eq_nil_iff key [] |>.mpr ⟨none, rfl⟩)
      · rw [bufLen_init none]
        exact Or.inl (Nat.ne_of_gt variant.blockBytes_pos)
    · rw [after.bufLen_eq (filled last), length_rfcData_mod short, rfcData_eq_nil_iff]
      by_cases empty : updates.flatten = []
      · exact Or.inr ⟨(keyAlone empty).resolve_right last, empty⟩
      · exact Or.inl (partial' empty)

/-- A key and a message in three calls. -/
theorem finalize_eq_rfcDigest_keyed :
    withParams .blake2s 16 [1, 2] = .ok (init .blake2s 16 [1, 2]) ∧
      ((init .blake2s 16 [1, 2]).updateAll compress [[3], [], [4, 5]]).finalize compress =
        rfcDigest (compress : Compression .blake2s) 16 [1, 2] [3, 4, 5] ++ List.replicate 16 0 :=
  ⟨rfl, (@finalize_eq_rfcDigest_iff .blake2s 16 [1, 2] _ rfl [[3], [], [4, 5]]).mpr
    ⟨by decide, by decide⟩ compress⟩

/-- A message of exactly one block. -/
theorem finalize_ne_rfcDigest_of_whole_block :
    withParams .blake2b 64 [] = .ok (init .blake2b 64 []) ∧
      ((init .blake2b 64 []).updateAll compress [List.replicate 128 0]).finalize compress ≠
        rfcDigest (compress : Compression .blake2b) 64 [] (List.replicate 128 0) :=
  ⟨rfl, by decide +kernel⟩

end Digest

end Hasher

end Corduit.Crypto.Blake2
