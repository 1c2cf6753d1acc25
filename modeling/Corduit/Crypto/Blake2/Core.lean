import Corduit.Crypto.Aead
import Corduit.Word.Octets

/-!
# BLAKE2

BLAKE2b and BLAKE2s are one algorithm over words of 64 and of 32 bits.  A hasher
compresses whole blocks and keeps what is left of its input in a buffer of one
block; the compression function is an argument of the operations that call it.
-/

namespace Corduit.Crypto.Blake2

open Word

/-- Message schedule shared by both variants. -/
def SIGMA : Vector (Vector (Fin 16) 16) 10 := #v[
  #v[0, 1, 2, 3, 4, 5, 6, 7, 8, 9, 10, 11, 12, 13, 14, 15],
  #v[14, 10, 4, 8, 9, 15, 13, 6, 1, 12, 0, 2, 11, 7, 5, 3],
  #v[11, 8, 12, 0, 5, 2, 15, 13, 10, 14, 3, 6, 7, 1, 9, 4],
  #v[7, 9, 3, 1, 13, 12, 11, 14, 2, 6, 5, 10, 4, 0, 15, 8],
  #v[9, 0, 5, 7, 2, 4, 10, 15, 14, 1, 11, 12, 6, 8, 3, 13],
  #v[2, 12, 6, 10, 0, 11, 8, 3, 4, 13, 7, 5, 15, 14, 1, 9],
  #v[12, 5, 1, 15, 14, 13, 4, 10, 0, 7, 6, 3, 9, 2, 8, 11],
  #v[13, 11, 7, 14, 12, 1, 3, 9, 5, 0, 15, 4, 8, 6, 2, 10],
  #v[6, 15, 14, 9, 11, 3, 0, 8, 12, 2, 13, 7, 1, 4, 10, 5],
  #v[10, 2, 8, 4, 7, 6, 1, 5, 15, 11, 9, 14, 3, 12, 13, 0]]

/-- The initial words of BLAKE2b. -/
def IV64 : Vector (BitVec 64) 8 := #v[
  0x6a09e667f3bcc908, 0xbb67ae8584caa73b, 0x3c6ef372fe94f82b, 0xa54ff53a5f1d36f1,
  0x510e527fade682d1, 0x9b05688c2b3e6c1f, 0x1f83d9abfb41bd6b, 0x5be0cd19137e2179]

/-- The initial words of BLAKE2s. -/
def IV32 : Vector (BitVec 32) 8 := #v[
  0x6a09e667, 0xbb67ae85, 0x3c6ef372, 0xa54ff53a,
  0x510e527f, 0x9b05688c, 0x1f83d9ab, 0x5be0cd19]

/-- The two hashers. -/
inductive Variant where
  | blake2b
  | blake2s
deriving DecidableEq

namespace Variant

/-- The bytes of a word. -/
def wordBytes : Variant → Nat
  | blake2b => 8
  | blake2s => 4

/-- `u64` or `u32`. -/
def wordBits (variant : Variant) : Nat :=
  8 * variant.wordBytes

/-- A word of the variant. -/
abbrev Word (variant : Variant) :=
  BitVec variant.wordBits

/-- The byte counter, of twice the width. -/
abbrev Count (variant : Variant) :=
  BitVec (2 * variant.wordBits)

/-- The bytes of a block. -/
def blockBytes : Variant → Nat
  | blake2b => 128
  | blake2s => 64

/-- The longest digest. -/
def maxDigest : Variant → Nat
  | blake2b => 64
  | blake2s => 32

/-- The longest key. -/
def maxKey : Variant → Nat
  | blake2b => 64
  | blake2s => 32

/-- The initial words. -/
def iv : (variant : Variant) → Vector variant.Word 8
  | blake2b => IV64
  | blake2s => IV32

/-- The rounds per block. -/
def rounds : Variant → Nat
  | blake2b => 12
  | blake2s => 10

/-- The four rotations of the mixing function. -/
def rotations : Variant → Vector Nat 4
  | blake2b => #v[32, 24, 16, 63]
  | blake2s => #v[16, 12, 8, 7]

variable (variant : Variant)

theorem blockBytes_pos : 0 < variant.blockBytes := by
  cases variant <;> decide

theorem maxKey_le : variant.maxKey ≤ variant.blockBytes := by
  cases variant <;> decide

theorem wordBytes_pos : 0 < variant.wordBytes := by
  cases variant <;> decide

end Variant

section Compression

variable {variant : Variant}

/-- `blake2b_g` and `blake2s_g`. -/
def g (v : Vector variant.Word 16) (a b c d : Fin 16) (x y : variant.Word) :
    Vector variant.Word 16 :=
  let v := v.put a (v.get a + v.get b + x)
  let v := v.put d ((v.get d ^^^ v.get a).rotateRight (variant.rotations.get 0))
  let v := v.put c (v.get c + v.get d)
  let v := v.put b ((v.get b ^^^ v.get c).rotateRight (variant.rotations.get 1))
  let v := v.put a (v.get a + v.get b + y)
  let v := v.put d ((v.get d ^^^ v.get a).rotateRight (variant.rotations.get 2))
  let v := v.put c (v.get c + v.get d)
  v.put b ((v.get b ^^^ v.get c).rotateRight (variant.rotations.get 3))

/-- The body of the loop of `compress`. -/
def mixRound (m : Vector variant.Word 16) (v : Vector variant.Word 16) (round : Nat) :
    Vector variant.Word 16 :=
  let s := SIGMA.get ⟨round % 10, Nat.mod_lt _ (by decide)⟩
  let v := g v 0 4 8 12 (m.get (s.get 0)) (m.get (s.get 1))
  let v := g v 1 5 9 13 (m.get (s.get 2)) (m.get (s.get 3))
  let v := g v 2 6 10 14 (m.get (s.get 4)) (m.get (s.get 5))
  let v := g v 3 7 11 15 (m.get (s.get 6)) (m.get (s.get 7))
  let v := g v 0 5 10 15 (m.get (s.get 8)) (m.get (s.get 9))
  let v := g v 1 6 11 12 (m.get (s.get 10)) (m.get (s.get 11))
  let v := g v 2 7 8 13 (m.get (s.get 12)) (m.get (s.get 13))
  g v 3 4 9 14 (m.get (s.get 14)) (m.get (s.get 15))

/-- What the hasher needs of its compression function: the new state, from the
state, the counter, a block and whether it is the last. -/
abbrev Compression (variant : Variant) :=
  (h : Vector variant.Word 8) → (t : variant.Count) → (block : List Byte) → (isLast : Bool) →
    Vector variant.Word 8

/-- The compression function. -/
def compress : Compression variant := fun h t block isLast =>
  let m : Vector variant.Word 16 := Vector.ofFn fun i =>
    BitVec.ofNat _ (ofLeBytes (slice block (i * variant.wordBytes) variant.wordBytes))
  let v : Vector variant.Word 16 := h ++ variant.iv
  let v := v.put 12 (v.get 12 ^^^ t.setWidth _)
  let v := v.put 13 (v.get 13 ^^^ (t >>> variant.wordBits).setWidth _)
  let v := if isLast then v.put 14 (~~~ v.get 14) else v
  let v := (List.range variant.rounds).foldl (mixRound m) v
  Vector.ofFn fun i => h.get i ^^^ (v[i.val] ^^^ v[i.val + 8])

end Compression

/-- `Blake2b` and `Blake2s`. -/
structure Hasher (variant : Variant) where
  h : Vector variant.Word 8
  t : variant.Count
  buf : List Byte
  bufLen : Nat
  digestLen : Nat

namespace Hasher

variable {variant : Variant}

/-- `init`: the key, when there is one, is buffered as a whole first block. -/
def init (variant : Variant) (digestLen : Nat) (key : List Byte) : Hasher variant :=
  let first : variant.Word := variant.iv.get 0 ^^^ ((0x01010000 : variant.Word) ^^^
    (BitVec.ofNat variant.wordBits key.length <<< 8) ^^^ BitVec.ofNat variant.wordBits digestLen)
  let zeros := List.replicate variant.blockBytes 0
  { h := variant.iv.put 0 first
    t := 0
    buf := if key.isEmpty then zeros else writeAt zeros 0 key
    bufLen := if key.isEmpty then 0 else variant.blockBytes
    digestLen := digestLen }

/-- A hasher for a digest length and a key. -/
def withParams (variant : Variant) (digestLen : Nat) (key : List Byte) :
    Except InvalidLength (Hasher variant) :=
  if digestLen = 0 ∨ digestLen > variant.maxDigest ∨ key.length > variant.maxKey then
    .error .invalidLength
  else .ok (init variant digestLen key)

variable (f : Compression variant)

/-- A block that is not the last is counted and compressed. -/
def absorb (hasher : Hasher variant) (block : List Byte) : Hasher variant :=
  let t := hasher.t + BitVec.ofNat _ variant.blockBytes
  { hasher with t := t, h := f hasher.h t block false }

/-- The first branch of `update`, with what it leaves of the data. -/
def fillBuffer (hasher : Hasher variant) (data : List Byte) : Hasher variant × List Byte :=
  if hasher.bufLen ≠ 0 then
    let take := min (variant.blockBytes - hasher.bufLen) data.length
    let buf := writeAt hasher.buf hasher.bufLen (data.take take)
    let filled := { hasher with buf := buf, bufLen := hasher.bufLen + take }
    if filled.bufLen = variant.blockBytes then
      ({ filled.absorb f buf with bufLen := 0 }, data.drop take)
    else (filled, data.drop take)
  else (hasher, data)

/-- The loop of `update`; as many turns as there are bytes are enough. -/
def absorbWhole (hasher : Hasher variant) : (turns : Nat) → (data : List Byte) →
    Hasher variant × List Byte
  | 0, data => (hasher, data)
  | turns + 1, data =>
      if data.length ≥ variant.blockBytes then
        absorbWhole (hasher.absorb f (data.take variant.blockBytes)) turns
          (data.drop variant.blockBytes)
      else (hasher, data)

/-- The end of `update`. -/
def keepTail (hasher : Hasher variant) (data : List Byte) : Hasher variant :=
  { hasher with
    buf := writeAt hasher.buf 0 data
    bufLen := if data.isEmpty then hasher.bufLen else data.length }

/-- Take in some data. -/
def update (hasher : Hasher variant) (data : List Byte) : Hasher variant :=
  let (hasher, data) := hasher.fillBuffer f data
  let (hasher, data) := hasher.absorbWhole f data.length data
  hasher.keepTail data

/-- Calls of `update`, one after another. -/
def updateAll (hasher : Hasher variant) (updates : List (List Byte)) : Hasher variant :=
  updates.foldl (update f) hasher

/-- `finalize_into`, into an array that has room for the digest. -/
def finalizeInto (hasher : Hasher variant) (out : List Byte) : List Byte :=
  let t := hasher.t + BitVec.ofNat _ hasher.bufLen
  let block := hasher.buf.take hasher.bufLen ++ (hasher.buf.drop hasher.bufLen).map fun _ => 0
  let h := f hasher.h t block true
  let full := h.toList.flatMap (toLeBytes variant.wordBytes)
  writeAt out 0 (full.take hasher.digestLen)

/-- The digest. -/
def finalize (hasher : Hasher variant) : List Byte :=
  hasher.finalizeInto f (List.replicate variant.maxDigest 0)

example : (((init .blake2s 32 []).update compress (ascii "abc")).finalize compress).take 4 =
    [0x50, 0x8c, 0x5e, 0x8c] := by
  decide +kernel

end Hasher

end Corduit.Crypto.Blake2
