import Corduit.Word.Checked
import Corduit.Word.Octets

/-!
# Poly1305

The accumulator has five limbs of 26 bits, which are only partly carried from one
block to the next.  A sum, a product or a carry that does not fit into its type
ends the computation; the operators that are named `wrapping` in the source, and
shifts, drop what does not fit.
-/

namespace Corduit.Crypto

open Word Word.Checked

/-- A computation without errors. -/
abbrev Computed :=
  Except (Halt Empty)

/-- The lower 26 bits. -/
def MASK26 : Nat := 0x3ffffff

/-- A number in five limbs. -/
structure Limbs where
  h0 : Nat
  h1 : Nat
  h2 : Nat
  h3 : Nat
  h4 : Nat
deriving DecidableEq

namespace Limbs

/-- The number. -/
def value (h : Limbs) : Nat :=
  h.h0 + 2 ^ 26 * h.h1 + 2 ^ 52 * h.h2 + 2 ^ 78 * h.h3 + 2 ^ 104 * h.h4

/-- No limb is larger. -/
structure AtMost (bound : Nat) (h : Limbs) : Prop where
  h0 : h.h0 ≤ bound
  h1 : h.h1 ≤ bound
  h2 : h.h2 ≤ bound
  h3 : h.h3 ≤ bound
  h4 : h.h4 ≤ bound

/-- A sum of products with the limbs. -/
def row (h : Limbs) (a0 a1 a2 a3 a4 : Nat) : Nat :=
  h.h0 * a0 + h.h1 * a1 + h.h2 * a2 + h.h3 * a3 + h.h4 * a4

end Limbs

/-- `Poly1305`: of the buffer the bytes that are filled. -/
structure Poly1305 where
  r : Limbs
  h : Limbs
  pad : Vector Nat 4
  buffer : List Byte

namespace Poly1305

/-- `u32::from_le_bytes`. -/
def load (bytes : List Byte) (offset : Nat) : Nat :=
  ofLeBytes (slice bytes offset 4)

/-- `<<` of a `u32`. -/
def shl (value count : Nat) : Nat :=
  value * 2 ^ count % 2 ^ 32

/-- The limbs of a block. -/
def limbsOf (block : List Byte) (hibit : Nat) : Limbs :=
  let t0 := load block 0
  let t1 := load block 4
  let t2 := load block 8
  let t3 := load block 12
  { h0 := t0 &&& MASK26
    h1 := ((t0 >>> 26) ||| shl t1 6) &&& MASK26
    h2 := ((t1 >>> 20) ||| shl t2 12) &&& MASK26
    h3 := ((t2 >>> 14) ||| shl t3 18) &&& MASK26
    h4 := (t3 >>> 8) ||| hibit }

/-- The accumulator and the limbs of a block. -/
def add (h block : Limbs) : Computed Limbs := do
  let h0 ← fit 32 (h.h0 + block.h0)
  let h1 ← fit 32 (h.h1 + block.h1)
  let h2 ← fit 32 (h.h2 + block.h2)
  let h3 ← fit 32 (h.h3 + block.h3)
  let h4 ← fit 32 (h.h4 + block.h4)
  return ⟨h0, h1, h2, h3, h4⟩

/-- A limb and the carry behind it, which is a `u32`. -/
def carry (d : Nat) : Computed (Nat × Nat) := do
  let c ← fit 32 (d >>> 26)
  return (d &&& MASK26, c)

/-- The carries behind the products. -/
def reduce (d0 d1 d2 d3 d4 : Nat) : Computed Limbs := do
  let (h0, c) ← carry d0
  let d1 ← fit 64 (d1 + c)
  let (h1, c) ← carry d1
  let d2 ← fit 64 (d2 + c)
  let (h2, c) ← carry d2
  let d3 ← fit 64 (d3 + c)
  let (h3, c) ← carry d3
  let d4 ← fit 64 (d4 + c)
  let (h4, c) ← carry d4
  let h0 ← fit 64 (h0 + c * 5)
  let (h0, c) ← carry h0
  let h1 ← fit 64 (h1 + c)
  return ⟨h0 % 2 ^ 32, h1 % 2 ^ 32, h2 % 2 ^ 32, h3 % 2 ^ 32, h4 % 2 ^ 32⟩

/-- The product with `r`.  The parts of a sum are no larger than the sum. -/
def multiply (h r : Limbs) : Computed Limbs := do
  let s1 := r.h1 * 5 % 2 ^ 32
  let s2 := r.h2 * 5 % 2 ^ 32
  let s3 := r.h3 * 5 % 2 ^ 32
  let s4 := r.h4 * 5 % 2 ^ 32
  let d0 ← fit 64 (h.row r.h0 s4 s3 s2 s1)
  let d1 ← fit 64 (h.row r.h1 r.h0 s4 s3 s2)
  let d2 ← fit 64 (h.row r.h2 r.h1 r.h0 s4 s3)
  let d3 ← fit 64 (h.row r.h3 r.h2 r.h1 r.h0 s4)
  let d4 ← fit 64 (h.row r.h4 r.h3 r.h2 r.h1 r.h0)
  reduce d0 d1 d2 d3 d4

/-- The body of the loop of `blocks`. -/
def turn (r h : Limbs) (block : List Byte) (hibit : Nat) : Computed Limbs := do
  multiply (← add h (limbsOf block hibit)) r

/-- `Poly1305::blocks`, of whole blocks. -/
def blocks (r h : Limbs) (m : List Byte) (hibit : Nat) : Computed Limbs :=
  (List.range (m.length / 16)).foldlM (fun h i => turn r h (slice m (16 * i) 16) hibit) h

/-- The limbs of a key. -/
def new (key : Octets 32) : Poly1305 where
  r :=
    { h0 := load key.bytes 0 &&& 0x3ffffff
      h1 := (load key.bytes 3 >>> 2) &&& 0x3ffff03
      h2 := (load key.bytes 6 >>> 4) &&& 0x3ffc0ff
      h3 := (load key.bytes 9 >>> 6) &&& 0x3f03fff
      h4 := (load key.bytes 12 >>> 8) &&& 0x00fffff }
  h := ⟨0, 0, 0, 0, 0⟩
  pad := Vector.ofFn fun i => load key.bytes (16 + 4 * i)
  buffer := []

/-- The first part of `update`: a buffer that is begun is filled up, and what is
left of the message. -/
def fill (mac : Poly1305) (m : List Byte) : Computed (Poly1305 × List Byte) := do
  if mac.buffer.length > 0 then
    let want ← sub 16 mac.buffer.length
    let take := min want m.length
    let buffer := mac.buffer ++ m.take take
    if buffer.length = 16 then
      let h ← blocks mac.r mac.h buffer (1 <<< 24)
      return ({ mac with h := h, buffer := [] }, m.drop take)
    else
      return ({ mac with buffer := buffer }, m.drop take)
  else
    return (mac, m)

/-- Take in some data. -/
def update (mac : Poly1305) (m : List Byte) : Computed Poly1305 := do
  let (mac, m) ← fill mac m
  let full := m.length - m.length % 16
  let h ← if m.length ≥ 16 then blocks mac.r mac.h (m.take full) (1 <<< 24) else pure mac.h
  let m := if m.length ≥ 16 then m.drop full else m
  return { mac with h := h, buffer := if m.isEmpty then mac.buffer else m }

/-- The last carries of `finalize`. -/
def carryFully (h : Limbs) : Computed Limbs := do
  let h2 ← fit 32 (h.h2 + h.h1 >>> 26)
  let h3 ← fit 32 (h.h3 + h2 >>> 26)
  let h4 ← fit 32 (h.h4 + h3 >>> 26)
  let h0 ← fit 32 (h.h0 + (h4 >>> 26) * 5)
  let h1 ← fit 32 ((h.h1 &&& MASK26) + h0 >>> 26)
  return ⟨h0 &&& MASK26, h1, h2 &&& MASK26, h3 &&& MASK26, h4 &&& MASK26⟩

/-- `g` where the mask is all ones, and `h` where it is zero. -/
def select (mask h g : Nat) : Nat :=
  (h &&& (2 ^ 32 - 1 - mask)) ||| (g &&& mask)

/-- The number below the prime: `h - p`, unless it is negative. -/
def subtract (h : Limbs) : Limbs :=
  let g0 := (h.h0 + 5) % 2 ^ 32
  let g1 := (h.h1 + g0 >>> 26) % 2 ^ 32
  let g2 := (h.h2 + g1 >>> 26) % 2 ^ 32
  let g3 := (h.h3 + g2 >>> 26) % 2 ^ 32
  let g4 := (h.h4 + g3 >>> 26) % 2 ^ 32
  let mask := (2 ^ 32 - g4 >>> 26) % 2 ^ 32
  { h0 := select mask h.h0 (g0 &&& MASK26)
    h1 := select mask h.h1 (g1 &&& MASK26)
    h2 := select mask h.h2 (g2 &&& MASK26)
    h3 := select mask h.h3 (g3 &&& MASK26)
    h4 := select mask h.h4 (g4 &&& MASK26) }

/-- The four words of a number. -/
def words (h : Limbs) : Vector Nat 4 :=
  #v[h.h0 ||| shl h.h1 26, (h.h1 >>> 6) ||| shl h.h2 20, (h.h2 >>> 12) ||| shl h.h3 14,
    (h.h3 >>> 18) ||| shl h.h4 8]

/-- The sums with the pad, as bytes. -/
def addPad (w pad : Vector Nat 4) : List Byte :=
  let f0 := (w[0] + pad[0]) % 2 ^ 64
  let f1 := (w[1] + pad[1] + f0 >>> 32) % 2 ^ 64
  let f2 := (w[2] + pad[2] + f1 >>> 32) % 2 ^ 64
  let f3 := (w[3] + pad[3] + f2 >>> 32) % 2 ^ 64
  toLeBytes 4 (BitVec.ofNat 32 f0) ++ toLeBytes 4 (BitVec.ofNat 32 f1) ++
    toLeBytes 4 (BitVec.ofNat 32 f2) ++ toLeBytes 4 (BitVec.ofNat 32 f3)

/-- The first part of `finalize`: what is left in the buffer. -/
def finish (mac : Poly1305) : Computed Limbs :=
  if mac.buffer.length > 0 then
    blocks mac.r mac.h (mac.buffer ++ [1] ++ List.replicate (15 - mac.buffer.length) 0) 0
  else pure mac.h

/-- The limbs that `finalize` packs into words. -/
def reduced (mac : Poly1305) : Computed Limbs := do
  return subtract (← carryFully (← finish mac))

/-- The tag. -/
def finalize (mac : Poly1305) : Computed (List Byte) := do
  return addPad (words (← reduced mac)) mac.pad

/-- `new`, `update` with one part of the message after the other, and `finalize`. -/
def mac (key : Octets 32) (parts : List (List Byte)) : Computed (List Byte) := do
  finalize (← parts.foldlM update (new key))

end Poly1305

end Corduit.Crypto
