import Corduit.Crypto.Aead
import Corduit.Word.Octets

/-!
# MD5

The digest that keys are derived with.
-/

namespace Corduit.Crypto

open Word

namespace Md5

/-- The rotations. -/
def S : Vector Nat 64 := #v[
  7, 12, 17, 22, 7, 12, 17, 22, 7, 12, 17, 22, 7, 12, 17, 22,
  5, 9, 14, 20, 5, 9, 14, 20, 5, 9, 14, 20, 5, 9, 14, 20,
  4, 11, 16, 23, 4, 11, 16, 23, 4, 11, 16, 23, 4, 11, 16, 23,
  6, 10, 15, 21, 6, 10, 15, 21, 6, 10, 15, 21, 6, 10, 15, 21]

/-- The round constants. -/
def K : Vector (BitVec 32) 64 := #v[
  0xd76aa478, 0xe8c7b756, 0x242070db, 0xc1bdceee, 0xf57c0faf, 0x4787c62a, 0xa8304613, 0xfd469501,
  0x698098d8, 0x8b44f7af, 0xffff5bb1, 0x895cd7be, 0x6b901122, 0xfd987193, 0xa679438e, 0x49b40821,
  0xf61e2562, 0xc040b340, 0x265e5a51, 0xe9b6c7aa, 0xd62f105d, 0x02441453, 0xd8a1e681, 0xe7d3fbc8,
  0x21e1cde6, 0xc33707d6, 0xf4d50d87, 0x455a14ed, 0xa9e3e905, 0xfcefa3f8, 0x676f02d9, 0x8d2a4c8a,
  0xfffa3942, 0x8771f681, 0x6d9d6122, 0xfde5380c, 0xa4beea44, 0x4bdecfa9, 0xf6bb4b60, 0xbebfbc70,
  0x289b7ec6, 0xeaa127fa, 0xd4ef3085, 0x04881d05, 0xd9d4d039, 0xe6db99e5, 0x1fa27cf8, 0xc4ac5665,
  0xf4292244, 0x432aff97, 0xab9423a7, 0xfc93a039, 0x655b59c3, 0x8f0ccc92, 0xffeff47d, 0x85845dd1,
  0x6fa87e4f, 0xfe2ce6e0, 0xa3014314, 0x4e0811a1, 0xf7537e82, 0xbd3af235, 0x2ad7d2bb, 0xeb86d391]

/-- The order of the message words in every round. -/
def X : Vector (Fin 16) 64 := #v[
  0, 1, 2, 3, 4, 5, 6, 7, 8, 9, 10, 11, 12, 13, 14, 15,
  1, 6, 11, 0, 5, 10, 15, 4, 9, 14, 3, 8, 13, 2, 7, 12,
  5, 8, 11, 14, 1, 4, 7, 10, 13, 0, 3, 6, 9, 12, 15, 2,
  0, 7, 14, 5, 12, 3, 10, 1, 8, 15, 6, 13, 4, 11, 2, 9]

/-- The initial words. -/
def INIT : Vector (BitVec 32) 4 := #v[0x67452301, 0xefcdab89, 0x98badcfe, 0x10325476]

end Md5

/-- A hasher. -/
structure Md5 where
  state : Vector (BitVec 32) 4
  buf : List Byte
  bufLen : Nat
  totalLen : BitVec 64

namespace Md5

/-- The body of the loop of `compress`, on the words `a`, `b`, `c` and `d`. -/
def mixWord (m : Vector (BitVec 32) 16) (v : Vector (BitVec 32) 4) (i : Fin 64) :
    Vector (BitVec 32) 4 :=
  let (a, b, c, d) := (v.get 0, v.get 1, v.get 2, v.get 3)
  let f :=
    if i.val / 16 = 0 then (b &&& c) ||| (~~~ b &&& d)
    else if i.val / 16 = 1 then (d &&& b) ||| (~~~ d &&& c)
    else if i.val / 16 = 2 then b ^^^ c ^^^ d
    else c ^^^ (b ||| ~~~ d)
  let sum := a + f + K.get i + m.get (X.get i)
  #v[d, b + sum.rotateLeft (S.get i), b, c]

/-- One block. -/
def compress (hasher : Md5) (block : List Byte) : Md5 :=
  let m : Vector (BitVec 32) 16 := Vector.ofFn fun i =>
    BitVec.ofNat 32 (ofLeBytes (slice block (i * 4) 4))
  let v := (List.finRange 64).foldl (mixWord m) hasher.state
  { hasher with state := Vector.ofFn fun i => hasher.state.get i + v.get i }

/-- A new hasher. -/
def new : Md5 :=
  ⟨INIT, List.replicate 64 0, 0, 0⟩

/-- The loop of `update` over full blocks. -/
def compressWhole (hasher : Md5) : (turns : Nat) → (data : List Byte) → Md5 × List Byte
  | 0, data => (hasher, data)
  | turns + 1, data =>
      if data.length ≥ 64 then compressWhole (hasher.compress (data.take 64)) turns (data.drop 64)
      else (hasher, data)

/-- The first branch of `update`: the partial block is topped up. -/
def topUp (hasher : Md5) (data : List Byte) : Md5 × List Byte :=
  if hasher.bufLen ≠ 0 then
    let take := min (64 - hasher.bufLen) data.length
    let buf := writeAt hasher.buf hasher.bufLen (data.take take)
    let filled := { hasher with buf := buf, bufLen := hasher.bufLen + take }
    if filled.bufLen = 64 then ({ filled.compress buf with bufLen := 0 }, data.drop take)
    else (filled, data.drop take)
  else (hasher, data)

/-- Take in some data. -/
def update (hasher : Md5) (data : List Byte) : Md5 :=
  let counted := { hasher with totalLen := hasher.totalLen + BitVec.ofNat 64 data.length }
  let (hasher, data) := counted.topUp data
  let (hasher, data) := hasher.compressWhole data.length data
  if data.isEmpty then hasher
  else { hasher with buf := writeAt hasher.buf 0 data, bufLen := data.length }

/-- The bytes go into the buffer one by one. -/
def absorb (hasher : Md5) (block : List Byte) : Md5 :=
  block.foldl
    (fun hasher byte =>
      let buf := writeAt hasher.buf hasher.bufLen [byte]
      let filled := { hasher with buf := buf, bufLen := hasher.bufLen + 1 }
      if filled.bufLen = 64 then { filled.compress buf with bufLen := 0 } else filled)
    hasher

/-- The loop of `finalize_into`: zeros up to the length; a block is long enough. -/
def pad (hasher : Md5) : (turns : Nat) → Md5
  | 0 => hasher
  | turns + 1 => if hasher.bufLen ≠ 56 then pad (hasher.absorb [0x00]) turns else hasher

/-- The digest. -/
def finalize (hasher : Md5) : Vector Byte 16 :=
  let bitLen := hasher.totalLen * 8
  let padded := (hasher.absorb [0x80]).pad 64
  let last := padded.absorb (toLeBytes 8 bitLen)
  Vector.ofFn fun k => (last.state[k.val / 4] >>> (8 * (k.val % 4))).setWidth 8

example : (new.update (ascii "abc")).finalize.toList.take 4 = [0x90, 0x01, 0x50, 0x98] := by
  decide +kernel

end Md5

end Corduit.Crypto
