import SyntheticLog.Random.Source

/-!
# The keystream

The ChaCha stream cipher with twelve rounds, run as a source of words: a key of eight words, a
64-bit number of the block and a zero nonce are stirred into sixteen words per block.

* `Key`, `Key.ofBytes`, `Key.ofSeed`: keys, as they are or spread from a 64-bit seed.
* `KeyStream`: a key, the words at hand and the number of the next block. It ends behind the last
  block that a 64-bit number counts. There the counter of the cipher itself would wrap round to zero
  and its words would come again; a draw that gets as far ends with `Stop.outOfWords`, which stands
  for draws that do not end.
-/

set_option autoImplicit false

namespace SyntheticLog.Random

/-- Eight words that fix a keystream. -/
abbrev Key : Type := Vector UInt32 8

/-! ## Keys -/

/-- The number that four bytes stand for, the lowest first. -/
def littleEndian (b₀ b₁ b₂ b₃ : UInt8) : UInt32 :=
  b₀.toUInt32 ||| b₁.toUInt32 <<< 8 ||| b₂.toUInt32 <<< 16 ||| b₃.toUInt32 <<< 24

/-- The key of 32 bytes; bytes that are missing count as zero. -/
def Key.ofBytes (bytes : List UInt8) : Key :=
  let byte (i : Nat) : UInt8 := bytes.getD i 0
  Vector.ofFn fun i =>
    littleEndian (byte (4 * i)) (byte (4 * i + 1)) (byte (4 * i + 2)) (byte (4 * i + 3))

/-- One step of the linear congruence that spreads a seed. -/
def spread (state : UInt64) : UInt64 :=
  state * 6364136223846793005 + 11634580027462260723

/-- The word that a state of the spreading gives: its high bits folded, then turned right. -/
def folded (state : UInt64) : UInt32 :=
  let x : UInt32 := (((state >>> 18) ^^^ state) >>> 27).toUInt32
  let turn : UInt32 := (state >>> 59).toUInt32
  x >>> turn ||| x <<< ((32 - turn) % 32)

/-- The key spread from a seed: each word comes from the state after one more step. -/
def Key.ofSeed (seed : UInt64) : Key :=
  Vector.ofFn fun i => folded (Nat.repeat spread (i + 1) seed)

/-! ## Blocks -/

/-- The sixteen words that a block is stirred from and to. -/
abbrev Block : Type := Vector UInt32 16

def turnLeft (x n : UInt32) : UInt32 := x <<< n ||| x >>> (32 - n)

/-- Stirs four words of a block. -/
def Block.quarter (s : Block) (i j k l : Fin 16) : Block :=
  let a := s[i] + s[j]
  let d := turnLeft (s[l] ^^^ a) 16
  let c := s[k] + d
  let b := turnLeft (s[j] ^^^ c) 12
  let a := a + b
  let d := turnLeft (d ^^^ a) 8
  let c := c + d
  let b := turnLeft (b ^^^ c) 7
  (((s.set i a).set j b).set k c).set l d

/-- Two rounds: the columns, then the diagonals. -/
def Block.doubleRound (s : Block) : Block :=
  let s := s.quarter 0 4 8 12
  let s := s.quarter 1 5 9 13
  let s := s.quarter 2 6 10 14
  let s := s.quarter 3 7 11 15
  let s := s.quarter 0 5 10 15
  let s := s.quarter 1 6 11 12
  let s := s.quarter 2 7 8 13
  s.quarter 3 4 9 14

/-- What block number `number` starts from: four fixed words, the key, the number with its low word
first, and the nonce. -/
def Block.start (key : Key) (number : Nat) : Block :=
  #v[0x61707865, 0x3320646e, 0x79622d32, 0x6b206574,
    key[0], key[1], key[2], key[3], key[4], key[5], key[6], key[7],
    UInt32.ofNat number, UInt32.ofNat (number / 4294967296), 0, 0]

/-- Block number `number` of the keystream: twelve rounds, added to the start. -/
def Block.ofKey (key : Key) (number : Nat) : Block :=
  let start := Block.start key number
  Vector.zipWith (· + ·) (Nat.repeat Block.doubleRound 6 start) start

/-! ## The stream -/

/-- A keystream from some word on. -/
structure KeyStream where
  key : Key
  /-- The words of the current block that are still to come. -/
  ready : List UInt32
  /-- The number of the block after the current one. -/
  block : Nat

namespace KeyStream

/-- The number of blocks, which is the number of 64-bit numbers. -/
def blocks : Nat := 18446744073709551616

/-- The keystream of a key, from its first word on. -/
def ofKey (key : Key) : KeyStream := ⟨key, [], 0⟩

def ofSeed (seed : UInt64) : KeyStream := ofKey (Key.ofSeed seed)

/-- The next word, from the words at hand or from the next block. -/
def next? (s : KeyStream) : Option (UInt32 × KeyStream) :=
  match s.ready with
  | w :: ws => some (w, { s with ready := ws })
  | [] =>
    if s.block < blocks then
      match (Block.ofKey s.key s.block).toList with
      | w :: ws => some (w, { s with ready := ws, block := s.block + 1 })
      | [] => none
    else none

def left (s : KeyStream) : Nat := s.ready.length + 16 * (blocks - s.block)

theorem left_lt {s s' : KeyStream} {w : UInt32} (h : s.next? = some (w, s')) :
    s'.left < s.left := by
  unfold next? at h
  split at h
  · rename_i v vs hr
    cases h
    simp only [left, hr, List.length_cons]
    omega
  · rename_i hr
    split at h
    · rename_i hb
      split at h
      · rename_i v vs hv
        cases h
        have hlen : vs.length + 1 = 16 := by
          have := congrArg List.length hv
          simpa using this.symm
        simp only [left, hr, List.length_nil]
        omega
      · cases h
    · cases h

instance : WordSource KeyStream where
  next? := next?
  left := left
  left_lt := left_lt

end KeyStream

end SyntheticLog.Random
