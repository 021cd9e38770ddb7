import SyntheticLog.Random.IntType

/-!
# Uniform integers

A number `v` of a size with `c` numbers falls on the place `v * n / c` among `n` places. The places
get unequal shares of the numbers, so a number counts only while the remainder of `v * n` is at most
a bound, the `zone`, which leaves every place the same share.

* `zone`, `place?`: the bound, and the place of a number that counts.
* `intRange`: a uniform integer between two bounds.
* `below`: a uniform index below a count.
-/

set_option autoImplicit false

namespace SyntheticLog.Random

/-- The greatest remainder that counts. Narrow types drop the fewest numbers that make the shares
equal; wide types keep the largest multiple of `count` by a power of two. -/
def zone (w : Width) (count : Nat) : Nat :=
  match w with
  | .w8 | .w16 => w.size.card - 1 - (w.size.card - count) % count
  | .w32 => count <<< (31 - count.log2) - 1
  | .w64 => count <<< (63 - count.log2) - 1

/-- The place of the number `v` among `count` places, if `v` counts. -/
def place? (w : Width) (count v : Nat) : Option Nat :=
  if v * count % w.size.card ≤ zone w count then some (v * count / w.size.card) else none

/-- The number of values from `low` to `high`, modulo the word: zero stands for the whole type. -/
def IntType.span (t : IntType) (low high : Int) : Nat := ((high - low + 1) % t.card).toNat

variable {σ : Type} [WordSource σ]

/-- A uniform value of `t` from `low` to `high`, both included. -/
def intRange (t : IntType) (low high : Int) : Draw σ Int :=
  if high < low then throw .emptyRange
  else if t.span low high = 0 then do
    let v ← bits t.width.size
    return t.wrap v
  else do
    let k ← firstPlaced t.width.size (place? t.width (t.span low high))
    return t.wrap (low + k)

def below (count : Nat) : Draw σ Nat :=
  if count = 0 then throw .emptyPool else firstPlaced .word64 (place? .w64 count)

end SyntheticLog.Random
