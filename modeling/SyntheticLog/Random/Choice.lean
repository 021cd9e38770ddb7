import SyntheticLog.Random.Range

/-!
# Picks and coins

* `oneOf`: a uniform pick from a pool.
* `coinFlip`: a fair coin.
* `maybe`: a value on heads, and on tails nothing, with no word spent on it.
-/

set_option autoImplicit false

namespace SyntheticLog.Random

variable {σ : Type} [WordSource σ]

def oneOf {α : Type} (pool : List α) : Draw σ α := do
  let i ← below pool.length
  match pool[i]? with
  | some x => return x
  | none => throw .emptyPool

/-- A fair coin: heads on the lower half of the 64-bit numbers. -/
def coinFlip : Draw σ Bool := do
  let v ← bits .word64
  return 2 * v < Size.word64.card

/-- The value of `draw` on heads. -/
def maybe {α : Type} (draw : Draw σ α) : Draw σ (Option α) := do
  if ← coinFlip then
    let x ← draw
    return some x
  else
    return none

end SyntheticLog.Random
