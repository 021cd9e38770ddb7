import SyntheticLog.Random.Choice

/-!
# Recipes for values

A `Recipe` says how a value is drawn, a `Value` is what comes of it. Recipes nest under `maybe`.
`drawAll` follows one recipe after the other on one source; a recipe that stops leaves the source
where it stopped, and the next one goes on from there.
-/

set_option autoImplicit false

namespace SyntheticLog.Random

inductive Recipe
  | coinFlip
  | intRange (type : IntType) (low high : Int)
  | oneOf (pool : List String)
  | maybe (inner : Recipe)
  deriving DecidableEq, Repr

inductive Value
  | flag (b : Bool)
  | int (x : Int)
  | text (s : String)
  /-- The coin of a `maybe` came up tails. -/
  | absent
  /-- The coin of a `maybe` came up heads. -/
  | present (v : Value)
  deriving DecidableEq, Repr

variable {σ : Type} [WordSource σ]

def Recipe.draw : Recipe → Draw σ Value
  | .coinFlip => do return .flag (← Random.coinFlip)
  | .intRange t low high => do return .int (← Random.intRange t low high)
  | .oneOf pool => do return .text (← Random.oneOf pool)
  | .maybe inner => do
    match ← Random.maybe inner.draw with
    | some v => return .present v
    | none => return .absent

/-- Follows the recipes in order, and gives each outcome and the source at the end. -/
def Recipe.drawAll : List Recipe → σ → List (Except Stop Value) × σ
  | [], s => ([], s)
  | r :: rs, s =>
    match r.draw s with
    | .ok v s' => let (vs, s'') := drawAll rs s'; (.ok v :: vs, s'')
    | .error e s' => let (vs, s'') := drawAll rs s'; (.error e :: vs, s'')

end SyntheticLog.Random
