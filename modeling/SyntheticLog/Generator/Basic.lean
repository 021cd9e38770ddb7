import SyntheticLog.Random.Choice
import SyntheticLog.Random.KeyStream
import SyntheticLog.Record.Json

/-!
# Generators of records

A generator owns its source of words and counts the records that it has built.

* `Record.draw`: one record, its fields drawn in a fixed order.
* `Generator.build`: the next record.
* `Generator.text`: the lines of the next records, one after the other.
-/

set_option autoImplicit false

namespace SyntheticLog

open SyntheticLog.Random

def Record.offsetType : IntType := ⟨true, .w64⟩

def Record.countType : IntType := ⟨false, .w32⟩

/-- Draws the time, the event, then the message and the count, each on a coin of its own. -/
def Record.draw {σ : Type} [WordSource σ] : Draw σ Record := do
  let offset ← intRange offsetType 0 tsMaxOffset
  let event ← oneOf events
  let message ← maybe (oneOf messages)
  let count ← maybe (intRange countType 0 countMax)
  return ⟨⟨tsBase + offset, count.map Int.toNat⟩, ⟨event, message⟩⟩

/-- A source of words and the number of records built from it, which is meant to stay below
`2 ^ 64`. -/
structure Generator (σ : Type) where
  source : σ
  built : Nat

namespace Generator

def ofSource {σ : Type} (source : σ) : Generator σ := ⟨source, 0⟩

/-- The generator of a seed: the same seed gives the same records. -/
def ofSeed (seed : UInt64) : Generator KeyStream := ofSource (KeyStream.ofSeed seed)

/-- The generator of 32 bytes of entropy. -/
def ofEntropy (bytes : List UInt8) : Generator KeyStream :=
  ofSource (KeyStream.ofKey (Key.ofBytes bytes))

variable {σ : Type} [WordSource σ]

def build : Draw (Generator σ) Record := fun g =>
  match Record.draw g.source with
  | .ok r s => .ok r ⟨s, g.built + 1⟩
  | .error e s => .error e { g with source := s }

/-- Builds `n` records and gives the text of their lines behind `before`. -/
def appendLines : Nat → ByteArray → Draw (Generator σ) ByteArray
  | 0, before => pure before
  | n + 1, before => do
    let r ← build
    appendLines n (before ++ r.line.toUTF8)

def text (n : Nat) : Draw (Generator σ) ByteArray := appendLines n ByteArray.empty

end Generator

end SyntheticLog
