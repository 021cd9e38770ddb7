import SyntheticLog.Random.Source

/-!
# Integer types of fixed width

* `Width`, `IntType`: the width of an integer type, and whether it has a sign.
* `IntType.least`, `IntType.greatest`: its bounds.
* `IntType.wrap`: the value of the type that an integer stands for, modulo the type's word.
-/

set_option autoImplicit false

namespace SyntheticLog.Random

inductive Width
  | w8
  | w16
  | w32
  | w64
  deriving DecidableEq, Repr

/-- The number of values of a width of `b` bits, two to the power `b`. -/
def Width.card : Width → Nat
  | .w8 => 256
  | .w16 => 65536
  | .w32 => 4294967296
  | .w64 => 18446744073709551616

/-- The size of the numbers that are drawn for a value; narrow types draw a whole word. -/
def Width.size : Width → Size
  | .w8 | .w16 | .w32 => .word32
  | .w64 => .word64

/-- An integer type of fixed width. -/
structure IntType where
  signed : Bool
  width : Width
  deriving DecidableEq, Repr

namespace IntType

def card (t : IntType) : Nat := t.width.card

def least (t : IntType) : Int := if t.signed then -(t.card / 2 : Nat) else 0

def greatest (t : IntType) : Int := if t.signed then (t.card / 2 - 1 : Nat) else (t.card - 1 : Nat)

/-- The value of the type that agrees with `x` modulo the number of values. -/
def wrap (t : IntType) (x : Int) : Int := if t.signed then x.bmod t.card else x % t.card

theorem card_pos (t : IntType) : 0 < t.card := by
  unfold card Width.card
  split <;> decide

end IntType

end SyntheticLog.Random
