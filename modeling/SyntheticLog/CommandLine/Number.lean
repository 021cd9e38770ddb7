import SyntheticLog.Config

/-!
# Numbers on the command line

A number is an optional plus sign and one or more decimal digits, of value below `limit`. The
digits are read from the left; the first that takes the value too high ends the reading, as does the
first character that is no digit.
-/

set_option autoImplicit false

namespace SyntheticLog.CommandLine

inductive NumberFault
  | empty
  | invalidDigit
  | overflow
  deriving DecidableEq, Repr

def NumberFault.message : NumberFault → String
  | .empty => "cannot parse integer from empty string"
  | .invalidDigit => "invalid digit found in string"
  | .overflow => "number too large to fit in target type"

namespace Number

/-- The least number that is too large, two to the power 64. -/
def limit : Nat := 18446744073709551616

def digit? (b : UInt8) : Option Nat :=
  if 48 ≤ b.toNat ∧ b.toNat ≤ 57 then some (b.toNat - 48) else none

/-- Reads digits behind those that gave `n`. -/
def readDigits (n : Nat) : Bytes → Except NumberFault Nat
  | [] => .ok n
  | b :: bs =>
    match digit? b with
    | none => .error .invalidDigit
    | some d => if limit ≤ 10 * n + d then .error .overflow else readDigits (10 * n + d) bs

def plus : UInt8 := 43

/-- The number of a text. A plus sign alone is read as a digit, and is none. -/
def read : Bytes → Except NumberFault Nat
  | [] => .error .empty
  | [b] => readDigits 0 [b]
  | b :: bs => if b = plus then readDigits 0 bs else readDigits 0 (b :: bs)

end Number

end SyntheticLog.CommandLine
