/-!
# Decimal text

* `Decimal.ofNat`, `Decimal.ofInt`: the shortest decimal text of a number.
* `Decimal.hex`: the shortest hexadecimal text, in small letters.
-/

set_option autoImplicit false

namespace SyntheticLog.Decimal

/-- The character of a digit below sixteen. -/
def digit (d : Nat) : Char := if d < 10 then Char.ofNat (48 + d) else Char.ofNat (87 + d)

def ofNat (n : Nat) : List Char :=
  if n < 10 then [digit n] else ofNat (n / 10) ++ [digit (n % 10)]

/-- The decimal text of `x`, with a minus sign if it is negative. -/
def ofInt (x : Int) : List Char := if x < 0 then '-' :: ofNat x.natAbs else ofNat x.natAbs

def hex (n : Nat) : List Char :=
  if n < 16 then [digit n] else hex (n / 16) ++ [digit (n % 16)]

theorem ofNat_of_lt {n : Nat} (h : n < 10) : ofNat n = [digit n] := by rw [ofNat, if_pos h]

theorem ofNat_of_le {n : Nat} (h : 10 ≤ n) : ofNat n = ofNat (n / 10) ++ [digit (n % 10)] := by
  rw [ofNat, if_neg (Nat.not_lt.2 h)]

def text (n : Nat) : String := String.ofList (ofNat n)

end SyntheticLog.Decimal
