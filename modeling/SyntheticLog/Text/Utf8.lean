/-!
# UTF-8

Byte strings may hold any bytes. `Utf8.decode` reads them as UTF-8: each well-formed sequence gives
its character, and each longest run of bytes that begins a sequence but does not finish it gives one
gap.

* `Utf8.isValid`: there is no gap.
* `Utf8.lossy`: the text with the replacement character in each gap.
-/

set_option autoImplicit false

namespace SyntheticLog.Utf8

def continues (b : UInt8) : Bool := 0x80 ≤ b && b ≤ 0xBF

/-- The byte may be second behind the first byte of a sequence of three: no longer form than needed,
and no surrogate. -/
def secondOfThree (a b : UInt8) : Bool :=
  if a = 0xE0 then 0xA0 ≤ b && b ≤ 0xBF
  else if a = 0xED then 0x80 ≤ b && b ≤ 0x9F
  else continues b

/-- The byte may be second behind the first byte of a sequence of four: no longer form than needed,
and nothing beyond the last plane. -/
def secondOfFour (a b : UInt8) : Bool :=
  if a = 0xF0 then 0x90 ≤ b && b ≤ 0xBF
  else if a = 0xF4 then 0x80 ≤ b && b ≤ 0x8F
  else continues b

/-- The tests on the bytes behind the first byte of a sequence, if the byte begins one. -/
def tests (a : UInt8) : Option (List (UInt8 → Bool)) :=
  if a < 0x80 then some []
  else if 0xC2 ≤ a && a ≤ 0xDF then some [continues]
  else if 0xE0 ≤ a && a ≤ 0xEF then some [secondOfThree a, continues]
  else if 0xF0 ≤ a && a ≤ 0xF4 then some [secondOfFour a, continues, continues]
  else none

/-- How many of the bytes pass the tests, each its own, up to the first that fails. -/
def passing : List (UInt8 → Bool) → List UInt8 → Nat
  | p :: ps, b :: bs => if p b then passing ps bs + 1 else 0
  | _, _ => 0

/-- The character of a sequence: six bits of each byte behind the first, and of that one the bits
that its length leaves free. -/
def character (a : UInt8) (rest : List UInt8) : Char :=
  let first := if rest.isEmpty then a.toNat else a.toNat % (64 >>> rest.length)
  Char.ofNat (rest.foldl (fun v b => 64 * v + b.toNat % 64) first)

/-- What the first byte begins, a character or a gap, and how many of the bytes behind it belong
to it. -/
def front (a : UInt8) (rest : List UInt8) : Option Char × Nat :=
  match tests a with
  | none => (none, 0)
  | some ps =>
    let n := passing ps rest
    (if n = ps.length then some (character a (rest.take n)) else none, n)

/-- The characters of a byte string, and the gaps between them. -/
def decode : List UInt8 → List (Option Char)
  | [] => []
  | a :: rest => (front a rest).1 :: decode (rest.drop (front a rest).2)
termination_by bytes => bytes.length

def isValid (bytes : List UInt8) : Bool := (decode bytes).all Option.isSome

/-- The text of the bytes, with the replacement character in each gap. -/
def lossy (bytes : List UInt8) : List Char := (decode bytes).map (·.getD '\uFFFD')

def encode (s : String) : List UInt8 := s.toUTF8.data.toList

end SyntheticLog.Utf8
