/-!
# Numerals

* `Numeral.isDecimal`: whether a text is a number with or without a point.
-/

set_option autoImplicit false

namespace SyntheticLog.Numeral

/-- The text without a sign at its start. -/
def unsigned : List Char → List Char
  | c :: cs => if c = '+' || c = '-' then cs else c :: cs
  | [] => []

def isDigits (cs : List Char) : Bool := !cs.isEmpty && cs.all Char.isDigit

/-- An exponent: a letter, a sign if there is one, and digits. -/
def isExponent : List Char → Bool
  | c :: cs => (c = 'e' || c = 'E') && isDigits (unsigned cs)
  | [] => false

/-- Digits with or without a point, of which there is at least one, and an exponent if there is
one. -/
def isPlain (cs : List Char) : Bool :=
  let whole := cs.takeWhile Char.isDigit
  let rest := cs.dropWhile Char.isDigit
  let places := if rest.head? = some '.' then (rest.drop 1).takeWhile Char.isDigit else []
  let rest := if rest.head? = some '.' then (rest.drop 1).dropWhile Char.isDigit else rest
  isDigits (whole ++ places) && (rest.isEmpty || isExponent rest)

/-- The words for numbers without digits, in letters of any case. -/
def words : List String := ["inf", "infinity", "nan"]

/-- The text is a number, perhaps with a sign: digits or one of the words. -/
def isDecimal (cs : List Char) : Bool :=
  isPlain (unsigned cs) || words.contains (String.ofList ((unsigned cs).map Char.toLower))

end SyntheticLog.Numeral
