import SyntheticLog.Record.Basic
import SyntheticLog.Text.Decimal

/-!
# Records for the developer

The display of a record names its groups, fields and values, with texts in quotes. Control
characters are escaped; the display is meant for texts of ASCII characters, and keeps every other
character as it is.

* `Record.display`: on one line.
* `Record.displayTall`: each field, and each value of a field that may be missing, on a line of its
  own, indented by four blanks per level.
-/

set_option autoImplicit false

namespace SyntheticLog.Record

/-- The display of a character between quotes. -/
def displayChar (c : Char) : List Char :=
  match c with
  | '"' => ['\\', '"']
  | '\\' => ['\\', '\\']
  | '\n' => ['\\', 'n']
  | '\r' => ['\\', 'r']
  | '\t' => ['\\', 't']
  | '\x00' => ['\\', '0']
  | c =>
    if c.toNat < 32 ∨ c.toNat = 127 then
      '\\' :: 'u' :: '\x7b' :: Decimal.hex c.toNat ++ ['\x7d']
    else [c]

def displayText (s : String) : List Char := '"' :: s.toList.flatMap displayChar ++ ['"']

/-! ## On one line -/

/-- A value that may be missing. -/
def displayOption {α : Type} (render : α → List Char) : Option α → List Char
  | none => "None".toList
  | some x => "Some(".toList ++ render x ++ [')']

def displayPair (name first second : String) (a b : List Char) : List Char :=
  name.toList ++ " \x7b ".toList ++ first.toList ++ ": ".toList ++ a ++ ", ".toList ++
    second.toList ++ ": ".toList ++ b ++ " \x7d".toList

def display (r : Record) : List Char :=
  displayPair "LogRecord" "int" "str"
    (displayPair "IntFields" "ts" "count" (Decimal.ofInt r.numbers.ts)
      (displayOption Decimal.ofNat r.numbers.count))
    (displayPair "StrFields" "event" "message" (displayText r.texts.event)
      (displayOption displayText r.texts.message))

/-! ## On many lines -/

/-- The line break in front of text at some level. -/
def lineBreak (level : Nat) : List Char := '\n' :: List.replicate (4 * level) ' '

/-- A value that may be missing, in a field at `level`. -/
def displayOptionTall {α : Type} (level : Nat) (render : α → List Char) : Option α → List Char
  | none => "None".toList
  | some x =>
    "Some(".toList ++ lineBreak (level + 1) ++ render x ++ [','] ++ lineBreak level ++ [')']

/-- A group with two fields at `level`. -/
def displayPairTall (level : Nat) (name first second : String) (a b : List Char) : List Char :=
  name.toList ++ " \x7b".toList ++ lineBreak level ++ first.toList ++ ": ".toList ++ a ++
    [','] ++ lineBreak level ++ second.toList ++ ": ".toList ++ b ++ [','] ++
    lineBreak (level - 1) ++ ['\x7d']

def displayTall (r : Record) : List Char :=
  displayPairTall 1 "LogRecord" "int" "str"
    (displayPairTall 2 "IntFields" "ts" "count" (Decimal.ofInt r.numbers.ts)
      (displayOptionTall 2 Decimal.ofNat r.numbers.count))
    (displayPairTall 2 "StrFields" "event" "message" (displayText r.texts.event)
      (displayOptionTall 2 displayText r.texts.message))

end SyntheticLog.Record
