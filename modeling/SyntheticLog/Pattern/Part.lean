import SyntheticLog.Text.CharClass

/-!
# Parts of patterns

A pattern describes texts; it is read character by character, in modes that it may change on the
way. Its smallest parts are characters, classes of characters, and conditions on a position.

* `Modes.skip`: the pattern behind white space, if that means nothing.
* `readEscape`: the part that a backslash begins.
* `Part.isSupported`, `Part.isListable`: whether a part may stand in a pattern, and in a set.
-/

set_option autoImplicit false

namespace SyntheticLog.Pattern

/-! ## Modes -/

/-- The modes in which a pattern is read. -/
structure Modes where
  /-- A letter stands for both its cases. -/
  ignoreCase : Bool
  /-- The pattern is about characters; otherwise it is about bytes. -/
  unicode : Bool
  /-- White space and comments mean nothing. -/
  spaced : Bool
  deriving DecidableEq, Repr

namespace Modes

def standard : Modes := ⟨false, true, false⟩

/-- The pattern behind white space and comments. A comment begins with a number sign and ends with
the line; `comment` says whether one has begun. -/
def skipBlank (comment : Bool) : List Char → List Char
  | [] => []
  | c :: cs =>
    if comment then skipBlank (c ≠ '\n') cs
    else if CharClass.isBlank c then skipBlank false cs
    else if c = '#' then skipBlank true cs
    else c :: cs

/-- The pattern behind all that means nothing. -/
def skip (m : Modes) (cs : List Char) : List Char := if m.spaced then skipBlank false cs else cs

/-- The next character that counts. Of a comment, which is not expected here, only the sign that
begins it is passed over. -/
def peek? (m : Modes) (cs : List Char) : Option Char :=
  if m.spaced then
    match CharClass.trimStart cs with
    | '#' :: rest => (CharClass.trimStart rest).head?.or cs.head?
    | rest => rest.head?.or cs.head?
  else cs.head?

end Modes

/-! ## Parts -/

/-- The smallest parts of patterns. -/
inductive Part
  /-- One character, perhaps written as the number of a byte. -/
  | literal (c : Char) (asByte : Bool)
  /-- The digits, the white space or the characters of words; negated, all others. -/
  | shorthand (negated : Bool)
  | anything
  /-- A start or an end. -/
  | anchor
  /-- A place where a word begins or ends, or one where none does. -/
  | boundary
  deriving DecidableEq, Repr

namespace Part

def isAscii (c : Char) : Bool := c.toNat < 128

/-- The part may stand in a pattern. Of characters the two cases are not known, and no classes;
where a pattern is about bytes, only the letters of ASCII have cases, and what it describes has to
be text all the same. -/
def isSupported (m : Modes) : Part → Bool
  | literal c asByte => if m.unicode then !m.ignoreCase else isAscii c || !asByte
  | shorthand negated => !m.unicode && !negated
  | anything => m.unicode
  | anchor | boundary => true

def isListable (m : Modes) : Part → Bool
  | literal c _ => if m.unicode then !m.ignoreCase else isAscii c
  | shorthand negated => !m.unicode && !negated
  | anything | anchor | boundary => false

end Part

/-! ## Escapes -/

def hexDigit? (c : Char) : Option Nat :=
  if '0' ≤ c ∧ c ≤ '9' then some (c.toNat - 48)
  else if 'a' ≤ c ∧ c ≤ 'f' then some (c.toNat - 87)
  else if 'A' ≤ c ∧ c ≤ 'F' then some (c.toNat - 55)
  else none

/-- Reads `n` hexadecimal digits behind those that gave `v`. -/
def readHex (m : Modes) (v : Nat) : Nat → List Char → Option (Nat × List Char)
  | 0, cs => some (v, cs)
  | n + 1, cs =>
    match m.skip cs with
    | [] => none
    | c :: cs => (hexDigit? c).bind fun d => readHex m (16 * v + d) n cs

/-- Reads the character whose code has `n` hexadecimal digits. -/
def readCode (m : Modes) (n : Nat) (asByte : Bool) (cs : List Char) : Option (Part × List Char) :=
  (readHex m 0 n cs).bind fun (v, cs) =>
    if v.isValidChar then some (.literal (Char.ofNat v) asByte, cs) else none

/-- The parts that letters and angle brackets stand for behind a backslash. -/
def escapes : List (Char × Part) :=
  [('a', .literal '\x07' false), ('t', .literal '\t' false), ('n', .literal '\n' false),
   ('v', .literal '\x0b' false), ('f', .literal '\x0c' false), ('r', .literal '\r' false),
   ('d', .shorthand false), ('s', .shorthand false), ('w', .shorthand false),
   ('D', .shorthand true), ('S', .shorthand true), ('W', .shorthand true),
   ('A', .anchor), ('z', .anchor),
   ('b', .boundary), ('B', .boundary), ('<', .boundary), ('>', .boundary)]

/-- The character stands for itself behind a backslash. -/
def isEscapable (c : Char) : Bool := Part.isAscii c && !c.isAlphanum && c ≠ '<' && c ≠ '>'

def readEscape (m : Modes) : List Char → Option (Part × List Char)
  | [] => none
  | c :: cs =>
    if c = 'x' then readCode m 2 true cs
    else if c = 'u' then readCode m 4 false cs
    else if c = 'U' then readCode m 8 false cs
    else if isEscapable c then some (.literal c false, cs)
    else (escapes.lookup c).map fun part => (part, cs)

end SyntheticLog.Pattern
