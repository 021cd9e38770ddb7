import SyntheticLog.Text.Decimal

/-!
# Reading JSON

A reader of the whole JSON grammar, written over the characters still to be read.

* `Json.Value`: what a text stands for. Integers have a value; a number with a fraction or an
  exponent keeps its text. An object keeps its members in order.
* `Json.Value.read?`: the value of a text that is one JSON value with blanks around it.
-/

set_option autoImplicit false

namespace SyntheticLog.Json

inductive Value
  | null
  | bool (b : Bool)
  | int (x : Int)
  | number (text : List Char)
  | string (s : List Char)
  | array (items : List Value)
  | object (members : List (List Char × Value))

/-- A reader takes a part of the text and leaves the rest. -/
abbrev Reader (α : Type) : Type := List Char → Option (α × List Char)

/-! ## Leaves -/

def dropBlanks (cs : List Char) : List Char :=
  cs.dropWhile fun c => c = ' ' || c = '\t' || c = '\n' || c = '\r'

/-- Passes over one word of the grammar. -/
def literal : List Char → List Char → Option (List Char)
  | [], cs => some cs
  | w :: ws, c :: cs => if w = c then literal ws cs else none
  | _ :: _, [] => none

def digitValue? (c : Char) : Option Nat :=
  if '0' ≤ c ∧ c ≤ '9' then some (c.toNat - 48) else none

def hexValue? (c : Char) : Option Nat :=
  if '0' ≤ c ∧ c ≤ '9' then some (c.toNat - 48)
  else if 'a' ≤ c ∧ c ≤ 'f' then some (c.toNat - 87)
  else if 'A' ≤ c ∧ c ≤ 'F' then some (c.toNat - 55)
  else none

/-- The digits at the front, and the rest. -/
def digits (cs : List Char) : List Char × List Char := cs.span fun c => (digitValue? c).isSome

def decimalValue (ds : List Char) : Nat :=
  ds.foldl (fun n c => 10 * n + (c.toNat - 48)) 0

/-! ## Numbers -/

def fraction : Reader (List Char)
  | '.' :: cs =>
    match digits cs with
    | ([], _) => none
    | (ds, rest) => some ('.' :: ds, rest)
  | cs => some ([], cs)

def exponentSign : List Char → List Char × List Char
  | '+' :: cs => (['+'], cs)
  | '-' :: cs => (['-'], cs)
  | cs => ([], cs)

def exponent : Reader (List Char)
  | c :: cs =>
    if c = 'e' || c = 'E' then
      match digits (exponentSign cs).2 with
      | ([], _) => none
      | (ds, rest) => some (c :: (exponentSign cs).1 ++ ds, rest)
    else some ([], c :: cs)
  | [] => some ([], [])

/-- A number without its sign; a zero at the front stands alone. -/
def unsigned (negative : Bool) (cs : List Char) : Option (Value × List Char) :=
  match digits cs with
  | ([], _) => none
  | ('0' :: _ :: _, _) => none
  | (ds, rest) => do
    let (f, rest) ← fraction rest
    let (e, rest) ← exponent rest
    let sign := if negative then ['-'] else []
    if f.isEmpty && e.isEmpty then
      let n : Int := decimalValue ds
      return (.int (if negative then -n else n), rest)
    else
      return (.number (sign ++ ds ++ f ++ e), rest)

def number : Reader Value
  | '-' :: cs => unsigned true cs
  | cs => unsigned false cs

/-! ## Strings -/

/-- The unit that four hexadecimal digits stand for. -/
def unit : Reader Nat
  | a :: b :: c :: d :: cs => do
    let a ← hexValue? a
    let b ← hexValue? b
    let c ← hexValue? c
    let d ← hexValue? d
    return (4096 * a + 256 * b + 16 * c + d, cs)
  | _ => none

/-- The character of a `u` escape; one outside the first plane is written as a pair of units. -/
def unicode (cs : List Char) : Option (Char × List Char) := do
  let (u, rest) ← unit cs
  if 0xD800 ≤ u ∧ u < 0xDC00 then
    let (v, rest) ← literal ['\\', 'u'] rest >>= unit
    if 0xDC00 ≤ v ∧ v < 0xE000 then
      return (Char.ofNat (0x10000 + 0x400 * (u - 0xD800) + (v - 0xDC00)), rest)
    else none
  else if 0xDC00 ≤ u ∧ u < 0xE000 then none
  else return (Char.ofNat u, rest)

def escaped : Reader Char
  | '"' :: cs => some ('"', cs)
  | '\\' :: cs => some ('\\', cs)
  | '/' :: cs => some ('/', cs)
  | 'b' :: cs => some ('\x08', cs)
  | 'f' :: cs => some ('\x0c', cs)
  | 'n' :: cs => some ('\n', cs)
  | 'r' :: cs => some ('\r', cs)
  | 't' :: cs => some ('\t', cs)
  | 'u' :: cs => unicode cs
  | _ => none

/-- The rest of a string behind its first quote, in at most `fuel` characters. -/
def stringRest : Nat → Reader (List Char)
  | 0, _ => none
  | _ + 1, [] => none
  | _ + 1, '"' :: cs => some ([], cs)
  | fuel + 1, '\\' :: cs => do
    let (c, rest) ← escaped cs
    let (s, rest) ← stringRest fuel rest
    return (c :: s, rest)
  | fuel + 1, c :: cs =>
    if c.toNat < 32 then none
    else do
      let (s, rest) ← stringRest fuel cs
      return (c :: s, rest)

def string : Reader (List Char)
  | '"' :: cs => stringRest (cs.length + 1) cs
  | _ => none

/-! ## Values -/

mutual

/-- A value with no blanks in front, nested at most `fuel` deep. -/
def value : Nat → Reader Value
  | 0, _ => none
  | fuel + 1, cs =>
    match cs with
    | 'n' :: _ => (literal ['n', 'u', 'l', 'l'] cs).map (Value.null, ·)
    | 't' :: _ => (literal ['t', 'r', 'u', 'e'] cs).map (Value.bool true, ·)
    | 'f' :: _ => (literal ['f', 'a', 'l', 's', 'e'] cs).map (Value.bool false, ·)
    | '"' :: _ => (string cs).map fun (s, rest) => (.string s, rest)
    | '[' :: rest =>
      match dropBlanks rest with
      | ']' :: rest => some (.array [], rest)
      | rest => (items fuel rest).map fun (vs, rest) => (.array vs, rest)
    | '\x7b' :: rest =>
      match dropBlanks rest with
      | '\x7d' :: rest => some (.object [], rest)
      | rest => (members fuel rest).map fun (ms, rest) => (.object ms, rest)
    | _ => number cs

/-- The items of an array up to its closing bracket. -/
def items : Nat → Reader (List Value)
  | 0, _ => none
  | fuel + 1, cs => do
    let (v, rest) ← value fuel cs
    match dropBlanks rest with
    | ',' :: rest =>
      let (vs, rest) ← items fuel (dropBlanks rest)
      return (v :: vs, rest)
    | ']' :: rest => return ([v], rest)
    | _ => none

/-- The members of an object up to its closing brace. -/
def members : Nat → Reader (List (List Char × Value))
  | 0, _ => none
  | fuel + 1, cs => do
    let (k, rest) ← string cs
    let rest ← literal [':'] (dropBlanks rest)
    let (v, rest) ← value fuel (dropBlanks rest)
    match dropBlanks rest with
    | ',' :: rest =>
      let (ms, rest) ← members fuel (dropBlanks rest)
      return ((k, v) :: ms, rest)
    | '\x7d' :: rest => return ([(k, v)], rest)
    | _ => none

end

def Value.read? (cs : List Char) : Option Value :=
  match value (cs.length + 1) (dropBlanks cs) with
  | some (v, rest) => if (dropBlanks rest).isEmpty then some v else none
  | none => none

end SyntheticLog.Json
