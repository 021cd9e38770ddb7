import SyntheticLog.Json.Quoted
import SyntheticLog.Json.Value
import SyntheticLog.Record.Basic

/-!
# Records as JSON

A record is written as one compact object; a missing field leaves no trace.

* `Record.pieces`: the texts that the writing of a record consists of, in order.
* `Record.json`, `Record.line`: the whole text, and the text with the newline that ends it.
* `Record.ofJson?`: the record that a JSON value stands for.
-/

set_option autoImplicit false

namespace SyntheticLog.Record

open Json (quoted)

/-! ## Writing -/

/-- The pieces of a member: a comma unless it is the first, the key, a colon and the value. -/
def member (first : Bool) (key : String) (value : List String) : List String :=
  (if first then [] else [","]) ++ quoted key ++ ":" :: value

/-- The pieces of a member that may be missing. It is never the first. -/
def memberIfAny {α : Type} (key : String) (value : α → List String) : Option α → List String
  | none => []
  | some x => member false key (value x)

def object (members : List String) : List String := "\x7b" :: members ++ ["\x7d"]

def numberPieces (n : Numbers) : List String :=
  object (member true "ts" [String.ofList (Decimal.ofInt n.ts)] ++
    memberIfAny "count" (fun c => [Decimal.text c]) n.count)

def textPieces (t : Texts) : List String :=
  object (member true "event" (quoted t.event) ++ memberIfAny "message" quoted t.message)

def pieces (r : Record) : List String :=
  object (member true "int" (numberPieces r.numbers) ++ member false "str" (textPieces r.texts))

def json (r : Record) : String := String.join r.pieces

/-- The line of the record in a file. -/
def line (r : Record) : String := r.json ++ "\n"

/-! ## Reading -/

/-- The values of the keys `first` and `second`, if the members have no other key and none twice. -/
def fields (first second : String) :
    List (List Char × Json.Value) → Option (Option Json.Value × Option Json.Value)
  | [] => some (none, none)
  | (k, v) :: ms => do
    let (a, b) ← fields first second ms
    if k = first.toList then
      if a.isNone then return (some v, b) else none
    else if k = second.toList then
      if b.isNone then return (a, some v) else none
    else none

def countOfJson? : Json.Value → Option Nat
  | .int x => if 0 ≤ x then some x.toNat else none
  | _ => none

def textOfJson? : Json.Value → Option String
  | .string s => some (String.ofList s)
  | _ => none

/-- Reads a value that may be missing. -/
def ifAny {α : Type} (read : Json.Value → Option α) : Option Json.Value → Option (Option α)
  | none => some none
  | some v => (read v).map some

def numbersOfJson? : Json.Value → Option Numbers
  | .object ms => do
    let (ts, count) ← fields "ts" "count" ms
    let .int ts ← ts | none
    let count ← ifAny countOfJson? count
    return ⟨ts, count⟩
  | _ => none

def textsOfJson? : Json.Value → Option Texts
  | .object ms => do
    let (event, message) ← fields "event" "message" ms
    let event ← event >>= textOfJson?
    let message ← ifAny textOfJson? message
    return ⟨event, message⟩
  | _ => none

/-- The record that a value stands for: exactly the two groups, each with its own keys. -/
def ofJson? : Json.Value → Option Record
  | .object ms => do
    let (numbers, texts) ← fields "int" "str" ms
    let numbers ← numbers >>= numbersOfJson?
    let texts ← texts >>= textsOfJson?
    return ⟨numbers, texts⟩
  | _ => none

def ofLine? (cs : List Char) : Option Record := Json.Value.read? cs >>= ofJson?

end SyntheticLog.Record
