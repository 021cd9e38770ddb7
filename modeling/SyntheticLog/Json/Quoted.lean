import SyntheticLog.Text.Decimal

/-!
# Quoted strings

A quoted string keeps every character as it is, but for the quote, the backslash and the characters
below the blank, which are escaped. It is written in pieces: each run of characters that stay as
they are is one piece, each escape another.

* `Json.escape?`: the escape of a character that needs one.
* `Json.quoted`: the pieces of a quoted string.
-/

set_option autoImplicit false

namespace SyntheticLog.Json

/-- The letter of a character that has an escape of two characters. -/
def letter? (c : Char) : Option Char :=
  match c with
  | '"' => some '"'
  | '\\' => some '\\'
  | '\x08' => some 'b'
  | '\t' => some 't'
  | '\n' => some 'n'
  | '\x0c' => some 'f'
  | '\r' => some 'r'
  | _ => none

/-- The escape of a character, if it may not stand for itself. -/
def escape? (c : Char) : Option (List Char) :=
  match letter? c with
  | some l => some ['\\', l]
  | none =>
    if c.toNat < 32 then
      some ['\\', 'u', '0', '0', Decimal.digit (c.toNat / 16), Decimal.digit (c.toNat % 16)]
    else none

inductive Fragment
  /-- Characters that stand for themselves. -/
  | run (cs : List Char)
  | escape (cs : List Char)
  deriving DecidableEq, Repr

def Fragment.chars : Fragment → List Char
  | .run cs => cs
  | .escape cs => cs

/-- The pieces of the text between the quotes: the longest runs, and the escapes between them. -/
def fragments : List Char → List Fragment
  | [] => []
  | c :: cs =>
    match escape? c, fragments cs with
    | some e, fs => .escape e :: fs
    | none, .run r :: fs => .run (c :: r) :: fs
    | none, fs => .run [c] :: fs

def quoted (s : String) : List String :=
  "\"" :: ((fragments s.toList).map fun f => String.ofList f.chars) ++ ["\""]

/-- The text between the quotes, character by character. -/
theorem flatMap_fragments (cs : List Char) :
    (fragments cs).flatMap Fragment.chars = cs.flatMap fun c => (escape? c).getD [c] := by
  induction cs with
  | nil => rfl
  | cons c cs ih =>
    rw [List.flatMap_cons, ← ih, fragments]
    cases he : escape? c with
    | some e => simp [Fragment.chars]
    | none =>
      cases hf : fragments cs with
      | nil => simp [Fragment.chars]
      | cons f fs => cases f <;> simp [Fragment.chars]

end SyntheticLog.Json
