import SyntheticLog.Proofs.Json.Strings
import SyntheticLog.Record.Display

/-!
# Reading back displayed texts

The escape of a control character has no fixed width, so what stands between the quotes is read one
character at a time, by a reader that knows how far it is in an escape.

* `Record.unquote`: the reader, up to the closing quote.
* `Record.unquote_hex`: the number of an escape is read back from its digits.
* `Record.unquote_displayChar`: so is a character from its display.
* `Record.unquote_flatMap`: a displayed text is read back, whatever stands behind its last quote.
-/

set_option autoImplicit false

namespace SyntheticLog

/-! ## Hexadecimal digits -/

namespace Decimal

theorem hex_of_lt {n : Nat} (h : n < 16) : hex n = [digit n] := by rw [hex, if_pos h]

theorem hex_of_le {n : Nat} (h : 16 ≤ n) : hex n = hex (n / 16) ++ [digit (n % 16)] := by
  rw [hex, if_neg (Nat.not_lt.2 h)]

end Decimal

namespace Record

open Json (Reader hexValue?)

/-! ## The reader -/

/-- How far a reader between quotes is in an escape. -/
inductive Place
  | text
  /-- Behind a backslash. -/
  | escape
  /-- In front of the brace that opens a number. -/
  | brace
  /-- Behind digits that stand for `n`. -/
  | number (n : Nat)

/-- The character that a letter behind a backslash stands for. -/
def named? (c : Char) : Option Char :=
  match c with
  | '"' => some '"'
  | '\\' => some '\\'
  | 'n' => some '\n'
  | 'r' => some '\r'
  | 't' => some '\t'
  | '0' => some '\x00'
  | _ => none

/-- A character in front of what is read. -/
def push (c : Char) (p : List Char × List Char) : List Char × List Char := (c :: p.1, p.2)

def unquote : Place → Reader (List Char)
  | _, [] => none
  | .text, c :: cs =>
    if c = '"' then some ([], cs)
    else if c = '\\' then unquote .escape cs
    else (unquote .text cs).map (push c)
  | .escape, c :: cs =>
    if c = 'u' then unquote .brace cs
    else (named? c).bind fun d => (unquote .text cs).map (push d)
  | .brace, c :: cs => if c = '\x7b' then unquote (.number 0) cs else none
  | .number n, c :: cs =>
    if c = '\x7d' then (unquote .text cs).map (push (Char.ofNat n))
    else (hexValue? c).bind fun d => unquote (.number (16 * n + d)) cs

/-! ## One character -/

theorem unquote_digit {d : Nat} (h : d < 16) (n : Nat) (rest : List Char) :
    unquote (.number n) (Decimal.digit d :: rest) = unquote (.number (16 * n + d)) rest := by
  have hall : ∀ d < 16, Decimal.digit d ≠ '\x7d' := by decide
  have hbrace := hall d h
  rw [unquote, if_neg hbrace, Json.hexValue?_digit h, Option.bind_some]

theorem unquote_hex (n : Nat) (rest : List Char) :
    unquote (.number 0) (Decimal.hex n ++ rest) = unquote (.number n) rest := by
  induction n using Nat.strongRecOn generalizing rest with
  | ind n ih =>
    rcases Nat.lt_or_ge n 16 with hn | hn
    · rw [Decimal.hex_of_lt hn, List.singleton_append, unquote_digit hn, Nat.mul_zero,
        Nat.zero_add]
    · have hvalue : 16 * (n / 16) + n % 16 = n := Nat.div_add_mod n 16
      rw [Decimal.hex_of_le hn, List.append_assoc, ih (n / 16) (by omega), List.singleton_append,
        unquote_digit (by omega), hvalue]

theorem unquote_escape {c : Char} {cs rest : List Char}
    (h : unquote .escape (cs ++ rest) = (unquote .text rest).map (push c)) :
    unquote .text ('\\' :: cs ++ rest) = (unquote .text rest).map (push c) := by
  have hquote : '\\' ≠ '"' := by decide
  rw [List.cons_append, unquote, if_neg hquote, if_pos rfl, h]

theorem unquote_number (c : Char) (rest : List Char) :
    unquote .escape ('u' :: '\x7b' :: Decimal.hex c.toNat ++ ['\x7d'] ++ rest) =
      (unquote .text rest).map (push c) := by
  have hdigits := unquote_hex c.toNat ('\x7d' :: rest)
  rw [List.append_assoc, List.cons_append, List.cons_append, List.singleton_append, unquote,
    if_pos rfl, unquote, if_pos rfl, hdigits, unquote, if_pos rfl, Char.ofNat_toNat]

theorem unquote_displayChar (c : Char) (rest : List Char) :
    unquote .text (displayChar c ++ rest) = (unquote .text rest).map (push c) := by
  unfold displayChar
  split
  case h_7 hquote hbackslash _ _ _ _ =>
    split
    · exact unquote_escape (unquote_number c rest)
    · rw [List.singleton_append, unquote, if_neg hquote, if_neg hbackslash]
  all_goals exact unquote_escape rfl

/-! ## Whole texts -/

theorem unquote_flatMap (cs behind : List Char) :
    unquote .text (cs.flatMap displayChar ++ '"' :: behind) = some (cs, behind) := by
  induction cs with
  | nil => rw [List.flatMap_nil, List.nil_append, unquote, if_pos rfl]
  | cons c cs ih =>
    rw [List.flatMap_cons, List.append_assoc, unquote_displayChar, ih]
    rfl

end Record

end SyntheticLog
