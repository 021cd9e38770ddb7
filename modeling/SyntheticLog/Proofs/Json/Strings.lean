import SyntheticLog.Json.Quoted
import SyntheticLog.Json.Value

/-!
# Reading back quoted strings

* `Json.spelled`: how a character stands between quotes.
* `Json.escapeFree`, `Json.join_quoted`: a text without escapes stands there as it is.
* `Json.string_spelled`: a quoted string is read back, whatever stands behind its last quote.
-/

set_option autoImplicit false

namespace SyntheticLog.Json

/-- A character as it stands between quotes. -/
def spelled (c : Char) : List Char := (escape? c).getD [c]

theorem toList_join_quoted (s : String) :
    (String.join (quoted s)).toList = '"' :: (s.toList.flatMap spelled ++ ['"']) := by
  have hfragments : (fragments s.toList).flatMap Fragment.chars = s.toList.flatMap spelled :=
    flatMap_fragments s.toList
  rw [← hfragments, quoted, String.toList_join]
  simp [List.flatMap_def, Function.comp_def]

/-- No character of the text has an escape. -/
def escapeFree (s : String) : Bool := s.toList.all fun c => (escape? c).isNone

theorem join_quoted {s : String} (h : escapeFree s = true) :
    String.join (quoted s) = "\"" ++ s ++ "\"" := by
  have hspelled : ∀ c ∈ s.toList, spelled c = [c] := by
    intro c hc
    rw [spelled, Option.isNone_iff_eq_none.1 (List.all_eq_true.1 h c hc), Option.getD_none]
  have hself : s.toList.flatMap spelled = s.toList := by
    rw [List.flatMap_def, List.map_congr_left hspelled, ← List.flatMap_def, List.flatMap_singleton']
  apply String.toList_injective
  rw [toList_join_quoted, hself, String.toList_append, String.toList_append]
  rfl

/-! ## One character -/

theorem hexValue?_digit {d : Nat} (h : d < 16) : hexValue? (Decimal.digit d) = some d := by
  have hall : ∀ d < 16, hexValue? (Decimal.digit d) = some d := by decide
  exact hall d h

theorem escaped_of_letter? {c l : Char} (h : letter? c = some l) (rest : List Char) :
    escaped (l :: rest) = some (c, rest) := by
  unfold letter? at h
  split at h <;> cases h <;> rfl

theorem unicode_of_lt {c : Char} (h : c.toNat < 32) (rest : List Char) :
    unicode ('0' :: '0' :: Decimal.digit (c.toNat / 16) :: Decimal.digit (c.toNat % 16) :: rest) =
      some (c, rest) := by
  have hhigh := hexValue?_digit (d := c.toNat / 16) (by omega)
  have hlow := hexValue?_digit (d := c.toNat % 16) (by omega)
  have hzero : hexValue? '0' = some 0 := by decide
  have hvalue : 4096 * 0 + 256 * 0 + 16 * (c.toNat / 16) + c.toNat % 16 = c.toNat := by omega
  have hunit : unit ('0' :: '0' :: Decimal.digit (c.toNat / 16) :: Decimal.digit (c.toNat % 16) ::
      rest) = some (c.toNat, rest) := by
    simp only [unit, hhigh, hlow, hzero, Option.bind_eq_bind, Option.bind_some, hvalue]
    rfl
  rw [unicode, hunit, Option.bind_eq_bind, Option.bind_some]
  show (if 0xD800 ≤ c.toNat ∧ c.toNat < 0xDC00 then _ else _) = _
  rw [if_neg (by omega), if_neg (by omega), Char.ofNat_toNat]
  rfl

/-! ## Whole strings -/

section Rest
variable {fuel : Nat} {c : Char} {s rest behind : List Char}

theorem stringRest_escape {e : List Char} (h : escaped e = some (c, rest))
    (hrest : stringRest fuel rest = some (s, behind)) :
    stringRest (fuel + 1) ('\\' :: e) = some (c :: s, behind) := by
  simp only [stringRest, h, Option.bind_eq_bind, Option.bind_some, hrest]
  rfl

theorem stringRest_self (hletter : letter? c = none) (hc : ¬c.toNat < 32)
    (hrest : stringRest fuel rest = some (s, behind)) :
    stringRest (fuel + 1) (c :: rest) = some (c :: s, behind) := by
  have hquote : c ≠ '"' := by
    rintro rfl
    cases hletter
  have hbackslash : c ≠ '\\' := by
    rintro rfl
    cases hletter
  rw [stringRest, if_neg hc, hrest]
  · rfl
  · exact hquote
  · exact hbackslash

theorem stringRest_spelled (c : Char) (hrest : stringRest fuel rest = some (s, behind)) :
    stringRest (fuel + 1) (spelled c ++ rest) = some (c :: s, behind) := by
  rw [spelled, escape?]
  cases hletter : letter? c with
  | some l => exact stringRest_escape (escaped_of_letter? hletter rest) hrest
  | none =>
    by_cases hc : c.toNat < 32
    · simp only [if_pos hc]
      exact stringRest_escape (unicode_of_lt hc rest) hrest
    · simp only [if_neg hc]
      exact stringRest_self hletter hc hrest

end Rest

theorem stringRest_flatMap (s behind : List Char) {fuel : Nat} (h : s.length < fuel) :
    stringRest fuel (s.flatMap spelled ++ '"' :: behind) = some (s, behind) := by
  induction s generalizing fuel with
  | nil =>
    obtain ⟨fuel, rfl⟩ : ∃ k, fuel = k + 1 := ⟨fuel - 1, by omega⟩
    rw [List.flatMap_nil, List.nil_append, stringRest]
  | cons c s ih =>
    rw [List.length_cons] at h
    obtain ⟨fuel, rfl⟩ : ∃ k, fuel = k + 1 := ⟨fuel - 1, by omega⟩
    rw [List.flatMap_cons, List.append_assoc]
    exact stringRest_spelled c (ih (by omega))

theorem length_spelled (c : Char) : 1 ≤ (spelled c).length := by
  rw [spelled, escape?]
  cases letter? c with
  | some l => exact Nat.le_add_left 1 1
  | none =>
    by_cases hc : c.toNat < 32
    · simp only [if_pos hc]
      exact Nat.le_add_left 1 5
    · simp only [if_neg hc]
      exact Nat.le_refl 1

theorem length_le_flatMap (s : List Char) : s.length ≤ (s.flatMap spelled).length := by
  induction s with
  | nil => exact Nat.le_refl 0
  | cons c s ih =>
    have hc := length_spelled c
    rw [List.flatMap_cons, List.length_append, List.length_cons]
    omega

theorem string_spelled (s behind : List Char) :
    string ('"' :: (s.flatMap spelled ++ '"' :: behind)) = some (s, behind) := by
  have hlength := length_le_flatMap s
  rw [string, stringRest_flatMap]
  rw [List.length_append]
  omega

end SyntheticLog.Json
