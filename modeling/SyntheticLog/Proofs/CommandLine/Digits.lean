import Mathlib.Data.List.Induction
import Mathlib.Data.Nat.Digits.Defs
import SyntheticLog.Proofs.CommandLine.Numbers
import SyntheticLog.Text.Decimal

/-!
# Verdicts on the texts of numbers

The reader goes over the digits once and checks each value against the limit. What comes of it is
told by the digits at the front of the text and by the value that they have by their places.

* `Number.value`, `Number.leading`: the value of digits, and the digits that a text begins with.
* `Number.verdict`: what is said of a text, without a loop.
* `Number.readDigits_eq`: the loop comes to the same.
* `Number.Spells`, `Number.denotes_iff`: the texts of one number.
-/

set_option autoImplicit false

namespace SyntheticLog.CommandLine

namespace Number

/-! ## Verdicts -/

instance (b : UInt8) : Decidable (IsDigit b) := inferInstanceAs (Decidable (_ ∧ _))

/-- The value of digits by their places, the last one in the place of ones. -/
def value (digits : Bytes) : Nat := Nat.ofDigits 10 (digits.reverse.map fun b => b.toNat - 48)

/-- The digits that a text begins with. -/
def leading (text : Bytes) : Bytes := text.takeWhile fun b => decide (IsDigit b)

/-- The text without a plus sign in front, if there is more behind that. -/
def unsigned : Bytes → Bytes
  | b :: c :: cs => if b = plus then c :: cs else b :: c :: cs
  | text => text

/-- What is said of the text of an argument. -/
def verdict (argument : Argument) (text : Bytes) : Except Refusal Nat :=
  if Utf8.isValid text = false then .error .invalidUtf8
  else if text = [] then .error (.invalidNumber argument text .empty)
  else if limit ≤ value (leading (unsigned text)) then
    .error (.invalidNumber argument text .overflow)
  else if leading (unsigned text) = unsigned text ∧ leading (unsigned text) ≠ [] then
    .ok (value (leading (unsigned text)))
  else .error (.invalidNumber argument text .invalidDigit)

theorem value_eq_foldl (digits : Bytes) : value digits = digits.foldl shift 0 := by
  rw [value, Nat.ofDigits_eq_foldr, List.foldr_map, List.foldr_reverse]
  congr 1
  funext n b
  exact Nat.add_comm _ _

theorem value_append_singleton (digits : Bytes) (b : UInt8) :
    value (digits ++ [b]) = 10 * value digits + (b.toNat - 48) := by
  rw [value_eq_foldl, value_eq_foldl, List.foldl_append]
  rfl

theorem leading_cons_of_isDigit {b : UInt8} (hb : IsDigit b) (bs : Bytes) :
    leading (b :: bs) = b :: leading bs :=
  List.takeWhile_cons_of_pos (decide_eq_true hb)

theorem leading_cons_of_not_isDigit {b : UInt8} (hb : ¬IsDigit b) (bs : Bytes) :
    leading (b :: bs) = [] :=
  List.takeWhile_cons_of_neg (by simpa using hb)

/-! ## Reading -/

-- A value over the limit ends the loop before what is no digit is seen, so the front decides first.
theorem readDigits_eq {n : Nat} (bs : Bytes) (hn : n < limit) :
    readDigits n bs =
      if limit ≤ (leading bs).foldl shift n then .error .overflow
      else if leading bs = bs then .ok (bs.foldl shift n) else .error .invalidDigit := by
  induction bs generalizing n with
  | nil => exact (if_neg (Nat.not_le.2 hn)).symm
  | cons b bs ih =>
    rw [readDigits]
    by_cases hb : IsDigit b
    · rw [digit?_of_isDigit hb, leading_cons_of_isDigit hb, List.foldl_cons, List.foldl_cons]
      change (if limit ≤ shift n b then .error .overflow else readDigits (shift n b) bs) = _
      by_cases hlimit : limit ≤ shift n b
      · have hle := le_foldl_shift (shift n b) (leading bs)
        rw [if_pos hlimit, if_pos (Nat.le_trans hlimit hle)]
      · rw [if_neg hlimit, ih (Nat.lt_of_not_le hlimit)]
        simp only [List.cons.injEq, true_and]
    · rw [digit?_of_not_isDigit hb, leading_cons_of_not_isDigit hb, List.foldl_nil,
        if_neg (Nat.not_le.2 hn), if_neg (List.cons_ne_nil b bs).symm]

theorem read_eq {text : Bytes} (h : text ≠ []) : read text = readDigits 0 (unsigned text) := by
  match text with
  | [] => exact absurd rfl h
  | [b] => rfl
  | b :: c :: cs =>
    rw [read_cons_cons, unsigned]
    by_cases hb : b = plus
    · rw [if_pos hb, if_pos hb]
    · rw [if_neg hb, if_neg hb]

theorem unsigned_ne_nil {text : Bytes} (h : text ≠ []) : unsigned text ≠ [] := by
  fun_cases unsigned text with
  | case1 c cs => exact List.cons_ne_nil c cs
  | case2 b c cs hb => exact List.cons_ne_nil b (c :: cs)
  | case3 => exact h

theorem number_eq_verdict (argument : Argument) (text : Bytes) :
    Scan.number argument text = verdict argument text := by
  rw [Scan.number, verdict]
  cases hvalid : Utf8.isValid text with
  | false => rfl
  | true =>
    rw [if_pos rfl, if_neg (by decide)]
    by_cases htext : text = []
    · rw [if_pos htext, htext]
      rfl
    · rw [if_neg htext, read_eq htext, readDigits_eq _ (by decide), ← value_eq_foldl]
      by_cases hlimit : limit ≤ value (leading (unsigned text))
      · rw [if_pos hlimit, if_pos hlimit]
      · rw [if_neg hlimit, if_neg hlimit]
        by_cases hall : leading (unsigned text) = unsigned text
        · have hne : leading (unsigned text) ≠ [] := by
            rw [hall]
            exact unsigned_ne_nil htext
          rw [if_pos hall, if_pos ⟨hall, hne⟩, ← value_eq_foldl, hall]
        · rw [if_neg hall, if_neg fun h => hall h.1]

/-! ## The texts of a number -/

/-- The byte of the digit zero. -/
def zero : UInt8 := 48

/-- The decimal text of `n` behind any number of zeros and perhaps a plus sign. -/
def Spells (text : Bytes) (n : Nat) : Prop :=
  ∃ (sign : Bytes) (k : Nat), (sign = [] ∨ sign = [plus]) ∧
    text = sign ++ (List.replicate k zero ++ Utf8.encode (Decimal.text n))

theorem encode_digit {d : Nat} (h : d < 10) :
    Utf8.encode (String.ofList [Decimal.digit d]) = [UInt8.ofNat (48 + d)] := by
  have hall : ∀ d < 10, Utf8.encode (String.ofList [Decimal.digit d]) = [UInt8.ofNat (48 + d)] := by
    decide
  exact hall d h

theorem encode_text_of_lt {n : Nat} (h : n < 10) :
    Utf8.encode (Decimal.text n) = [UInt8.ofNat (48 + n)] := by
  rw [Decimal.text, Decimal.ofNat_of_lt h, encode_digit h]

theorem encode_text_of_le {n : Nat} (h : 10 ≤ n) :
    Utf8.encode (Decimal.text n) =
      Utf8.encode (Decimal.text (n / 10)) ++ [UInt8.ofNat (48 + n % 10)] := by
  rw [Decimal.text, Decimal.ofNat_of_le h, String.ofList_append, Utf8.encode_append,
    encode_digit (Nat.mod_lt n (by decide))]
  rfl

theorem toNat_digit {d : Nat} (h : d < 10) : (UInt8.ofNat (48 + d)).toNat = 48 + d :=
  Utf8.toNat_ofNat (by omega)

theorem isDigit_digit {d : Nat} (h : d < 10) : IsDigit (UInt8.ofNat (48 + d)) := by
  rw [IsDigit, toNat_digit h]
  omega

theorem eq_digit {b : UInt8} (h : IsDigit b) : b = UInt8.ofNat (48 + (b.toNat - 48)) := by
  obtain ⟨hlow, -⟩ := h
  rw [Nat.add_sub_cancel' hlow, UInt8.ofNat_toNat]

theorem encode_text_ne_nil (n : Nat) : Utf8.encode (Decimal.text n) ≠ [] := by
  rcases Nat.lt_or_ge n 10 with hn | hn
  · rw [encode_text_of_lt hn]
    exact List.cons_ne_nil _ _
  · rw [encode_text_of_le hn]
    exact List.concat_ne_nil _ _

/-- Digits of the value `n` are its decimal text behind zeros. -/
theorem eq_replicate_append {digits : Bytes} (hne : digits ≠ []) (hdigits : ∀ b ∈ digits, IsDigit b) :
    ∃ k, digits = List.replicate k zero ++ Utf8.encode (Decimal.text (value digits)) := by
  -- from the right, where the decimal text of a number has its last digit
  induction digits using List.reverseRecOn with
  | nil => exact absurd rfl hne
  | append_singleton digits b ih =>
    have hb : IsDigit b := hdigits b (by simp)
    have hlast : (b.toNat - 48) < 10 := by
      obtain ⟨hlow, hhigh⟩ := hb
      omega
    rw [value_append_singleton]
    by_cases hnil : digits = []
    · refine ⟨0, ?_⟩
      rw [hnil, show value [] = 0 from rfl, Nat.mul_zero, Nat.zero_add, encode_text_of_lt hlast,
        ← eq_digit hb]
      rfl
    · obtain ⟨k, hk⟩ := ih hnil fun c hc => hdigits c (List.mem_append_left [b] hc)
      rcases Nat.eq_zero_or_pos (value digits) with hzero | hpos
      · refine ⟨k + 1, ?_⟩
        rw [hzero, encode_text_of_lt (by decide)] at hk
        rw [hzero, Nat.mul_zero, Nat.zero_add, encode_text_of_lt hlast, ← eq_digit hb, hk,
          List.replicate_succ']
        rfl
      · refine ⟨k, ?_⟩
        rw [encode_text_of_le (by omega), Nat.mul_add_mod, Nat.mod_eq_of_lt hlast,
          show (10 * value digits + (b.toNat - 48)) / 10 = value digits by omega, ← eq_digit hb,
          ← List.append_assoc, ← hk]

theorem digits_encode_text (n k : Nat) :
    (∀ b ∈ List.replicate k zero ++ Utf8.encode (Decimal.text n), IsDigit b) ∧
      value (List.replicate k zero ++ Utf8.encode (Decimal.text n)) = n := by
  have hzeros : ∀ k, value (List.replicate k zero) = 0 := by
    intro k
    induction k with
    | zero => rfl
    | succ k ih =>
      rw [List.replicate_succ', value_append_singleton, ih]
      rfl
  have hzero : ∀ b ∈ List.replicate k zero, IsDigit b := by
    intro b hb
    rw [List.eq_of_mem_replicate hb]
    decide
  induction n using Nat.strongRecOn with
  | ind n ih =>
    rcases Nat.lt_or_ge n 10 with hn | hn
    · rw [encode_text_of_lt hn, value_append_singleton, hzeros, toNat_digit hn]
      refine ⟨?_, by omega⟩
      rw [List.forall_mem_append, List.forall_mem_singleton]
      exact ⟨hzero, isDigit_digit hn⟩
    · obtain ⟨hdigits, hvalue⟩ := ih (n / 10) (by omega)
      have hlast : n % 10 < 10 := Nat.mod_lt n (by decide)
      rw [encode_text_of_le hn, ← List.append_assoc, value_append_singleton, hvalue,
        toNat_digit hlast]
      refine ⟨?_, by omega⟩
      rw [List.forall_mem_append, List.forall_mem_singleton]
      exact ⟨hdigits, isDigit_digit hlast⟩

theorem digits_iff {digits : Bytes} {n : Nat} :
    Digits digits n ↔
      n < limit ∧ ∃ k, digits = List.replicate k zero ++ Utf8.encode (Decimal.text n) := by
  constructor
  · rintro ⟨hne, hdigits, hvalue, hlimit⟩
    rw [← value_eq_foldl] at hvalue
    obtain ⟨k, hk⟩ := eq_replicate_append hne hdigits
    rw [hvalue] at hk
    exact ⟨hlimit, k, hk⟩
  · rintro ⟨hlimit, k, rfl⟩
    obtain ⟨hdigits, hvalue⟩ := digits_encode_text n k
    rw [value_eq_foldl] at hvalue
    exact ⟨List.append_ne_nil_of_right_ne_nil _ (encode_text_ne_nil n), hdigits, hvalue, hlimit⟩

/-- A text is read as `n` if it is one of the texts of `n`, and there is room for `n`. -/
theorem denotes_iff {text : Bytes} {n : Nat} : Denotes text n ↔ n < limit ∧ Spells text n := by
  simp only [Denotes, digits_iff]
  constructor
  · rintro ⟨digits, rfl | rfl, hlimit, k, rfl⟩
    · exact ⟨hlimit, [], k, .inl rfl, rfl⟩
    · exact ⟨hlimit, [plus], k, .inr rfl, rfl⟩
  · rintro ⟨hlimit, sign, k, rfl | rfl, rfl⟩
    · exact ⟨_, .inl rfl, hlimit, k, rfl⟩
    · exact ⟨_, .inr rfl, hlimit, k, rfl⟩

end Number

end SyntheticLog.CommandLine
