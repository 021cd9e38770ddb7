import Mathlib.Data.List.TakeDrop
import SyntheticLog.Json.Value

/-!
# Reading back integers

* `Json.EndsNumber`: what may stand behind a number.
* `Json.number_ofInt`: the decimal text of an integer is read back.
-/

set_option autoImplicit false

namespace SyntheticLog

/-! ## Decimal digits -/

namespace Decimal

theorem ofNat_pos (n : Nat) (h : 0 < n) :
    ∃ d ds, 0 < d ∧ d < 10 ∧ ofNat n = digit d :: ds := by
  induction n using Nat.strongRecOn with
  | ind n ih =>
    rcases Nat.lt_or_ge n 10 with hn | hn
    · exact ⟨n, [], h, hn, ofNat_of_lt hn⟩
    · obtain ⟨d, ds, hpos, hlt, hds⟩ := ih (n / 10) (by omega) (by omega)
      refine ⟨d, ds ++ [digit (n % 10)], hpos, hlt, ?_⟩
      rw [ofNat_of_le hn, hds, List.cons_append]

theorem ofNat_ne_nil (n : Nat) : ofNat n ≠ [] := by
  rw [ofNat]
  split
  · exact List.cons_ne_nil _ _
  · exact List.append_ne_nil_of_right_ne_nil _ (List.cons_ne_nil _ _)

theorem digit_ne_zero {d : Nat} (hpos : 0 < d) (hlt : d < 10) : digit d ≠ '0' := by
  have hall : ∀ d < 10, 0 < d → digit d ≠ '0' := by decide
  exact hall d hlt hpos

/-- A zero at the front stands alone. -/
theorem ofNat_ne_zero_cons (n : Nat) (c : Char) (cs : List Char) : ofNat n ≠ '0' :: c :: cs := by
  intro h
  rcases Nat.eq_zero_or_pos n with hn | hn
  · rw [hn, ofNat_of_lt (by omega)] at h
    cases h
  · obtain ⟨d, ds, hpos, hlt, hds⟩ := ofNat_pos n hn
    rw [hds] at h
    exact digit_ne_zero hpos hlt (List.cons.inj h).1

theorem exists_digit_of_mem (n : Nat) {c : Char} (h : c ∈ ofNat n) : ∃ d < 10, c = digit d := by
  induction n using Nat.strongRecOn with
  | ind n ih =>
    rcases Nat.lt_or_ge n 10 with hn | hn
    · rw [ofNat_of_lt hn, List.mem_singleton] at h
      exact ⟨n, hn, h⟩
    · rw [ofNat_of_le hn, List.mem_append, List.mem_singleton] at h
      rcases h with h | h
      · exact ih (n / 10) (by omega) h
      · exact ⟨n % 10, by omega, h⟩

end Decimal

namespace Json

theorem digitValue?_digit {d : Nat} (h : d < 10) : digitValue? (Decimal.digit d) = some d := by
  have hall : ∀ d < 10, digitValue? (Decimal.digit d) = some d := by decide
  exact hall d h

theorem decimalValue_append (ds : List Char) (c : Char) :
    decimalValue (ds ++ [c]) = 10 * decimalValue ds + (c.toNat - 48) := by
  rw [decimalValue, List.foldl_append]
  rfl

theorem decimalValue_ofNat (n : Nat) : decimalValue (Decimal.ofNat n) = n := by
  have hdigit : ∀ d < 10, (Decimal.digit d).toNat - 48 = d := by decide
  induction n using Nat.strongRecOn with
  | ind n ih =>
    rcases Nat.lt_or_ge n 10 with hn | hn
    · have hd := hdigit n hn
      rw [Decimal.ofNat_of_lt hn, decimalValue, List.foldl_cons, List.foldl_nil]
      omega
    · have hd := hdigit (n % 10) (by omega)
      rw [Decimal.ofNat_of_le hn, decimalValue_append, ih (n / 10) (by omega), hd]
      omega

/-! ## Numbers -/

/-- Behind a number, these characters do not go on with it. -/
def EndsNumber (rest : List Char) : Prop :=
  ∀ c cs, rest = c :: cs → digitValue? c = none ∧ c ≠ '.' ∧ c ≠ 'e' ∧ c ≠ 'E'

theorem digits_ofNat (n : Nat) {rest : List Char} (h : EndsNumber rest) :
    digits (Decimal.ofNat n ++ rest) = (Decimal.ofNat n, rest) := by
  have hall : ∀ c ∈ Decimal.ofNat n, (digitValue? c).isSome = true := by
    intro c hc
    obtain ⟨d, hd, rfl⟩ := Decimal.exists_digit_of_mem n hc
    rw [digitValue?_digit hd]
    rfl
  have hnone : rest.takeWhile (fun c => (digitValue? c).isSome) = [] := by
    cases rest with
    | nil => rfl
    | cons c cs =>
      obtain ⟨hc, -⟩ := h c cs rfl
      rw [List.takeWhile_cons, hc]
      rfl
  have hdrop : rest.dropWhile (fun c => (digitValue? c).isSome) = rest := by
    cases rest with
    | nil => rfl
    | cons c cs =>
      obtain ⟨hc, -⟩ := h c cs rfl
      rw [List.dropWhile_cons, hc]
      rfl
  rw [digits, List.span_eq_takeWhile_dropWhile, List.takeWhile_append_of_pos hall,
    List.dropWhile_append_of_pos hall, hnone, hdrop, List.append_nil]

theorem fraction_of_ends {rest : List Char} (h : EndsNumber rest) :
    fraction rest = some ([], rest) := by
  rw [fraction]
  rintro cs rfl
  exact (h '.' cs rfl).2.1 rfl

theorem exponent_of_ends {rest : List Char} (h : EndsNumber rest) :
    exponent rest = some ([], rest) := by
  cases rest with
  | nil => rfl
  | cons c cs =>
    obtain ⟨-, -, hsmall, hlarge⟩ := h c cs rfl
    simp [exponent, hsmall, hlarge]

theorem unsigned_ofNat (negative : Bool) (n : Nat) {rest : List Char} (h : EndsNumber rest) :
    unsigned negative (Decimal.ofNat n ++ rest) =
      some (.int (if negative then -(n : Int) else n), rest) := by
  rw [unsigned, digits_ofNat n h]
  split
  · next hds => exact absurd (congrArg Prod.fst hds) (Decimal.ofNat_ne_nil n)
  · next hds => exact absurd (congrArg Prod.fst hds) (Decimal.ofNat_ne_zero_cons n _ _)
  · next ds r hds =>
    cases hds
    simp only [fraction_of_ends h, exponent_of_ends h, Option.bind_eq_bind, Option.bind_some,
      List.isEmpty_nil, Bool.and_self, if_true, decimalValue_ofNat]
    rfl

theorem number_ofInt (x : Int) {rest : List Char} (h : EndsNumber rest) :
    number (Decimal.ofInt x ++ rest) = some (.int x, rest) := by
  rw [Decimal.ofInt]
  split
  · have hx : -(x.natAbs : Int) = x := by omega
    rw [List.cons_append, number, unsigned_ofNat true _ h, if_pos rfl, hx]
  · have hx : (x.natAbs : Int) = x := by omega
    rw [number, unsigned_ofNat false _ h, if_neg Bool.false_ne_true, hx]
    intro cs hcs
    have hminus : '-' ∈ Decimal.ofNat x.natAbs := by
      obtain ⟨c, ds, hds⟩ := List.exists_cons_of_ne_nil (Decimal.ofNat_ne_nil x.natAbs)
      rw [hds, List.cons_append] at hcs
      rw [hds, (List.cons.inj hcs).1]
      exact List.mem_cons_self
    obtain ⟨d, hd, hdigit⟩ := Decimal.exists_digit_of_mem _ hminus
    have hall : ∀ d < 10, '-' ≠ Decimal.digit d := by decide
    exact hall d hd hdigit

end Json

end SyntheticLog
