import SyntheticLog.CommandLine.Scan
import SyntheticLog.Proofs.Text.Encoding

/-!
# Which texts are numbers

* `Number.Denotes`: an optional plus sign and decimal digits, of value below the limit.
* `Number.read_eq_ok_iff`: the reader accepts these texts, and gives their values.
* `Scan.number_eq_ok_iff`: as does the check of an argument, since digits are always a text.
-/

set_option autoImplicit false

namespace SyntheticLog

/-! ## Digits are a text -/

theorem Utf8.isValid_of_ascii {bs : Bytes} (h : ∀ b ∈ bs, b.toNat < 0x80) :
    isValid bs = true := by
  induction bs with
  | nil => simp [isValid, decode]
  | cons b bs ih =>
    have hrest := ih fun c hc => h c (List.mem_cons_of_mem b hc)
    rw [isValid] at hrest ⊢
    rw [decode_one bs (tests_one (h b List.mem_cons_self)), List.all_cons, hrest]
    rfl

namespace CommandLine

namespace Number

/-! ## Values -/

def IsDigit (b : UInt8) : Prop := 48 ≤ b.toNat ∧ b.toNat ≤ 57

/-- The number `n` with one more digit. -/
def shift (n : Nat) (b : UInt8) : Nat := 10 * n + (b.toNat - 48)

/-- The text is one or more digits, of the value `n` below the limit. -/
def Digits (text : Bytes) (n : Nat) : Prop :=
  text ≠ [] ∧ (∀ b ∈ text, IsDigit b) ∧ text.foldl shift 0 = n ∧ n < limit

/-- The text is digits, perhaps behind a plus sign. -/
def Denotes (text : Bytes) (n : Nat) : Prop :=
  ∃ digits : Bytes, (text = digits ∨ text = plus :: digits) ∧ Digits digits n

theorem digit?_of_isDigit {b : UInt8} (h : IsDigit b) : digit? b = some (b.toNat - 48) :=
  if_pos h

theorem digit?_of_not_isDigit {b : UInt8} (h : ¬IsDigit b) : digit? b = none := if_neg h

theorem not_digits_plus {bs : Bytes} {n : Nat} : ¬Digits (plus :: bs) n := by
  rintro ⟨-, hdigits, -⟩
  have hplus := hdigits plus List.mem_cons_self
  rw [IsDigit] at hplus
  exact absurd hplus (by decide)

theorem le_foldl_shift (n : Nat) (bs : Bytes) : n ≤ bs.foldl shift n := by
  induction bs generalizing n with
  | nil => exact Nat.le_refl n
  | cons b bs ih =>
    have hshift : n ≤ shift n b := by
      rw [shift]
      omega
    exact Nat.le_trans hshift (ih (shift n b))

/-! ## Reading -/

-- The reader stops at the first value that is too high; later digits only raise it.
theorem readDigits_eq_ok_iff {n m : Nat} {bs : Bytes} (hn : n < limit) :
    readDigits n bs = .ok m ↔ (∀ b ∈ bs, IsDigit b) ∧ bs.foldl shift n = m ∧ m < limit := by
  induction bs generalizing n with
  | nil =>
    simp only [readDigits, Except.ok.injEq, List.foldl_nil, List.not_mem_nil, false_imp_iff,
      implies_true, true_and]
    constructor
    · rintro rfl
      exact ⟨rfl, hn⟩
    · exact And.left
  | cons b bs ih =>
    rw [List.forall_mem_cons, List.foldl_cons, readDigits]
    by_cases hb : IsDigit b
    · simp only [digit?_of_isDigit hb, hb, true_and]
      change (if limit ≤ shift n b then .error .overflow else readDigits (shift n b) bs) =
        Except.ok m ↔ _
      by_cases hlimit : limit ≤ shift n b
      · rw [if_pos hlimit]
        have hle := le_foldl_shift (shift n b) bs
        constructor
        · intro h
          cases h
        · rintro ⟨-, rfl, hm⟩
          omega
      · rw [if_neg hlimit]
        exact ih (Nat.lt_of_not_le hlimit)
    · simp only [digit?_of_not_isDigit hb, hb, false_and, reduceCtorEq]

theorem readDigits_zero_eq_ok_iff {n : Nat} {bs : Bytes} (hbs : bs ≠ []) :
    readDigits 0 bs = .ok n ↔ Digits bs n := by
  rw [readDigits_eq_ok_iff (by decide), Digits]
  exact ⟨fun h => ⟨hbs, h⟩, And.right⟩

theorem read_cons_cons (b c : UInt8) (cs : Bytes) :
    read (b :: c :: cs) =
      if b = plus then readDigits 0 (c :: cs) else readDigits 0 (b :: c :: cs) := rfl

theorem read_eq_ok_iff {text : Bytes} {n : Nat} : read text = .ok n ↔ Denotes text n := by
  match text with
  | [] =>
    constructor
    · intro h
      cases h
    · rintro ⟨digits, rfl | h, hdigits⟩
      · exact absurd rfl hdigits.1
      · cases h
  | [b] =>
    rw [read, readDigits_zero_eq_ok_iff (List.cons_ne_nil b [])]
    constructor
    · exact fun h => ⟨[b], .inl rfl, h⟩
    · rintro ⟨digits, rfl | h, hdigits⟩
      · exact hdigits
      · cases h
        exact absurd rfl hdigits.1
  | b :: c :: cs =>
    rw [read_cons_cons]
    by_cases hb : b = plus
    · rw [if_pos hb, readDigits_zero_eq_ok_iff (List.cons_ne_nil c cs), hb]
      constructor
      · exact fun h => ⟨c :: cs, .inr rfl, h⟩
      · rintro ⟨digits, rfl | h, hdigits⟩
        · exact absurd hdigits not_digits_plus
        · cases h
          exact hdigits
    · rw [if_neg hb, readDigits_zero_eq_ok_iff (List.cons_ne_nil b (c :: cs))]
      constructor
      · exact fun h => ⟨b :: c :: cs, .inl rfl, h⟩
      · rintro ⟨digits, rfl | h, hdigits⟩
        · exact hdigits
        · cases h
          exact absurd rfl hb

theorem Denotes.lt_limit {text : Bytes} {n : Nat} (h : Denotes text n) : n < limit := by
  obtain ⟨digits, -, -, -, -, hlimit⟩ := h
  exact hlimit

theorem Denotes.ascii {text : Bytes} {n : Nat} (h : Denotes text n) : ∀ b ∈ text, b.toNat < 0x80 := by
  obtain ⟨digits, htext, -, hdigits, -⟩ := h
  have hascii (b : UInt8) (hb : b ∈ digits) : b.toNat < 0x80 :=
    Nat.lt_of_le_of_lt (hdigits b hb).2 (by decide)
  rcases htext with rfl | rfl
  · exact hascii
  · rw [List.forall_mem_cons]
    exact ⟨by decide, hascii⟩

end Number

theorem Scan.number_eq_ok_iff {argument : Argument} {text : Bytes} {n : Nat} :
    number argument text = .ok n ↔ Number.Denotes text n := by
  rw [number, ← Number.read_eq_ok_iff]
  constructor
  · intro h
    split at h
    · cases hread : Number.read text with
      | ok m =>
        rw [hread] at h
        cases h
        rfl
      | error fault =>
        rw [hread] at h
        cases h
    · cases h
  · intro h
    rw [if_pos (Utf8.isValid_of_ascii (Number.read_eq_ok_iff.1 h).ascii), h]

end CommandLine

end SyntheticLog
