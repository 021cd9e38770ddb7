import SyntheticLog.Proofs.Random.Loops
import SyntheticLog.Proofs.Random.Shares

/-!
# The values of a range

A draw from a range gives the value on which the first number that counts falls. The value is found
in machine words, with a product twice as wide as the number, and no step of this goes wrong.

* `IntType.image?`: the value on which a number falls, if it counts.
* `intRange_eq_firstPlaced`: a draw from a range is a loop with that test.
* `image?_of_lt`: the value without any wrapping.
* `IntType.wordImage?`, `map_wordImage?`: the same value in machine words.
-/

set_option autoImplicit false

namespace SyntheticLog.Random

/-! ## Bits -/

def Width.bits : Width → Nat
  | .w8 => 8
  | .w16 => 16
  | .w32 => 32
  | .w64 => 64

def Size.bits : Size → Nat
  | .word32 => 32
  | .word64 => 64

theorem Width.card_eq (w : Width) : w.card = 2 ^ w.bits := by
  cases w <;> rfl

theorem Size.card_eq (size : Size) : size.card = 2 ^ size.bits := by
  cases size <;> rfl

theorem Width.card_le (w : Width) : w.card ≤ w.size.card := by
  cases w <;> decide

/-! ## Loops with other tests -/

section Loops
variable {σ : Type} [WordSource σ] {α β : Type} {size : Size}

theorem firstPlaced_map (test : Nat → Option α) (f : α → β) :
    (firstPlaced size fun v => (test v).map f : Draw σ β) = f <$> firstPlaced size test := by
  funext s
  show _ = EStateM.map f (firstPlaced size test) s
  unfold EStateM.map
  fun_induction firstPlaced size test s with
  | case1 s e s' hbits => rw [firstPlaced_of_error hbits]
  | case2 s v s' hbits x hx => rw [firstPlaced_of_some hbits (x := f x) (by rw [hx]; rfl)]
  | case3 s v s' hbits hnone ih => rw [firstPlaced_of_none hbits (by rw [hnone]; rfl), ih]

theorem firstPlaced_congr {test test' : Nat → Option α}
    (h : ∀ v < size.card, test v = test' v) :
    (firstPlaced size test : Draw σ α) = firstPlaced size test' := by
  funext s
  fun_induction firstPlaced size test s with
  | case1 s e s' hbits => rw [firstPlaced_of_error hbits]
  | case2 s v s' hbits x hx =>
    rw [h v ((gives_bits size).ok hbits)] at hx
    rw [firstPlaced_of_some hbits hx]
  | case3 s v s' hbits hnone ih =>
    rw [h v ((gives_bits size).ok hbits)] at hnone
    rw [firstPlaced_of_none hbits hnone, ih]

/-- A loop that drops nothing draws one number. -/
theorem firstPlaced_some (f : Nat → α) :
    (firstPlaced size fun v => some (f v) : Draw σ α) = f <$> bits size := by
  funext s
  show _ = EStateM.map f (bits size) s
  unfold EStateM.map
  cases hbits : bits size s with
  | error e s' => exact firstPlaced_of_error hbits
  | ok v s' => exact firstPlaced_of_some hbits rfl

end Loops

/-! ## Values of numbers -/

namespace IntType

/-- The value on which the number `v` falls, if it counts. -/
def image? (t : IntType) (low high : Int) (v : Nat) : Option Int :=
  if t.span low high = 0 then some (t.wrap v)
  else (place? t.width (t.span low high) v).map fun k : Nat => t.wrap (low + k)

variable {t : IntType} {low high : Int}

theorem span_of_lt (hle : low ≤ high) (hlt : high - low + 1 < t.card) :
    t.span low high = (high - low + 1).toNat := by
  rw [span, Int.emod_eq_of_lt (by omega) hlt]

theorem span_of_eq (heq : high - low + 1 = t.card) : t.span low high = 0 := by
  rw [span, heq, Int.emod_self]
  rfl

theorem span_lt (t : IntType) (low high : Int) : t.span low high < t.width.size.card := by
  have hpos := t.card_pos
  have hle : t.card ≤ t.width.size.card := t.width.card_le
  have hmod := Int.emod_lt_of_pos (high - low + 1) (b := t.card) (by omega)
  rw [span]
  omega

/-- Short of the whole type, the value of a number that counts is as many steps from `low` as the
place of the number says, and is still in the range. -/
theorem image?_of_lt (hle : low ≤ high) (hlow : t.least ≤ low) (hhigh : high ≤ t.greatest)
    (hlt : high - low + 1 < t.card) {v : Nat} (hv : v < t.width.size.card) :
    t.image? low high v =
      (place? t.width (high - low + 1).toNat v).map fun k : Nat => low + k := by
  have hspan := span_of_lt hle hlt
  rw [image?, if_neg (by omega), hspan]
  cases hk : place? t.width (high - low + 1).toNat v with
  | none => rfl
  | some k =>
    have hplace : k < (high - low + 1).toNat := place?_lt (by omega) hv hk
    have hwrap : t.wrap (low + k) = low + k := wrap_of_mem (by omega) (by omega)
    rw [Option.map_some, Option.map_some, hwrap]

theorem image?_of_eq (heq : high - low + 1 = t.card) (v : Nat) :
    t.image? low high v = some (t.wrap v) := by
  rw [image?, if_pos (span_of_eq heq)]

end IntType

/-- A draw from a range goes on until a number counts. -/
theorem intRange_eq_firstPlaced {σ : Type} [WordSource σ] (t : IntType) {low high : Int}
    (hle : low ≤ high) :
    (intRange t low high : Draw σ Int) = firstPlaced t.width.size (t.image? low high) := by
  have himage : t.image? low high = fun v => t.image? low high v := rfl
  rw [intRange, if_neg (by omega), himage]
  by_cases hzero : t.span low high = 0
  · simp only [IntType.image?, if_pos hzero]
    rw [firstPlaced_some, map_eq_pure_bind]
  · simp only [IntType.image?, if_neg hzero]
    rw [firstPlaced_map, map_eq_pure_bind]

theorem intRange_of_lt {σ : Type} [WordSource σ] {t : IntType} {low high : Int} (hle : low ≤ high)
    (hlow : t.least ≤ low) (hhigh : high ≤ t.greatest) (hlt : high - low + 1 < t.card) :
    (intRange t low high : Draw σ Int) =
      (fun k : Nat => low + k) <$>
        firstPlaced t.width.size (place? t.width (high - low + 1).toNat) := by
  rw [intRange_eq_firstPlaced t hle, ← firstPlaced_map]
  exact firstPlaced_congr fun v hv => IntType.image?_of_lt hle hlow hhigh hlt hv

/-! ## Machine words -/

section Products
variable {b : Nat} (x y : BitVec b)

/-- The product of two words, twice as wide. -/
def wideProduct : BitVec (2 * b) := x.setWidth (2 * b) * y.setWidth (2 * b)

def upperHalf : BitVec b := (wideProduct x y >>> b).setWidth b

def lowerHalf : BitVec b := (wideProduct x y).setWidth b

theorem product_lt : x.toNat * y.toNat < 2 ^ b * 2 ^ b := Nat.mul_lt_mul'' x.isLt y.isLt

theorem toNat_wideProduct : (wideProduct x y).toNat = x.toNat * y.toNat := by
  -- The product is below the square of what one word holds, so nothing is cut off.
  have hwide : 2 ^ (2 * b) = 2 ^ b * 2 ^ b := by rw [Nat.two_mul, Nat.pow_add]
  have hle : 2 ^ b ≤ 2 ^ (2 * b) := Nat.pow_le_pow_right (by omega) (by omega)
  have hx : x.toNat % 2 ^ (2 * b) = x.toNat := Nat.mod_eq_of_lt (by have := x.isLt; omega)
  have hy : y.toNat % 2 ^ (2 * b) = y.toNat := Nat.mod_eq_of_lt (by have := y.isLt; omega)
  rw [wideProduct, BitVec.toNat_mul, BitVec.toNat_setWidth, BitVec.toNat_setWidth, hx, hy, hwide,
    Nat.mod_eq_of_lt (product_lt x y)]

theorem toNat_upperHalf : (upperHalf x y).toNat = x.toNat * y.toNat / 2 ^ b := by
  have hlt : x.toNat * y.toNat / 2 ^ b < 2 ^ b := Nat.div_lt_of_lt_mul (product_lt x y)
  rw [upperHalf, BitVec.toNat_setWidth, BitVec.toNat_ushiftRight, toNat_wideProduct,
    Nat.shiftRight_eq_div_pow, Nat.mod_eq_of_lt hlt]

theorem toNat_lowerHalf : (lowerHalf x y).toNat = x.toNat * y.toNat % 2 ^ b := by
  rw [lowerHalf, BitVec.toNat_setWidth, toNat_wideProduct]

end Products

namespace IntType

variable (t : IntType)

def word (x : Int) : BitVec t.width.bits := BitVec.ofInt t.width.bits x

/-- The number that a word of the type stands for. -/
def number (x : BitVec t.width.bits) : Int := if t.signed then x.toInt else x.toNat

theorem number_word (x : Int) : t.number (t.word x) = t.wrap x := by
  have hpos : (t.width.card : Int) ≠ 0 := by
    have := t.card_pos
    rw [card] at this
    omega
  rw [number, word, wrap, card]
  by_cases h : t.signed
  · rw [if_pos h, if_pos h, BitVec.toInt_ofInt, ← Width.card_eq]
  · rw [if_neg h, if_neg h, BitVec.toNat_ofInt, ← Width.card_eq,
      Int.toNat_of_nonneg (Int.emod_nonneg _ hpos)]

theorem word_add (x y : Int) : t.word x + t.word y = t.word (x + y) :=
  (BitVec.ofInt_add x y).symm

theorem word_sub (x y : Int) : t.word x - t.word y = t.word (x - y) := by
  rw [BitVec.sub_eq_add_neg, word, word, ← BitVec.ofInt_neg, ← BitVec.ofInt_add,
    ← Int.sub_eq_add_neg, word]

theorem setWidth_eq_word {b : Nat} (x : BitVec b) : x.setWidth t.width.bits = t.word x.toNat := by
  rw [word, BitVec.ofInt_natCast, BitVec.ofNat_toNat]

/-- The number of values of a range, counted in words of the type; the whole type counts as zero. -/
def wordSpan (low high : BitVec t.width.bits) : BitVec t.width.size.bits :=
  (high - low + 1#t.width.bits).setWidth t.width.size.bits

/-- The word on which a number falls, if it counts. -/
def wordImage? (low high : BitVec t.width.bits) (v : BitVec t.width.size.bits) :
    Option (BitVec t.width.bits) :=
  if t.wordSpan low high = 0#t.width.size.bits then some (v.setWidth t.width.bits)
  else if (lowerHalf v (t.wordSpan low high)).toNat ≤ zone t.width (t.wordSpan low high).toNat then
    some (low + (upperHalf v (t.wordSpan low high)).setWidth t.width.bits)
  else none

theorem toNat_wordSpan (low high : Int) :
    (t.wordSpan (t.word low) (t.word high)).toNat = t.span low high := by
  have hone : 1#t.width.bits = t.word 1 := (BitVec.ofInt_natCast _ 1).symm
  have hlt := t.span_lt low high
  rw [span, card] at hlt
  rw [wordSpan, hone, word_sub, word_add, word, BitVec.toNat_setWidth, BitVec.toNat_ofInt,
    ← Width.card_eq, ← Size.card_eq, Nat.mod_eq_of_lt hlt, span, card]

/-- Computed in machine words, the value is the same. -/
theorem map_wordImage? (low high : Int) (v : BitVec t.width.size.bits) :
    (t.wordImage? (t.word low) (t.word high) v).map t.number = t.image? low high v.toNat := by
  have hspan := t.toNat_wordSpan low high
  have hzero : t.wordSpan (t.word low) (t.word high) = 0#t.width.size.bits ↔
      t.span low high = 0 := by
    rw [← hspan, ← BitVec.toNat_inj, BitVec.toNat_zero]
  have hlower := toNat_lowerHalf v (t.wordSpan (t.word low) (t.word high))
  have hupper := toNat_upperHalf v (t.wordSpan (t.word low) (t.word high))
  rw [hspan, ← Size.card_eq] at hlower hupper
  rw [wordImage?, image?, place?, hlower, hspan, setWidth_eq_word, setWidth_eq_word, hupper,
    word_add]
  by_cases hn : t.span low high = 0
  · rw [if_pos hn, if_pos (hzero.2 hn), Option.map_some, number_word]
  · rw [if_neg hn, if_neg (mt hzero.1 hn)]
    by_cases hcounts :
        v.toNat * t.span low high % t.width.size.card ≤ zone t.width (t.span low high)
    · rw [if_pos hcounts, if_pos hcounts, Option.map_some, Option.map_some, number_word]
    · rw [if_neg hcounts, if_neg hcounts, Option.map_none, Option.map_none]

end IntType

end SyntheticLog.Random
