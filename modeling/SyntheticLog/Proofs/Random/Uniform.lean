import SyntheticLog.Proofs.Random.Images

/-!
# Uniform ranges

All values of a range come from equally many numbers, and at least every second number counts. This
is so at each attempt of the loop, since all attempts make the same test.

* `card_residues`: equally many numbers for each remainder.
* `IntType.falling`, `IntType.counted`: the numbers that fall on a value, and those that fall on any.
* `intRange_uniform`: the shares of the values.
-/

set_option autoImplicit false

namespace SyntheticLog.Random

open Finset

/-! ## Shares -/

/-- Below a multiple of `m`, each remainder of division by `m` comes equally often. -/
theorem card_residues {m r : Nat} (hr : r < m) (q : Nat) : #{v ∈ range (q * m) | v % m = r} = q := by
  have hset : {v ∈ range (q * m) | v % m = r} = (range q).image fun j => m * j + r := by
    ext v
    rw [mem_filter, mem_range, mem_image]
    constructor
    · intro h
      obtain ⟨hv, hmod⟩ := h
      have hdiv := Nat.div_add_mod v m
      exact ⟨v / m, mem_range.2 (Nat.div_lt_of_lt_mul (by rwa [Nat.mul_comm])), by omega⟩
    · intro h
      obtain ⟨j, hj, rfl⟩ := h
      have hmul : m * (j + 1) ≤ m * q := Nat.mul_le_mul_left m (mem_range.1 hj)
      rw [Nat.mul_succ, Nat.mul_comm m q] at hmul
      exact ⟨by omega, by rw [Nat.mul_add_mod, Nat.mod_eq_of_lt hr]⟩
  have hinj : Function.Injective fun j => m * j + r := by
    intro i j hij
    have hmul : m * i = m * j := Nat.add_right_cancel hij
    exact Nat.eq_of_mul_eq_mul_left (by omega) hmul
  rw [hset, card_image_of_injective _ hinj, card_range]

/-! ## Numbers of a value -/

namespace IntType

def falling (t : IntType) (low high x : Int) : Finset Nat :=
  {v ∈ t.width.size.numbers | t.image? low high v = some x}

/-- The numbers that fall on a value of the range. -/
def counted (t : IntType) (low high : Int) : Finset Nat :=
  {v ∈ t.width.size.numbers | (t.image? low high v).isSome}

variable {t : IntType} {low high : Int}

theorem falling_of_lt (hle : low ≤ high) (hlow : t.least ≤ low) (hhigh : high ≤ t.greatest)
    (hlt : high - low + 1 < t.card) {x : Int} (hx : low ≤ x) :
    t.falling low high x = placed t.width (high - low + 1).toNat (x - low).toNat := by
  rw [falling, placed]
  apply filter_congr
  intro v hv
  rw [image?_of_lt hle hlow hhigh hlt (mem_numbers.1 hv), Option.map_eq_some_iff]
  constructor
  · intro h
    obtain ⟨k, hk, rfl⟩ := h
    rw [hk]
    congr 1
    omega
  · intro h
    exact ⟨_, h, by omega⟩

theorem counted_of_lt (hle : low ≤ high) (hlow : t.least ≤ low) (hhigh : high ≤ t.greatest)
    (hlt : high - low + 1 < t.card) :
    t.counted low high = counting t.width (high - low + 1).toNat := by
  rw [counted, counting]
  apply filter_congr
  intro v hv
  rw [image?_of_lt hle hlow hhigh hlt (mem_numbers.1 hv), Option.isSome_map]

theorem wrap_eq_iff {x : Int} (hlow : t.least ≤ x) (hhigh : x ≤ t.greatest) (v : Nat) :
    t.wrap v = x ↔ v % t.card = (x % t.card).toNat := by
  obtain ⟨signed, width⟩ := t
  cases signed <;> cases width <;>
    simp [wrap, least, greatest, card, Width.card, Int.bmod] at * <;> omega

theorem falling_of_eq (heq : high - low + 1 = t.card) {x : Int} (hlow : t.least ≤ x)
    (hhigh : x ≤ t.greatest) : #(t.falling low high x) = t.width.size.card / t.card := by
  have hpos := t.card_pos
  have hmod := Int.emod_lt_of_pos x (b := t.card) (by omega)
  have hnonneg := Int.emod_nonneg x (b := t.card) (by omega)
  have hdvd : t.card ∣ t.width.size.card := by
    rw [card]
    cases t.width <;> decide
  -- Nothing is dropped, and numbers fall on the same value if they differ by a multiple of `t.card`.
  have hset : t.falling low high x =
      {v ∈ range (t.width.size.card / t.card * t.card) | v % t.card = (x % t.card).toNat} := by
    rw [falling, Size.numbers, Nat.div_mul_cancel hdvd]
    apply filter_congr
    intro v _
    rw [image?_of_eq heq, Option.some.injEq, wrap_eq_iff hlow hhigh]
  rw [hset]
  exact card_residues (by omega) _

theorem counted_of_eq (heq : high - low + 1 = t.card) :
    t.counted low high = t.width.size.numbers := by
  rw [counted]
  apply filter_true_of_mem
  intro v _
  rw [image?_of_eq heq]
  rfl

theorem card_div_eq (w : Width) : w.size.card / w.card = 2 ^ (w.size.bits - w.bits) := by
  cases w <;> rfl

theorem card_half_eq (size : Size) : size.card = 2 * 2 ^ (size.bits - 1) := by
  cases size <;> rfl

end IntType

/-! ## Uniform draws -/

/-- A draw from a range tries numbers until one counts. Short of the whole type, each value has the
same share `c` of the numbers, and at least half of all numbers count; if the range is the whole
type, all of them count and each value has the same share. -/
theorem intRange_uniform {t : IntType} {low high : Int} (hle : low ≤ high) (hlow : t.least ≤ low)
    (hhigh : high ≤ t.greatest) :
    (∀ {σ : Type} [WordSource σ],
      (intRange t low high : Draw σ Int) = firstPlaced t.width.size (t.image? low high)) ∧
    (high - low + 1 < t.card → ∃ c, 1 ≤ c ∧
      (∀ x, low ≤ x → x ≤ high → #(t.falling low high x) = c) ∧
      #(t.counted low high) = (high - low + 1).toNat * c ∧
      2 ^ (t.width.size.bits - 1) ≤ (high - low + 1).toNat * c) ∧
    (high - low + 1 = t.card → t.counted low high = t.width.size.numbers ∧
      ∀ x, low ≤ x → x ≤ high →
        #(t.falling low high x) = 2 ^ (t.width.size.bits - t.width.bits)) := by
  refine ⟨intRange_eq_firstPlaced t hle, ?_, ?_⟩
  · intro hlt
    have hcard : t.card ≤ t.width.size.card := t.width.card_le
    have hpos : 0 < (high - low + 1).toNat := by omega
    have hn : (high - low + 1).toNat < t.width.size.card := by omega
    obtain ⟨c, hc, hzone, hbound, hhalf⟩ := exists_share t.width hpos hn
    rw [IntType.card_half_eq] at hhalf
    refine ⟨c, hc, ?_, ?_, by omega⟩
    · intro x hx hxhigh
      rw [IntType.falling_of_lt hle hlow hhigh hlt hx]
      exact card_placed (by omega) hzone hbound
    · rw [IntType.counted_of_lt hle hlow hhigh hlt]
      exact card_counting hpos hzone hbound
  · intro heq
    refine ⟨IntType.counted_of_eq heq, ?_⟩
    intro x hx hxhigh
    rw [IntType.falling_of_eq heq (by omega) (by omega), IntType.card, IntType.card_div_eq]

/-- The numbers from -128 to 126, which are more than half of the signed type, and all of it. -/
theorem intRange_uniform_signed :
    (∃ c, 1 ≤ c ∧ (∀ x, -128 ≤ x → x ≤ 126 → #(IntType.falling ⟨true, .w8⟩ (-128) 126 x) = c) ∧
      #(IntType.counted ⟨true, .w8⟩ (-128) 126) = 255 * c ∧ 2147483648 ≤ 255 * c) ∧
    ∀ x, -128 ≤ x → x ≤ 127 → #(IntType.falling ⟨true, .w8⟩ (-128) 127 x) = 16777216 := by
  obtain ⟨-, hshares, -⟩ :=
    @intRange_uniform ⟨true, .w8⟩ (-128) 126 (by decide) (by decide) (by decide)
  obtain ⟨-, -, hwhole⟩ :=
    @intRange_uniform ⟨true, .w8⟩ (-128) 127 (by decide) (by decide) (by decide)
  exact ⟨hshares (by decide), (hwhole (by decide)).2⟩

end SyntheticLog.Random
