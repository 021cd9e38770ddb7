import Mathlib.Algebra.BigOperators.Group.Finset.Basic
import Mathlib.Algebra.Order.Floor.Div
import Mathlib.Order.Interval.Finset.Nat
import SyntheticLog.Proofs.Random.Words

/-!
# Equal shares

The numbers that count are shared out evenly among the places, and a coin has as many numbers for
heads as for tails.

* `exists_share`: the zone leaves room for the same number of multiples at each place.
* `placed`, `card_placed`: the numbers at one place, and how many they are.
* `counting`, `card_counting`: the numbers that count.
* `card_heads`, `card_tails`: the numbers of a coin.
-/

set_option autoImplicit false

namespace SyntheticLog.Random

open Finset

/-! ## Numbers -/

/-- The numbers of a size. -/
-- It stays folded: with a size put in, all its numbers would be listed.
@[irreducible] def Size.numbers (size : Size) : Finset Nat := range size.card

theorem mem_numbers {size : Size} {v : Nat} : v ∈ size.numbers ↔ v < size.card := by
  rw [Size.numbers, mem_range]

/-! ## Multiples in an interval -/

/-- An interval whose length is `c` times `n` holds `c` multiples of `n`. -/
theorem card_multiples {n : Nat} (hn : 0 < n) (m start c : Nat) (hm : start + n * c ≤ n * m) :
    #{v ∈ range m | start ≤ v * n ∧ v * n < start + n * c} = c := by
  have hceil (v : Nat) : start ⌈/⌉ n ≤ v ↔ start ≤ v * n := by
    rw [ceilDiv_le_iff_le_mul hn, Nat.mul_comm]
  have hset : {v ∈ range m | start ≤ v * n ∧ v * n < start + n * c} =
      Ico (start ⌈/⌉ n) (start ⌈/⌉ n + c) := by
    ext v
    rw [mem_filter, mem_range, mem_Ico, hceil]
    -- the upper end is the lower end moved by `c` multiples; below `c` there is nothing to move back
    have hshift : v * n < start + n * c ↔ v < start ⌈/⌉ n + c := by
      rcases Nat.lt_or_ge v c with hv | hv
      · have hmul : v * n < c * n := Nat.mul_lt_mul_of_pos_right hv hn
        rw [Nat.mul_comm n c]
        omega
      · have hsub := hceil (v - c)
        rw [Nat.sub_mul] at hsub
        have hmul : c * n ≤ v * n := Nat.mul_le_mul_right n hv
        rw [Nat.mul_comm n c]
        omega
    have hrange : v * n < start + n * c → v < m := by
      intro hv
      exact Nat.lt_of_mul_lt_mul_left (a := n) (by rw [Nat.mul_comm n v]; omega)
    tauto
  rw [hset, Nat.card_Ico]
  omega

/-! ## Places -/

theorem exists_share_of_mod {card n : Nat} (hpos : 0 < n) (hn : n < card) :
    ∃ c, 0 < c ∧ card - 1 - (card - n) % n + 1 = n * c ∧ n * c ≤ card ∧ card ≤ 2 * (n * c) := by
  have hmod : (card - n) % n = card % n := by rw [← Nat.mod_eq_sub_mod hn.le]
  have hdiv := Nat.div_add_mod card n
  have hlt := Nat.mod_lt card hpos
  have hshare := Nat.div_pos hn.le hpos
  have hmul : n * 1 ≤ n * (card / n) := Nat.mul_le_mul_left n hshare
  exact ⟨card / n, hshare, by omega, by omega, by omega⟩

theorem exists_share_of_shift (bits : Nat) {n : Nat} (hpos : 0 < n) (hn : n < 2 ^ bits) :
    ∃ c, 0 < c ∧ n <<< (bits - 1 - n.log2) - 1 + 1 = n * c ∧ n * c ≤ 2 ^ bits ∧
      2 ^ bits ≤ 2 * (n * c) := by
  have hself : 2 ^ n.log2 ≤ n := Nat.log2_self_le (by omega)
  have hlog : n.log2 < bits := (Nat.pow_lt_pow_iff_right (a := 2) (by omega)).1 (by omega)
  have hshift : 0 < 2 ^ (bits - 1 - n.log2) := Nat.two_pow_pos _
  have hmul := Nat.mul_pos hpos hshift
  have hall : 2 ^ (n.log2 + 1) * 2 ^ (bits - 1 - n.log2) = 2 ^ bits := by
    rw [← Nat.pow_add]
    congr 1
    omega
  refine ⟨2 ^ (bits - 1 - n.log2), hshift, ?_, ?_, ?_⟩
  · rw [Nat.shiftLeft_eq]
    omega
  · rw [← hall]
    exact Nat.mul_le_mul_right _ Nat.lt_log2_self.le
  · rw [← hall, Nat.pow_succ', Nat.mul_assoc]
    exact Nat.mul_le_mul_left 2 (Nat.mul_le_mul_right _ hself)

/-- The zone leaves the same share for each place, and at least half of the numbers in all. -/
theorem exists_share (w : Width) {n : Nat} (hpos : 0 < n) (hn : n < w.size.card) :
    ∃ c, 0 < c ∧ zone w n + 1 = n * c ∧ n * c ≤ w.size.card ∧ w.size.card ≤ 2 * (n * c) := by
  cases w with
  | w8 => exact exists_share_of_mod hpos hn
  | w16 => exact exists_share_of_mod hpos hn
  | w32 => exact exists_share_of_shift 32 hpos hn
  | w64 => exact exists_share_of_shift 64 hpos hn

/-- The numbers that fall on a place. -/
def placed (w : Width) (n k : Nat) : Finset Nat := {v ∈ w.size.numbers | place? w n v = some k}

/-- The numbers that count. -/
def counting (w : Width) (n : Nat) : Finset Nat := {v ∈ w.size.numbers | (place? w n v).isSome}

theorem mem_counting {w : Width} {n v : Nat} :
    v ∈ counting w n ↔ v < w.size.card ∧ (place? w n v).isSome := by
  rw [counting, mem_filter, mem_numbers]

theorem filter_counting {w : Width} {n k : Nat} :
    {v ∈ counting w n | place? w n v = some k} = placed w n k := by
  ext v
  rw [mem_filter, mem_counting, placed, mem_filter, mem_numbers]
  constructor
  · rintro ⟨⟨hv, -⟩, hk⟩
    exact ⟨hv, hk⟩
  · rintro ⟨hv, hk⟩
    exact ⟨⟨hv, by rw [hk]; rfl⟩, hk⟩

theorem place?_eq_some_iff {w : Width} {n v k : Nat} :
    place? w n v = some k ↔
      w.size.card * k ≤ v * n ∧ v * n < w.size.card * k + (zone w n + 1) ∧
        v * n < w.size.card * (k + 1) := by
  have hpos : 0 < w.size.card := by cases w <;> decide
  have hdiv := Nat.div_add_mod (v * n) w.size.card
  have hlt := Nat.mod_lt (v * n) hpos
  rw [place?]
  constructor
  · intro h
    split at h
    · cases h
      rw [Nat.mul_succ]
      omega
    · cases h
  · rintro ⟨hlow, hzone, hhigh⟩
    rw [Nat.mul_comm w.size.card] at hlow hhigh
    have hk : v * n / w.size.card = k := Nat.div_eq_of_lt_le hlow hhigh
    rw [hk, Nat.mul_comm w.size.card] at hdiv
    rw [Nat.mul_comm w.size.card] at hzone
    rw [hk, if_pos (by omega)]

theorem card_placed {w : Width} {n c k : Nat} (hk : k < n) (hzone : zone w n + 1 = n * c)
    (hle : n * c ≤ w.size.card) : #(placed w n k) = c := by
  have hset : placed w n k =
      {v ∈ range w.size.card | w.size.card * k ≤ v * n ∧ v * n < w.size.card * k + n * c} := by
    rw [placed, Size.numbers]
    apply filter_congr
    intro v hv
    rw [place?_eq_some_iff, hzone, Nat.mul_succ]
    omega
  have hend : w.size.card * k + n * c ≤ n * w.size.card := by
    have hmul := Nat.mul_le_mul_left w.size.card hk
    rw [Nat.mul_succ, Nat.mul_comm w.size.card n] at hmul
    omega
  rw [hset]
  exact card_multiples (by omega) _ _ _ hend

/-- Each place gets the same share of the numbers. -/
theorem exists_card_placed (w : Width) {n : Nat} (hpos : 0 < n) (hn : n < w.size.card) :
    ∃ c, 0 < c ∧ ∀ k < n, #(placed w n k) = c := by
  obtain ⟨c, hc, hzone, hle, -⟩ := exists_share w hpos hn
  exact ⟨c, hc, fun k hk => card_placed hk hzone hle⟩

/-- All places together. -/
theorem card_counting {w : Width} {n c : Nat} (hn : 0 < n) (hzone : zone w n + 1 = n * c)
    (hle : n * c ≤ w.size.card) : #(counting w n) = n * c := by
  have hset : counting w n = (range n).biUnion (placed w n) := by
    ext v
    simp only [counting, placed, mem_filter, mem_biUnion, mem_range, mem_numbers]
    constructor
    · rintro ⟨hv, hsome⟩
      obtain ⟨k, hk⟩ := Option.isSome_iff_exists.1 hsome
      exact ⟨k, place?_lt hn hv hk, hv, hk⟩
    · rintro ⟨k, -, hv, hk⟩
      exact ⟨hv, by rw [hk]; rfl⟩
  rw [hset, card_biUnion]
  · rw [sum_congr rfl fun k hk => card_placed (mem_range.1 hk) hzone hle, sum_const, card_range,
      smul_eq_mul]
  · intro j _ k _ hjk
    rw [Function.onFun, disjoint_left]
    intro v hj hk
    have hj' := (mem_filter.1 hj).2
    rw [(mem_filter.1 hk).2] at hj'
    exact hjk (Option.some.inj hj').symm

/-! ## Coins -/

/-- The numbers on which a coin comes up heads. -/
def heads : Finset Nat := {v ∈ Size.word64.numbers | 2 * v < Size.word64.card}

def tails : Finset Nat := {v ∈ Size.word64.numbers | ¬2 * v < Size.word64.card}

theorem card_heads : heads.card = Size.word64.card / 2 := by
  have hset : heads = range (Size.word64.card / 2) := by
    ext v
    rw [heads, mem_filter, mem_numbers, mem_range]
    simp only [Size.card]
    omega
  rw [hset, card_range]

theorem card_tails : tails.card = Size.word64.card / 2 := by
  have hset : tails = Ico (Size.word64.card / 2) Size.word64.card := by
    ext v
    rw [tails, mem_filter, mem_numbers, mem_Ico]
    simp only [Size.card]
    omega
  rw [hset, Nat.card_Ico]
  rfl

/-! ## Counting coins with values -/

/-- The coins with a value that counts. -/
def maybes (w : Width) (n : Nat) : Finset (Nat × Nat) := Size.word64.numbers ×ˢ counting w n

theorem mem_maybes {w : Width} {n : Nat} {p : Nat × Nat} :
    p ∈ maybes w n ↔ p.1 < Size.word64.card ∧ p.2 < w.size.card ∧ (place? w n p.2).isSome := by
  rw [maybes, mem_product, mem_numbers, mem_counting]

theorem maybePlace?_eq_some_iff {w : Width} {n k : Nat} {p : Nat × Nat} :
    maybePlace? w n p = some k ↔ 2 * p.1 < Size.word64.card ∧ place? w n p.2 = some k := by
  rw [maybePlace?]
  split <;> simp_all

theorem maybePlace?_lt {w : Width} {n k : Nat} {p : Nat × Nat} (hn : 0 < n) (hp : p ∈ maybes w n)
    (hk : maybePlace? w n p = some k) : k < n :=
  place?_lt hn (mem_maybes.1 hp).2.1 (maybePlace?_eq_some_iff.1 hk).2

theorem maybePlace?_eq_none_iff {w : Width} {n : Nat} {p : Nat × Nat} (hp : p ∈ maybes w n) :
    maybePlace? w n p = none ↔ ¬2 * p.1 < Size.word64.card := by
  have hsome := Option.isSome_iff_ne_none.1 (mem_maybes.1 hp).2.2
  rw [maybePlace?]
  split <;> simp_all

/-- On tails no value is drawn, so all `n` places fall together. -/
theorem exists_card_maybes (w : Width) {n : Nat} (hpos : 0 < n) (hn : n < w.size.card) :
    ∃ c, 0 < c ∧ ∀ o : Option Nat, (∀ k, o = some k → k < n) →
      #{p ∈ maybes w n | maybePlace? w n p = o} = c * if o = none then n else 1 := by
  obtain ⟨c, hc, hzone, hle, -⟩ := exists_share w hpos hn
  refine ⟨Size.word64.card / 2 * c, Nat.mul_pos (by decide) hc, fun o ho => ?_⟩
  cases o with
  | none =>
    have hset : {p ∈ maybes w n | maybePlace? w n p = none} = tails ×ˢ counting w n := by
      rw [filter_congr fun p hp => maybePlace?_eq_none_iff hp]
      exact filter_product_left fun v => ¬2 * v < Size.word64.card
    rw [hset, card_product, card_tails, card_counting hpos hzone hle, if_pos rfl, Nat.mul_comm n c,
      Nat.mul_assoc]
  | some k =>
    have hset : {p ∈ maybes w n | maybePlace? w n p = some k} = heads ×ˢ placed w n k := by
      ext p
      rw [mem_filter, maybePlace?_eq_some_iff, maybes, mem_product, mem_product, heads, placed,
        counting, mem_filter, mem_filter, mem_filter]
      constructor
      · rintro ⟨⟨hcoin, hv, -⟩, hheads, hk⟩
        exact ⟨⟨hcoin, hheads⟩, hv, hk⟩
      · rintro ⟨⟨hcoin, hheads⟩, hv, hk⟩
        exact ⟨⟨hcoin, hv, by rw [hk]; rfl⟩, hheads, hk⟩
    rw [hset, card_product, card_heads, card_placed (ho k rfl) hzone hle, if_neg (by simp),
      Nat.mul_one]

end SyntheticLog.Random
