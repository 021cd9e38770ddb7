import SyntheticLog.Random.Choice

/-!
# What draws give

A draw of a value in bounds stays in them, and only the end of the source stops it.

* `Gives`: all values of a draw have a property, and it stops at the end of the source only.
* `IntType.wrap_of_mem`: arithmetic inside a type does not wrap.
* `gives_intRange`, `gives_below`, `gives_oneOf`, `gives_maybe`: the draws.
-/

set_option autoImplicit false

namespace SyntheticLog.Random

/-! ## Properties of all values -/

def Gives {σ α : Type} (d : Draw σ α) (P : α → Prop) : Prop :=
  ∀ s, match d s with
    | .ok x _ => P x
    | .error e _ => e = .outOfWords

section Rules
variable {σ α β : Type} {d : Draw σ α} {P : α → Prop}

theorem Gives.ok (h : Gives d P) {s s' : σ} {x : α} (hx : d s = .ok x s') : P x := by
  have hs := h s
  rw [hx] at hs
  exact hs

theorem Gives.error (h : Gives d P) {s s' : σ} {e : Stop} (he : d s = .error e s') :
    e = .outOfWords := by
  have hs := h s
  rw [he] at hs
  exact hs

theorem gives_pure {x : α} (h : P x) : Gives (pure x : Draw σ α) P := fun _ => h

theorem Gives.bind {f : α → Draw σ β} {R : β → Prop} (h : Gives d P)
    (hf : ∀ x, P x → Gives (f x) R) : Gives (d >>= f) R := by
  intro s
  simp only [Bind.bind, EStateM.bind]
  cases hd : d s with
  | ok x s' => exact hf x (h.ok hd) s'
  | error e s' => exact h.error hd

end Rules

variable {σ : Type} [WordSource σ]

/-! ## Numbers -/

theorem gives_word : Gives (word : Draw σ UInt32) fun _ => True := by
  intro s
  unfold word
  cases WordSource.next? s with
  | none => rfl
  | some p => trivial

theorem gives_bits (size : Size) : Gives (bits size : Draw σ Nat) (· < size.card) := by
  cases size with
  | word32 => exact gives_word.bind fun w _ => gives_pure w.toNat_lt
  | word64 =>
    refine gives_word.bind fun low _ => gives_word.bind fun high _ => gives_pure ?_
    have hlow := low.toNat_lt
    have hhigh := high.toNat_lt
    simp only [Size.card]
    omega

/-- A loop of draws gives what its test places. -/
theorem gives_firstPlaced {α : Type} {size : Size} {test : Nat → Option α} {P : α → Prop}
    (h : ∀ v x, v < size.card → test v = some x → P x) :
    Gives (firstPlaced size test : Draw σ α) P := by
  intro s
  fun_induction firstPlaced size test s with
  | case1 s e s' hbits => exact (gives_bits size).error hbits
  | case2 s v s' hbits x hx => exact h v x ((gives_bits size).ok hbits) hx
  | case3 s v s' hbits hnone ih => exact ih

/-! ## Integers -/

namespace IntType

theorem greatest_eq (t : IntType) : t.greatest = t.least + t.card - 1 := by
  obtain ⟨signed, width⟩ := t
  cases signed <;> cases width <;> rfl

/-- Numbers of the type stand for themselves. -/
theorem wrap_of_mem {t : IntType} {x : Int} (hleast : t.least ≤ x) (hgreatest : x ≤ t.greatest) :
    t.wrap x = x := by
  obtain ⟨signed, width⟩ := t
  cases signed <;> cases width <;>
    simp [wrap, least, greatest, card, Width.card, Int.bmod] at * <;> omega

theorem least_le_wrap (t : IntType) (x : Int) : t.least ≤ t.wrap x := by
  obtain ⟨signed, width⟩ := t
  cases signed <;> cases width <;> simp [wrap, least, card, Width.card, Int.bmod] <;> omega

theorem wrap_le_greatest (t : IntType) (x : Int) : t.wrap x ≤ t.greatest := by
  obtain ⟨signed, width⟩ := t
  cases signed <;> cases width <;> simp [wrap, greatest, card, Width.card, Int.bmod] <;> omega

/-- Bounds of the type with no span between them are those of the whole type. -/
theorem span_cases {t : IntType} {low high : Int} (hle : low ≤ high) (hlow : t.least ≤ low)
    (hhigh : high ≤ t.greatest) :
    t.span low high = 0 ∧ low = t.least ∧ high = t.greatest ∨
      0 < t.span low high ∧ (t.span low high : Int) = high - low + 1 := by
  have hpos := t.card_pos
  have hgreatest := t.greatest_eq
  rw [span]
  by_cases hfull : high - low + 1 = t.card
  · left
    rw [hfull, Int.emod_self]
    exact ⟨rfl, by omega, by omega⟩
  · right
    rw [Int.emod_eq_of_lt (by omega) (by omega)]
    omega

end IntType

theorem place?_lt {w : Width} {count v k : Nat} (hcount : 0 < count) (hv : v < w.size.card)
    (h : place? w count v = some k) : k < count := by
  simp only [place?] at h
  split at h
  · cases h
    exact Nat.div_lt_of_lt_mul (Nat.mul_lt_mul_of_pos_right hv hcount)
  · cases h

theorem gives_intRange {t : IntType} {low high : Int} (hle : low ≤ high) (hlow : t.least ≤ low)
    (hhigh : high ≤ t.greatest) :
    Gives (intRange t low high : Draw σ Int) fun x => low ≤ x ∧ x ≤ high := by
  rw [intRange, if_neg (by omega)]
  rcases IntType.span_cases hle hlow hhigh with ⟨hzero, hleast, hgreatest⟩ | ⟨hpos, hspan⟩
  · rw [if_pos hzero, hleast, hgreatest]
    exact (gives_bits t.width.size).bind fun v _ =>
      gives_pure ⟨t.least_le_wrap v, t.wrap_le_greatest v⟩
  · rw [if_neg (by omega)]
    refine (gives_firstPlaced fun v k hv hk => place?_lt hpos hv hk).bind fun k hk => gives_pure ?_
    rw [IntType.wrap_of_mem (by omega) (by omega)]
    omega

/-! ## Picks and coins -/

theorem gives_below {count : Nat} (h : 0 < count) : Gives (below count : Draw σ Nat) (· < count) := by
  rw [below, if_neg (by omega)]
  exact gives_firstPlaced fun v k hv hk => place?_lt h hv hk

theorem gives_oneOf {α : Type} {pool : List α} (h : 0 < pool.length) :
    Gives (oneOf pool : Draw σ α) (· ∈ pool) := by
  refine (gives_below h).bind fun i hi => ?_
  rw [List.getElem?_eq_getElem hi]
  exact gives_pure (List.getElem_mem hi)

theorem gives_coinFlip : Gives (coinFlip : Draw σ Bool) fun _ => True :=
  (gives_bits .word64).bind fun _ _ => gives_pure trivial

theorem gives_maybe {α : Type} {d : Draw σ α} {P : α → Prop} (h : Gives d P) :
    Gives (maybe d) fun o => ∀ x, o = some x → P x := by
  refine gives_coinFlip.bind fun heads _ => ?_
  cases heads with
  | true =>
    refine h.bind fun x hx => gives_pure ?_
    intro y hy
    cases hy
    exact hx
  | false =>
    refine gives_pure ?_
    intro y hy
    cases hy

end SyntheticLog.Random
