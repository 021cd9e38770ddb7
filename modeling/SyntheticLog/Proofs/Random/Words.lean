import SyntheticLog.Proofs.Random.Bounds

/-!
# Draws from the words of numbers

A draw takes the words of the number that it needs and gives the value at the number's place.

* `Size.words`: the words of a number.
* `intRange_words`, `oneOf_words`: what a range and a pick give on them.
* `maybe_words`: a value on heads; on tails no words of its own are there.
-/

set_option autoImplicit false

namespace SyntheticLog.Random

variable {α β : Type}

/-! ## Numbers -/

/-- The words of a number; of two words the low half comes first. -/
def Size.words : Size → Nat → List UInt32
  | .word32, v => [UInt32.ofNat v]
  | .word64, v => [UInt32.ofNat v, UInt32.ofNat (v / Size.word32.card)]

theorem bits_words {size : Size} {v : Nat} (hv : v < size.card) (ws : List UInt32) :
    bits size (size.words v ++ ws) = .ok v ws := by
  cases size with
  | word32 =>
    have hword : (UInt32.ofNat v).toNat = v := UInt32.toNat_ofNat_of_lt' hv
    rw [Size.words, List.cons_append, List.nil_append, bits_word32_cons, hword]
  | word64 =>
    have hlow : (UInt32.ofNat v).toNat = v % Size.word32.card := UInt32.toNat_ofNat'
    have hhigh : (UInt32.ofNat (v / Size.word32.card)).toNat = v / Size.word32.card :=
      UInt32.toNat_ofNat_of_lt' (by simp only [Size.card, UInt32.size] at *; omega)
    rw [Size.words, List.cons_append, List.cons_append, List.nil_append, bits_word64_cons, hlow,
      hhigh, Nat.mod_add_div]

theorem firstPlaced_words {size : Size} {test : Nat → Option α} {v : Nat} {x : α}
    (hv : v < size.card) (hx : test v = some x) (ws : List UInt32) :
    firstPlaced size test (size.words v ++ ws) = .ok x ws :=
  firstPlaced_of_some (bits_words hv ws) hx

/-! ## Ranges and picks -/

theorem bind_of_ok {σ : Type} {d : Draw σ α} {f : α → Draw σ β} {s s' : σ} {x : α}
    (h : d s = .ok x s') : (d >>= f) s = f x s' := by
  simp only [bind, EStateM.bind, h]

theorem intRange_words {t : IntType} {low high : Int} (hle : low ≤ high) (hlow : t.least ≤ low)
    (hhigh : high ≤ t.greatest) (hspan : 0 < t.span low high) {v k : Nat}
    (hv : v < t.width.size.card) (hk : place? t.width (t.span low high) v = some k)
    (ws : List UInt32) :
    intRange t low high (t.width.size.words v ++ ws) = .ok (low + k) ws := by
  obtain ⟨hzero, -⟩ | ⟨-, hwidth⟩ := IntType.span_cases hle hlow hhigh
  · omega
  have hlt := place?_lt hspan hv hk
  rw [intRange, if_neg (by omega), if_neg (by omega), bind_of_ok (firstPlaced_words hv hk ws),
    IntType.wrap_of_mem (by omega) (by omega)]
  rfl

theorem oneOf_words {pool : List α} {v k : Nat} {x : α} (hv : v < Size.word64.card)
    (hk : place? .w64 pool.length v = some k) (hx : pool[k]? = some x) (ws : List UInt32) :
    oneOf pool (Size.word64.words v ++ ws) = .ok x ws := by
  have hpos : pool.length ≠ 0 := by
    intro hnil
    rw [List.length_eq_zero_iff.1 hnil] at hx
    cases hx
  rw [oneOf, below, if_neg hpos, bind_of_ok (firstPlaced_words hv hk ws), hx]
  rfl

/-! ## Coins -/

/-- The words of a coin and of a value, which takes none on tails. -/
def maybeWords (size : Size) (p : Nat × Nat) : List UInt32 :=
  Size.word64.words p.1 ++ if 2 * p.1 < Size.word64.card then size.words p.2 else []

/-- The place of a value that is drawn on heads only. -/
def maybePlace? (w : Width) (n : Nat) (p : Nat × Nat) : Option Nat :=
  if 2 * p.1 < Size.word64.card then place? w n p.2 else none

theorem maybe_words {d : Draw (List UInt32) α} {value : Nat → α} {w : Width} {n : Nat}
    {p : Nat × Nat} (hcoin : p.1 < Size.word64.card) (hcounts : (place? w n p.2).isSome)
    (hd : ∀ k ws, place? w n p.2 = some k → d (w.size.words p.2 ++ ws) = .ok (value k) ws)
    (ws : List UInt32) :
    maybe d (maybeWords w.size p ++ ws) = .ok ((maybePlace? w n p).map value) ws := by
  have hflip (vs : List UInt32) :
      coinFlip (Size.word64.words p.1 ++ vs) = .ok (decide (2 * p.1 < Size.word64.card)) vs := by
    rw [coinFlip, bind_of_ok (bits_words hcoin vs)]
    rfl
  obtain ⟨k, hk⟩ := Option.isSome_iff_exists.1 hcounts
  rw [maybe, maybeWords, maybePlace?, List.append_assoc, bind_of_ok (hflip _)]
  by_cases hheads : 2 * p.1 < Size.word64.card
  · rw [if_pos hheads, if_pos hheads, decide_eq_true hheads, if_pos rfl, bind_of_ok (hd k ws hk), hk]
    rfl
  · rw [if_neg hheads, if_neg hheads, decide_eq_false hheads, if_neg Bool.false_ne_true]
    rfl

end SyntheticLog.Random
