/-!
# Sources of random words

A source hands out 32-bit words one at a time and may come to an end.

* `WordSource`: a source with a measure of the words left, which every word taken lowers.
* `Draw`: a computation that takes words from a source; it ends with a value or with a `Stop`, and
  either way leaves the source just after the last word that it took.
* `word`, `bits`: one word, and one unsigned number of 32 or 64 bits.
* `firstPlaced`: repeated draws up to the first one that a test places.
-/

set_option autoImplicit false

namespace SyntheticLog.Random

class WordSource (σ : Type) where
  /-- The next word and the source behind it. -/
  next? : σ → Option (UInt32 × σ)
  /-- A bound on the words still to come. -/
  left : σ → Nat
  left_lt : ∀ {s s' : σ} {w : UInt32}, next? s = some (w, s') → left s' < left s

inductive Stop
  /-- The bounds of a range are in the wrong order. -/
  | emptyRange
  /-- There is nothing in the pool to pick from. -/
  | emptyPool
  | outOfWords
  deriving DecidableEq, Repr

def Stop.message : Stop → String
  | .emptyRange => "empty integer range"
  | .emptyPool => "cannot sample empty range"
  | .outOfWords => "no random words are left"

abbrev Draw (σ α : Type) : Type := EStateM Stop σ α

/-! ## Lists of words -/

/-- A list of words is the source that hands them out in order. -/
instance : WordSource (List UInt32) where
  next?
    | [] => none
    | w :: ws => some (w, ws)
  left := List.length
  left_lt {s s' w} h := by
    cases s with
    | nil => simp at h
    | cons v vs =>
      simp only [Option.some.injEq, Prod.mk.injEq] at h
      simp [← h.2]

@[simp] theorem next?_nil : WordSource.next? ([] : List UInt32) = none := rfl

@[simp] theorem next?_cons (w : UInt32) (ws : List UInt32) :
    WordSource.next? (w :: ws) = some (w, ws) := rfl

variable {σ : Type} [WordSource σ]

/-! ## Single draws -/

/-- The next word, left in place. -/
def peek? (s : σ) : Option UInt32 := (WordSource.next? s).map (·.1)

def word : Draw σ UInt32 := fun s =>
  match WordSource.next? s with
  | some (w, s') => .ok w s'
  | none => .error .outOfWords s

def skip : Nat → Draw σ Unit
  | 0 => pure ()
  | n + 1 => do
    let _ ← word
    skip n

inductive Size
  | word32
  | word64
  deriving DecidableEq, Repr

def Size.card : Size → Nat
  | .word32 => 4294967296
  | .word64 => 18446744073709551616

/-- One number below `size.card`; of the two words of a long one the low half comes first. -/
def bits : Size → Draw σ Nat
  | .word32 => do
    let w ← word
    return w.toNat
  | .word64 => do
    let low ← word
    let high ← word
    return low.toNat + Size.word32.card * high.toNat

theorem bits_word32_cons (w : UInt32) (ws : List UInt32) :
    bits .word32 (w :: ws) = .ok w.toNat ws := rfl

theorem bits_word64_cons (low high : UInt32) (ws : List UInt32) :
    bits .word64 (low :: high :: ws) = .ok (low.toNat + Size.word32.card * high.toNat) ws := rfl

theorem left_word {s s' : σ} {w : UInt32} (h : word s = .ok w s') :
    WordSource.left s' < WordSource.left s := by
  unfold word at h
  split at h
  · rename_i v t hv
    cases h
    exact WordSource.left_lt hv
  · cases h

theorem left_bits {size : Size} {s s' : σ} {v : Nat} (h : bits size s = .ok v s') :
    WordSource.left s' < WordSource.left s := by
  cases size with
  | word32 =>
    simp only [bits, bind, EStateM.bind] at h
    split at h
    · rename_i w t hw
      cases h
      exact left_word hw
    · cases h
  | word64 =>
    simp only [bits, bind, EStateM.bind] at h
    split at h
    · rename_i w t hw
      split at h
      · rename_i w' t' hw'
        cases h
        exact Nat.lt_trans (left_word hw') (left_word hw)
      · cases h
    · cases h

/-! ## Repeated draws -/

/-- Draws numbers until `test` places one; the numbers that it does not place are dropped. -/
def firstPlaced {α : Type} (size : Size) (test : Nat → Option α) : Draw σ α := fun s =>
  match _h : bits size s with
  | .error e s' => .error e s'
  | .ok v s' =>
    match test v with
    | some x => .ok x s'
    | none => firstPlaced size test s'
termination_by s => WordSource.left s
decreasing_by exact left_bits _h

theorem firstPlaced_of_error {α : Type} {size : Size} {test : Nat → Option α} {s s' : σ} {e : Stop}
    (h : bits size s = .error e s') : firstPlaced size test s = .error e s' := by
  rw [firstPlaced]
  split <;> simp_all

theorem firstPlaced_of_some {α : Type} {size : Size} {test : Nat → Option α} {s s' : σ} {v : Nat}
    {x : α} (h : bits size s = .ok v s') (hv : test v = some x) :
    firstPlaced size test s = .ok x s' := by
  rw [firstPlaced]
  split <;> simp_all

theorem firstPlaced_of_none {α : Type} {size : Size} {test : Nat → Option α} {s s' : σ} {v : Nat}
    (h : bits size s = .ok v s') (hv : test v = none) :
    firstPlaced size test s = firstPlaced size test s' := by
  rw [firstPlaced]
  split <;> simp_all

end SyntheticLog.Random
