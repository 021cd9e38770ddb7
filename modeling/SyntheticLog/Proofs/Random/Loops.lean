import SyntheticLog.Proofs.Random.Words

/-!
# The words of a loop of draws

What a draw takes from a source is told by words alone, so the same words in front of another source
give the same value.

* `Hands`: a source hands out some words and is then another.
* `bits_eq_ok_iff`: a number is drawn exactly where its words are handed out.
* `Tries`: the numbers that a loop tries, up to the one that it keeps.
* `firstPlaced_eq_ok_iff`: a loop gives a value exactly where the words of such numbers are handed out.
-/

set_option autoImplicit false

namespace SyntheticLog.Random

variable {σ : Type} [WordSource σ]

/-! ## Words handed out -/

/-- The source hands out the words in order and is then the second one. -/
inductive Hands : σ → List UInt32 → σ → Prop
  | nil (s : σ) : Hands s [] s
  | cons {s t u : σ} {w : UInt32} {ws : List UInt32} (head : WordSource.next? s = some (w, t))
    (tail : Hands t ws u) : Hands s (w :: ws) u

theorem hands_nil_iff {s t : σ} : Hands s [] t ↔ t = s := by
  constructor
  · intro h
    cases h
    rfl
  · intro h
    rw [h]
    exact .nil s

theorem hands_cons_iff {s u : σ} {w : UInt32} {ws : List UInt32} :
    Hands s (w :: ws) u ↔ ∃ t, WordSource.next? s = some (w, t) ∧ Hands t ws u := by
  constructor
  · intro h
    cases h with
    | cons head tail => exact ⟨_, head, tail⟩
  · intro h
    obtain ⟨t, head, tail⟩ := h
    exact .cons head tail

theorem hands_append_iff {s u : σ} {vs ws : List UInt32} :
    Hands s (vs ++ ws) u ↔ ∃ t, Hands s vs t ∧ Hands t ws u := by
  induction vs generalizing s with
  | nil => simp [hands_nil_iff]
  | cons v vs ih =>
    simp only [List.cons_append, hands_cons_iff, ih]
    constructor
    · intro h
      obtain ⟨r, hr, t, ht, hu⟩ := h
      exact ⟨t, ⟨r, hr, ht⟩, hu⟩
    · intro h
      obtain ⟨t, ⟨r, hr, ht⟩, hu⟩ := h
      exact ⟨r, hr, t, ht, hu⟩

/-- A list hands out the words that it begins with. -/
theorem hands_list_iff {vs ws us : List UInt32} : Hands vs ws us ↔ vs = ws ++ us := by
  induction ws generalizing vs with
  | nil => simp [hands_nil_iff, eq_comm]
  | cons w ws ih =>
    rw [hands_cons_iff]
    cases vs with
    | nil => simp
    | cons v vs => simp [ih]

/-! ## Numbers -/

theorem word_eq_ok_iff {s t : σ} {w : UInt32} : word s = .ok w t ↔ Hands s [w] t := by
  simp only [word, hands_cons_iff, hands_nil_iff]
  cases h : WordSource.next? s with
  | none => simp
  | some p =>
    obtain ⟨v, r⟩ := p
    simp [eq_comm]

omit [WordSource σ] in
theorem bind_eq_ok_iff {α β : Type} {d : Draw σ α} {f : α → Draw σ β} {s t : σ} {y : β} :
    (d >>= f) s = .ok y t ↔ ∃ x r, d s = .ok x r ∧ f x r = .ok y t := by
  simp only [bind, EStateM.bind]
  cases d s with
  | error e r => simp
  | ok x r =>
    constructor
    · intro h
      exact ⟨x, r, rfl, h⟩
    · intro h
      obtain ⟨x', r', heq, h⟩ := h
      cases heq
      exact h

omit [WordSource σ] in
theorem pure_eq_ok_iff {α : Type} {x y : α} {s t : σ} :
    (pure x : Draw σ α) s = .ok y t ↔ x = y ∧ s = t := by
  simp [pure, EStateM.pure]

theorem words_word64_iff {low high : UInt32} {v : Nat} :
    low.toNat + Size.word32.card * high.toNat = v ↔
      v < Size.word64.card ∧ [low, high] = Size.word64.words v := by
  have hlow := low.toNat_lt
  have hhigh := high.toNat_lt
  simp only [Size.words, Size.card, List.cons.injEq, and_true, ← UInt32.toNat_inj,
    UInt32.toNat_ofNat']
  omega

/-- A number is drawn where its words are handed out. -/
theorem bits_eq_ok_iff {size : Size} {s t : σ} {v : Nat} :
    bits size s = .ok v t ↔ v < size.card ∧ Hands s (size.words v) t := by
  cases size with
  | word32 =>
    simp only [bits, bind_eq_ok_iff, pure_eq_ok_iff, word_eq_ok_iff]
    constructor
    · intro h
      obtain ⟨w, r, hw, rfl, rfl⟩ := h
      refine ⟨w.toNat_lt, ?_⟩
      rw [Size.words, UInt32.ofNat_toNat]
      exact hw
    · intro h
      obtain ⟨hv, hw⟩ := h
      exact ⟨_, t, hw, UInt32.toNat_ofNat_of_lt' hv, rfl⟩
  | word64 =>
    simp only [bits, bind_eq_ok_iff, pure_eq_ok_iff, word_eq_ok_iff]
    constructor
    · intro h
      obtain ⟨low, r, hlow, high, u, hhigh, hv, rfl⟩ := h
      obtain ⟨hlt, hwords⟩ := words_word64_iff.1 hv
      rw [← hwords]
      exact ⟨hlt, hands_append_iff.2 ⟨r, hlow, hhigh⟩⟩
    · intro h
      obtain ⟨hv, hwords⟩ := h
      rw [Size.words, ← List.singleton_append] at hwords
      obtain ⟨r, hlow, hhigh⟩ := hands_append_iff.1 hwords
      exact ⟨_, r, hlow, _, t, hhigh, words_word64_iff.2 ⟨hv, rfl⟩, rfl⟩

/-- The words of a number tell the number, whatever stands behind them. -/
theorem words_append_inj {size : Size} {v v' : Nat} {ws ws' : List UInt32} (hv : v < size.card)
    (hv' : v' < size.card) (h : size.words v ++ ws = size.words v' ++ ws') : v = v' ∧ ws = ws' := by
  have hdraw := bits_words hv ws
  rw [h, bits_words hv' ws'] at hdraw
  cases hdraw
  exact ⟨rfl, rfl⟩

/-! ## Loops -/

variable {α : Type} {size : Size} {test : Nat → Option α} {x : α}

/-- A loop tries these numbers in order, drops all but the last, and gives `x` for that one. -/
inductive Tries (size : Size) (test : Nat → Option α) : List Nat → α → Prop
  | keep {v : Nat} {x : α} (bound : v < size.card) (kept : test v = some x) : Tries size test [v] x
  | drop {v : Nat} {vs : List Nat} {x : α} (bound : v < size.card) (dropped : test v = none)
    (rest : Tries size test vs x) : Tries size test (v :: vs) x

theorem Tries.length_pos {vs : List Nat} (h : Tries size test vs x) : 0 < vs.length := by
  cases h <;> simp

theorem tries_iff {vs : List Nat} :
    Tries size test vs x ↔ ∃ us v, vs = us ++ [v] ∧ (∀ u ∈ us, u < size.card ∧ test u = none) ∧
      v < size.card ∧ test v = some x := by
  constructor
  · intro h
    induction h with
    | @keep v x bound kept => exact ⟨[], v, rfl, by simp, bound, kept⟩
    | @drop v vs x bound dropped rest ih =>
      obtain ⟨us, w, rfl, hus, hw⟩ := ih
      exact ⟨v :: us, w, rfl, List.forall_mem_cons.2 ⟨⟨bound, dropped⟩, hus⟩, hw⟩
  · intro h
    obtain ⟨us, v, rfl, hus, hv, hx⟩ := h
    induction us with
    | nil => exact .keep hv hx
    | cons u us ih =>
      obtain ⟨⟨hu, hnone⟩, hus⟩ := List.forall_mem_cons.1 hus
      exact .drop hu hnone (ih hus)

theorem tries_of_firstPlaced {s t : σ} (h : firstPlaced size test s = .ok x t) :
    ∃ vs, Tries size test vs x ∧ Hands s (vs.flatMap size.words) t := by
  fun_induction firstPlaced size test s with
  | case1 s e s' hbits => cases h
  | case2 s v s' hbits y hy =>
    cases h
    obtain ⟨hv, hwords⟩ := bits_eq_ok_iff.1 hbits
    refine ⟨[v], .keep hv hy, ?_⟩
    rw [List.flatMap_singleton]
    exact hwords
  | case3 s v s' hbits hnone ih =>
    obtain ⟨hv, hwords⟩ := bits_eq_ok_iff.1 hbits
    obtain ⟨vs, hvs, hrest⟩ := ih h
    refine ⟨v :: vs, .drop hv hnone hvs, ?_⟩
    rw [List.flatMap_cons]
    exact hands_append_iff.2 ⟨s', hwords, hrest⟩

theorem firstPlaced_of_tries {s t : σ} {vs : List Nat} (h : Tries size test vs x)
    (hwords : Hands s (vs.flatMap size.words) t) : firstPlaced size test s = .ok x t := by
  induction h generalizing s with
  | keep bound kept =>
    rw [List.flatMap_singleton] at hwords
    exact firstPlaced_of_some (bits_eq_ok_iff.2 ⟨bound, hwords⟩) kept
  | drop bound dropped rest ih =>
    rw [List.flatMap_cons] at hwords
    obtain ⟨r, hfirst, hrest⟩ := hands_append_iff.1 hwords
    rw [firstPlaced_of_none (bits_eq_ok_iff.2 ⟨bound, hfirst⟩) dropped]
    exact ih hrest

/-- A loop gives a value where the words of the numbers that lead to it are handed out. -/
theorem firstPlaced_eq_ok_iff {s t : σ} :
    firstPlaced size test s = .ok x t ↔
      ∃ vs, Tries size test vs x ∧ Hands s (vs.flatMap size.words) t := by
  constructor
  · exact tries_of_firstPlaced
  · intro h
    obtain ⟨vs, hvs, hwords⟩ := h
    exact firstPlaced_of_tries hvs hwords

/-- The words in front of a source tell which numbers a loop tries. -/
theorem Tries.unique {vs vs' : List Nat} {x' : α} {ws ws' : List UInt32} (h : Tries size test vs x)
    (h' : Tries size test vs' x')
    (hwords : vs.flatMap size.words ++ ws = vs'.flatMap size.words ++ ws') :
    vs = vs' ∧ x = x' ∧ ws = ws' := by
  induction h generalizing vs' with
  | @keep v x bound kept =>
    cases h' with
    | @keep v' x' bound' kept' =>
      rw [List.flatMap_singleton, List.flatMap_singleton] at hwords
      obtain ⟨rfl, rfl⟩ := words_append_inj bound bound' hwords
      rw [kept] at kept'
      exact ⟨rfl, Option.some.inj kept', rfl⟩
    | drop bound' dropped' rest' =>
      -- The first number is the same, and one loop would keep what the other drops.
      rw [List.flatMap_singleton, List.flatMap_cons, List.append_assoc] at hwords
      obtain ⟨rfl, -⟩ := words_append_inj bound bound' hwords
      rw [kept] at dropped'
      cases dropped'
  | @drop v vs x bound dropped rest ih =>
    cases h' with
    | keep bound' kept' =>
      rw [List.flatMap_singleton, List.flatMap_cons, List.append_assoc] at hwords
      obtain ⟨rfl, -⟩ := words_append_inj bound bound' hwords
      rw [dropped] at kept'
      cases kept'
    | drop bound' dropped' rest' =>
      rw [List.flatMap_cons, List.flatMap_cons, List.append_assoc, List.append_assoc] at hwords
      obtain ⟨rfl, hrest⟩ := words_append_inj bound bound' hwords
      obtain ⟨rfl, hx, hws⟩ := ih rest' hrest
      exact ⟨rfl, hx, hws⟩

end SyntheticLog.Random
