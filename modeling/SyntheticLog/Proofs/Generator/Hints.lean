import SyntheticLog.Proofs.Generator.Uses

/-!
# Hints of a batch

A batch is asked for its next record, or for one further on, in any order and past its end. What it
tells of the records still to come is their number, at every point of such a conversation.

* `Batch.skip`: a batch behind some of its records.
* `Batch.Request`, `Batch.askAll`: requests, and what they give one after the other.
* `Batch.askAll_of_none`, `Batch.askAll_of_some`: what is given, and where the batch is left.
* `Batch.Drains`: the records that come when `Batch.next?` is called until nothing comes.
* `Batch.hint_exact`: the hint is the number of these records, and a batch that gave nothing stays
  as it is.
-/

set_option autoImplicit false

namespace SyntheticLog

open SyntheticLog.Random

variable {σ : Type} [WordSource σ]

/-! ## Sources that stop -/

namespace Generator

theorem stop?_add_of_none {a : Nat} {g : Generator σ} (h : g.stop? a = none) (b : Nat) :
    g.stop? (a + b) = (g.advance a).stop? b := by
  induction a generalizing g with
  | zero => rw [Nat.zero_add, advance]
  | succ a ih =>
    rw [Nat.succ_add]
    cases hb : build g with
    | ok r g' =>
      rw [stop?_of_ok hb] at h
      rw [stop?_of_ok hb, advance_of_ok hb, ih h]
    | error e g' => simp [stop?_of_error hb] at h

theorem stop?_add_of_some {a : Nat} {g : Generator σ} {e : Stop} (h : g.stop? a = some e)
    (b : Nat) : g.stop? (a + b) = some e := by
  induction a generalizing g with
  | zero => simp [stop?] at h
  | succ a ih =>
    rw [Nat.succ_add]
    cases hb : build g with
    | ok r g' =>
      rw [stop?_of_ok hb] at h ⊢
      exact ih h
    | error d g' =>
      rw [stop?_of_error hb] at h ⊢
      exact h

end Generator

namespace Batch

/-! ## A batch behind some of its records -/

/-- The batch behind its next `k` records, or at its end if it has fewer. -/
def skip (k : Nat) (b : Batch σ) : Batch σ :=
  ⟨b.generator.advance (min k b.remaining), b.remaining - k⟩

/-- The cause for which the source stops within the next `k` records of the batch, if it does. -/
def stop? (k : Nat) (b : Batch σ) : Option Stop := b.generator.stop? (min k b.remaining)

/-- The records still to come. -/
def ahead (b : Batch σ) : List Record := b.generator.upcoming b.remaining

variable {b b' : Batch σ}

theorem skip_zero (b : Batch σ) : b.skip 0 = b := by
  simp [skip, Generator.advance]

theorem stop?_zero (b : Batch σ) : b.stop? 0 = none := by
  simp [stop?, Generator.stop?]

theorem stop?_of_end (h : b.remaining = 0) (k : Nat) : b.stop? k = none := by
  rw [stop?, h, Nat.min_zero, Generator.stop?]

theorem skip_of_end (h : b.remaining = 0) (k : Nat) : b.skip k = b := by
  obtain ⟨g, n⟩ := b
  obtain rfl : n = 0 := h
  simp [skip, Generator.advance]

theorem min_add_left (k l n : Nat) : min (k + l) n = min k n + min l (n - k) := by
  omega

theorem stop?_add_of_none {k : Nat} (h : b.stop? k = none) (l : Nat) :
    b.stop? (k + l) = (b.skip k).stop? l := by
  rw [stop?, min_add_left, Generator.stop?_add_of_none h, stop?, skip]

theorem stop?_add_of_some {k : Nat} {e : Stop} (h : b.stop? k = some e) (l : Nat) :
    b.stop? (k + l) = some e := by
  rw [stop?, min_add_left, Generator.stop?_add_of_some h]

theorem skip_add {k : Nat} (h : b.stop? k = none) (l : Nat) :
    b.skip (k + l) = (b.skip k).skip l := by
  have hlength := Generator.stop?_eq_none_iff.1 h
  rw [skip, min_add_left, Generator.advance_add hlength, Nat.sub_add_eq, skip, skip]

theorem ahead_skip {k : Nat} (h : b.stop? k = none) : (b.skip k).ahead = b.ahead.drop k := by
  have hlength := Generator.stop?_eq_none_iff.1 h
  have hsplit := Generator.upcoming_add hlength (b.remaining - k)
  have hall : min k b.remaining + (b.remaining - k) = b.remaining := by omega
  rw [hall] at hsplit
  rw [ahead, ahead, hsplit, skip]
  rcases Nat.le_total k b.remaining with hk | hk
  · rw [Nat.min_eq_left hk] at hlength ⊢
    rw [List.drop_left' hlength]
  · have hnone : b.remaining - k = 0 := by omega
    rw [hnone, Generator.upcoming, List.append_nil, List.drop_eq_nil_of_le]
    omega

/-- Every record that is passed is built. -/
theorem built_skip {k : Nat} (h : b.stop? k = none) :
    (b.skip k).generator.built + (b.skip k).remaining = b.generator.built + b.remaining := by
  have hlength := Generator.stop?_eq_none_iff.1 h
  simp only [skip, Generator.built_advance, hlength]
  omega

section Build
variable {g g' : Generator σ} {r : Record} {e : Stop}

theorem stop?_of_ok (h : Generator.build g = .ok r g') (k n : Nat) :
    stop? (k + 1) ⟨g, n + 1⟩ = stop? k ⟨g', n⟩ := by
  simp only [stop?, Nat.succ_min_succ, Generator.stop?_of_ok h]

theorem stop?_of_error (h : Generator.build g = .error e g') (k n : Nat) :
    stop? (k + 1) ⟨g, n + 1⟩ = some e := by
  simp only [stop?, Nat.succ_min_succ, Generator.stop?_of_error h]

theorem skip_of_ok (h : Generator.build g = .ok r g') (k n : Nat) :
    skip (k + 1) ⟨g, n + 1⟩ = skip k ⟨g', n⟩ := by
  simp only [skip, Nat.succ_min_succ, Generator.advance_of_ok h, Nat.succ_sub_succ]

theorem ahead_of_ok (h : Generator.build g = .ok r g') (n : Nat) :
    ahead ⟨g, n + 1⟩ = r :: ahead ⟨g', n⟩ := Generator.upcoming_of_ok h n

theorem next?_of_ok (h : Generator.build g = .ok r g') (n : Nat) :
    next? ⟨g, n + 1⟩ = .ok (some r) ⟨g', n⟩ := by
  simp only [next?, h]

theorem next?_of_error (h : Generator.build g = .error e g') (n : Nat) :
    next? ⟨g, n + 1⟩ = .error e ⟨g', n⟩ := by
  simp only [next?, h]

end Build

/-! ## One record further on -/

theorem nth?_of_end (h : b.remaining = 0) (index : Nat) : nth? index b = .ok none b := by
  obtain ⟨g, n⟩ := b
  obtain rfl : n = 0 := h
  cases index <;> rfl

theorem nth?_of_none {index : Nat} (h : b.stop? (index + 1) = none) :
    nth? index b = .ok b.ahead[index]? (b.skip (index + 1)) := by
  obtain ⟨g, n⟩ := b
  induction index generalizing g n with
  | zero =>
    cases n with
    | zero => rw [nth?_of_end rfl, skip_of_end rfl]; rfl
    | succ n =>
      cases hb : Generator.build g with
      | ok r g' =>
        rw [skip_of_ok hb, skip_zero, ahead_of_ok hb, List.getElem?_cons_zero]
        exact next?_of_ok hb n
      | error e g' => simp [stop?_of_error hb] at h
  | succ index ih =>
    cases n with
    | zero => rw [nth?_of_end rfl, skip_of_end rfl]; rfl
    | succ n =>
      cases hb : Generator.build g with
      | ok r g' =>
        rw [stop?_of_ok hb] at h
        rw [skip_of_ok hb, ahead_of_ok hb, List.getElem?_cons_succ, ← ih g' n h, nth?_succ]
        simp only [bind, EStateM.bind, next?_of_ok hb, Option.elim]
      | error e g' => simp [stop?_of_error hb] at h

theorem nth?_of_some {index : Nat} {e : Stop} (h : b.stop? (index + 1) = some e) :
    ∃ b', nth? index b = .error e b' := by
  obtain ⟨g, n⟩ := b
  cases n with
  | zero =>
    rw [stop?_of_end rfl] at h
    cases h
  | succ n =>
    induction index generalizing g n with
    | zero =>
      cases hb : Generator.build g with
      | ok r g' =>
        rw [stop?_of_ok hb, stop?_zero] at h
        cases h
      | error d g' =>
        rw [stop?_of_error hb] at h
        cases h
        exact ⟨_, next?_of_error hb n⟩
    | succ index ih =>
      cases hb : Generator.build g with
      | ok r g' =>
        rw [stop?_of_ok hb] at h
        cases n with
        | zero =>
          rw [stop?_of_end rfl] at h
          cases h
        | succ n =>
          obtain ⟨b', hb'⟩ := ih g' n h
          refine ⟨b', ?_⟩
          rw [nth?_succ]
          simp only [bind, EStateM.bind, next?_of_ok hb, Option.elim, hb']
      | error d g' =>
        rw [stop?_of_error hb] at h
        cases h
        refine ⟨⟨g', n⟩, ?_⟩
        rw [nth?_succ]
        simp only [bind, EStateM.bind, next?_of_error hb]

/-- Nothing is given only at the end of a batch. -/
theorem remaining_of_nothing {index : Nat} (h : nth? index b = .ok none b') :
    b'.remaining = 0 := by
  cases hs : b.stop? (index + 1) with
  | some e =>
    obtain ⟨b₁, hb₁⟩ := nth?_of_some hs
    simp [hb₁] at h
  | none =>
    have hlength := Generator.stop?_eq_none_iff.1 hs
    rw [← Generator.take_upcoming, List.length_take] at hlength
    rw [nth?_of_none hs, EStateM.Result.ok.injEq, List.getElem?_eq_none_iff, ahead] at h
    rw [← h.2]
    show b.remaining - (index + 1) = 0
    omega

/-! ## Requests -/

/-- What a batch is asked for. -/
inductive Request
  | next
  | nth (index : Nat)

namespace Request

/-- How many records a request lets pass before the one that it gives. -/
def index : Request → Nat
  | .next => 0
  | .nth index => index

def ask : Request → Draw (Batch σ) (Option Record)
  | .next => next?
  | .nth index => nth? index

theorem ask_eq (q : Request) : (q.ask : Draw (Batch σ) _) = nth? q.index := by
  cases q <;> rfl

/-- The number of records that requests go over, if there are so many. -/
def total : List Request → Nat
  | [] => 0
  | q :: qs => q.index + 1 + total qs

/-- What requests give of the records to come. -/
def answers : List Request → List Record → List (Option Record)
  | [], _ => []
  | q :: qs, rs => rs[q.index]? :: answers qs (rs.drop (q.index + 1))

end Request

open Request (total answers)

def askAll : List Request → Draw (Batch σ) (List (Option Record))
  | [] => pure []
  | q :: qs => do
    let r ← q.ask
    let rs ← askAll qs
    return r :: rs

theorem askAll_of_none {qs : List Request} (h : b.stop? (total qs) = none) :
    askAll qs b = .ok (answers qs b.ahead) (b.skip (total qs)) := by
  induction qs generalizing b with
  | nil => rw [total, skip_zero]; rfl
  | cons q qs ih =>
    have hone : b.stop? (q.index + 1) = none := by
      cases hs : b.stop? (q.index + 1) with
      | none => rfl
      | some e => rw [total, stop?_add_of_some hs] at h; exact h
    rw [total, stop?_add_of_none hone] at h
    rw [total, skip_add hone, answers, ← ahead_skip hone]
    simp only [askAll, bind, EStateM.bind, Request.ask_eq, nth?_of_none hone, ih h]
    rfl

theorem askAll_of_some {qs : List Request} {e : Stop} (h : b.stop? (total qs) = some e) :
    ∃ b', askAll qs b = .error e b' := by
  induction qs generalizing b with
  | nil =>
    rw [total, stop?_zero] at h
    cases h
  | cons q qs ih =>
    simp only [askAll, bind, EStateM.bind, Request.ask_eq]
    cases hs : b.stop? (q.index + 1) with
    | some d =>
      rw [total, stop?_add_of_some hs] at h
      cases h
      obtain ⟨b', hb'⟩ := nth?_of_some hs
      exact ⟨b', by simp only [hb']⟩
    | none =>
      rw [total, stop?_add_of_none hs] at h
      obtain ⟨b', hb'⟩ := ih h
      exact ⟨b', by simp only [nth?_of_none hs, hb']⟩

theorem askAll_of_end (h : b.remaining = 0) (qs : List Request) :
    askAll qs b = .ok (List.replicate qs.length none) b := by
  induction qs with
  | nil => rfl
  | cons q qs ih =>
    simp only [askAll, bind, EStateM.bind, Request.ask_eq, nth?_of_end h, ih]
    rfl

/-! ## All records to come -/

/-- The batch gives these records one by one, and then nothing. -/
inductive Drains : Batch σ → List Record → Batch σ → Prop
  | done {b b' : Batch σ} (h : next? b = .ok none b') : Drains b [] b'
  | more {b b₁ b' : Batch σ} {r : Record} {rs : List Record} (h : next? b = .ok (some r) b₁)
      (rest : Drains b₁ rs b') : Drains b (r :: rs) b'

theorem drains_of_none (h : b.stop? b.remaining = none) :
    Drains b b.ahead (b.skip b.remaining) := by
  obtain ⟨g, n⟩ := b
  induction n generalizing g with
  | zero => exact .done rfl
  | succ n ih =>
    cases hb : Generator.build g with
    | ok r g' =>
      rw [stop?_of_ok hb] at h
      rw [ahead_of_ok hb, skip_of_ok hb]
      exact .more (next?_of_ok hb n) (ih g' h)
    | error e g' => simp [stop?_of_error hb] at h

theorem Drains.length {rs : List Record} (h : Drains b rs b') :
    rs.length = b.remaining ∧ b.stop? b.remaining = none := by
  induction h with
  | @done b b' h =>
    obtain ⟨g, n⟩ := b
    cases n with
    | zero => exact ⟨rfl, rfl⟩
    | succ n =>
      simp only [next?] at h
      cases hb : Generator.build g <;> simp [hb] at h
  | @more b b₁ b' r rs h rest ih =>
    obtain ⟨g, n⟩ := b
    cases n with
    | zero => simp [next?] at h
    | succ n =>
      cases hb : Generator.build g with
      | ok s g' =>
        rw [next?_of_ok hb] at h
        cases h
        rw [stop?_of_ok hb]
        exact ⟨congrArg Nat.succ ih.1, ih.2⟩
      | error e g' => simp [next?_of_error hb] at h

/-! ## Hints -/

omit [WordSource σ] in
theorem hint_of_le (h : b.remaining ≤ greatestSize) : b.hint = (b.remaining, some b.remaining) :=
  if_pos h

/-- Requests in any order succeed if the source does not stop before the last record that they ask
for. Behind them, and so at every point between them, the hint is exact: it is the number of records
that would come, and that of the batch less those that were given or passed. A batch that gave
nothing has none to come, gives nothing more and stays as it is. -/
theorem hint_exact (g : Generator σ) (size : UInt64) (qs : List Request) :
    ((∃ rs b, askAll qs (g.records size.toNat) = .ok rs b) ↔
      g.stop? (min (total qs) size.toNat) = none) ∧
    (∀ rs b, askAll qs (g.records size.toNat) = .ok rs b →
      rs = answers qs (g.upcoming size.toNat) ∧
      ∃ left, b.hint = (left, some left) ∧ left = size.toNat - total qs ∧
        b.generator.built + left = g.built + size.toNat ∧
        (∀ rest b', Drains b rest b' → rest.length = left) ∧
        ((∃ rest b', Drains b rest b') ↔ g.stop? size.toNat = none)) ∧
    ∀ (q : Request) (b b' : Batch σ), q.ask b = .ok none b' →
      b'.hint = (0, some 0) ∧
        ∀ qs', askAll qs' b' = .ok (List.replicate qs'.length none) b' := by
  have hsize : size.toNat ≤ greatestSize := Nat.le_of_lt_succ size.toNat_lt
  refine ⟨?_, ?_, ?_⟩
  · constructor
    · rintro ⟨rs, b, h⟩
      cases hs : (g.records size.toNat).stop? (total qs) with
      | none => exact hs
      | some e =>
        obtain ⟨b', hb'⟩ := askAll_of_some hs
        simp [hb'] at h
    · intro h
      exact ⟨_, _, askAll_of_none h⟩
  · intro rs b h
    cases hs : (g.records size.toNat).stop? (total qs) with
    | some e =>
      obtain ⟨b', hb'⟩ := askAll_of_some hs
      simp [hb'] at h
    | none =>
      rw [askAll_of_none hs, EStateM.Result.ok.injEq] at h
      obtain ⟨rfl, rfl⟩ := h
      have hleft : ((g.records size.toNat).skip (total qs)).remaining = size.toNat - total qs := rfl
      refine ⟨rfl, size.toNat - total qs, hint_of_le (by omega), rfl, built_skip hs, ?_, ?_⟩
      · intro rest b' h
        exact h.length.1
      -- The batch drains if it does not stop behind the requests, and within them it did not.
      · have hrest := stop?_add_of_none hs (size.toNat - total qs)
        have hall : min (total qs + (size.toNat - total qs)) size.toNat = size.toNat := by omega
        rw [stop?, Generator.records, hall] at hrest
        rw [hrest]
        constructor
        · rintro ⟨rest, b', h⟩
          exact h.length.2
        · intro h
          exact ⟨_, _, drains_of_none h⟩
  · intro q b b' h
    rw [Request.ask_eq] at h
    have hend := remaining_of_nothing h
    refine ⟨?_, askAll_of_end hend⟩
    rw [hint_of_le (by omega), hend]

end Batch

end SyntheticLog
