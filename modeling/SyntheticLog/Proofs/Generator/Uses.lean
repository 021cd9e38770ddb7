import SyntheticLog.Generator.Batch
import SyntheticLog.Proofs.Generator.Upcoming

/-!
# Uses of a generator

A generator is asked for records one by one, or lent out to a batch that is asked for some of them
and then let go. In whatever order this is done, the records are those that `Generator.build` gives
when it is called over and over, and each of them goes to one use only.

* `Generator.builds`: plain calls of `Generator.build`.
* `Use`, `Use.takes`, `Use.answer`: the uses, how many records each takes, and what it makes of them.
* `Use.runAll_eq_map`, `Use.runAll_eq_deal`: uses are plain calls whose records are dealt out.
-/

set_option autoImplicit false

namespace SyntheticLog

open SyntheticLog.Random

variable {σ : Type} [WordSource σ]

/-! ## Plain calls -/

namespace Generator

def builds : Nat → Draw (Generator σ) (List Record)
  | 0 => pure []
  | n + 1 => do
    let r ← build
    let rs ← builds n
    return r :: rs

theorem builds_succ (n : Nat) :
    (builds (n + 1) : Draw (Generator σ) (List Record)) =
      build >>= fun r => (r :: ·) <$> builds n := by
  simp only [builds, map_eq_pure_bind]

theorem builds_add (a b : Nat) :
    (builds (a + b) : Draw (Generator σ) (List Record)) =
      builds a >>= fun rs => (rs ++ ·) <$> builds b := by
  induction a with
  | zero => simp [builds]
  | succ a ih => simp [Nat.succ_add, builds_succ, ih]

theorem builds_eq (n : Nat) (g : Generator σ) :
    builds n g =
      match g.stop? n with
      | none => .ok (g.upcoming n) (g.advance n)
      | some e => .error e (g.advance n) := by
  induction n generalizing g with
  | zero => rfl
  | succ n ih =>
    simp only [builds, bind, EStateM.bind]
    cases hb : build g with
    | error e g' => simp only [stop?_of_error hb, advance_of_error hb]
    | ok r g' =>
      simp only [stop?_of_ok hb, advance_of_ok hb, upcoming_of_ok hb, ih]
      cases g'.stop? n <;> rfl

theorem builds_ok {n : Nat} {g g' : Generator σ} {rs : List Record} (h : builds n g = .ok rs g') :
    rs.length = n ∧ g'.built = g.built + n := by
  rw [builds_eq] at h
  cases hs : g.stop? n with
  | some e => simp [hs] at h
  | none =>
    have hlength := stop?_eq_none_iff.1 hs
    rw [hs] at h
    cases h
    exact ⟨hlength, by rw [built_advance, hlength]⟩

theorem builds_bind_congr {α : Type} {n : Nat} {f f' : List Record → Draw (Generator σ) α}
    (h : ∀ rs, rs.length = n → f rs = f' rs) : builds n >>= f = builds n >>= f' := by
  funext g
  simp only [bind, EStateM.bind]
  cases hb : builds n g with
  | error e g' => rfl
  | ok rs g' => exact congrFun (h rs (builds_ok hb).1) g'

/-- Lends the generator to a batch of `count` records, and takes it back when `use` is done. -/
def lend {α : Type} (count : Nat) (use : Draw (Batch σ) α) : Draw (Generator σ) α := fun g =>
  match use (g.records count) with
  | .ok x b => .ok x b.generator
  | .error e b => .error e b.generator

variable {α β : Type}

omit [WordSource σ] in
@[simp] theorem lend_pure (count : Nat) (x : α) :
    (lend count (pure x) : Draw (Generator σ) α) = pure x := rfl

omit [WordSource σ] in
theorem lend_map (count : Nat) (f : α → β) (use : Draw (Batch σ) α) :
    lend count (f <$> use) = f <$> lend count use := by
  funext g
  simp only [lend, Functor.map, EStateM.map]
  cases use (g.records count) <;> rfl

/-- At the end of a batch nothing is drawn. -/
theorem lend_next_zero (use : Option Record → Draw (Batch σ) α) :
    lend 0 (Batch.next? >>= use) = lend 0 (use none) := rfl

theorem lend_next_succ (count : Nat) (use : Option Record → Draw (Batch σ) α) :
    lend (count + 1) (Batch.next? >>= use) = build >>= fun r => lend count (use (some r)) := by
  funext g
  simp only [lend, records, Batch.next?, bind, EStateM.bind]
  cases build g <;> rfl

end Generator

/-! ## Batches -/

namespace Batch

open Generator (builds lend)

/-- Asks `times` times for the next record. -/
def nexts : Nat → Draw (Batch σ) (List (Option Record))
  | 0 => pure []
  | times + 1 => do
    let r ← next?
    let rs ← nexts times
    return r :: rs

theorem nexts_succ (times : Nat) :
    (nexts (times + 1) : Draw (Batch σ) _) = next? >>= fun r => (r :: ·) <$> nexts times := by
  simp only [nexts, map_eq_pure_bind]

theorem lend_nexts (count times : Nat) :
    (lend count (nexts times) : Draw (Generator σ) _) =
      (fun rs => rs.map some ++ List.replicate (times - count) none) <$>
        builds (min times count) := by
  induction times generalizing count with
  | zero => simp [nexts, builds]
  | succ times ih =>
    rw [nexts_succ]
    cases count with
    | zero =>
      have hnone := ih 0
      simp only [Nat.min_zero, Nat.sub_zero, builds, map_pure, List.map_nil, List.nil_append]
        at hnone
      rw [Generator.lend_next_zero, Generator.lend_map, hnone]
      simp [builds, List.replicate_succ]
    | succ count =>
      rw [Generator.lend_next_succ, Nat.succ_min_succ, Generator.builds_succ]
      simp [Generator.lend_map, ih]

theorem nth?_succ (index : Nat) :
    (nth? (index + 1) : Draw (Batch σ) _) =
      next? >>= fun r => r.elim (pure none) fun _ => nth? index := by
  simp only [nth?]
  congr 1
  funext r
  cases r <;> rfl

theorem lend_nth? (count index : Nat) :
    (lend count (nth? index) : Draw (Generator σ) _) =
      (fun rs => if index < count then rs[index]? else none) <$> builds (min (index + 1) count) := by
  induction index generalizing count with
  | zero =>
    have hnext : (nth? 0 : Draw (Batch σ) _) = next? >>= pure := (bind_pure next?).symm
    rw [hnext]
    cases count with
    | zero => rw [Generator.lend_next_zero]; simp [builds]
    | succ count => rw [Generator.lend_next_succ]; simp [Generator.builds_succ, builds]
  | succ index ih =>
    rw [nth?_succ]
    cases count with
    | zero => simp [Generator.lend_next_zero, builds]
    | succ count => simp [Generator.lend_next_succ, Generator.builds_succ, ih]

variable {β : Type} (f : β → Record → β)

theorem foldNext_succ (n : Nat) (x : β) :
    (foldNext f (n + 1) x : Draw (Batch σ) β) =
      next? >>= fun r => r.elim (pure x) fun r => foldNext f n (f x r) := by
  simp only [foldNext]
  congr 1
  funext r
  cases r <;> rfl

theorem lend_foldNext (count : Nat) (x : β) :
    (lend count (foldNext f count x) : Draw (Generator σ) β) =
      (fun rs => rs.foldl f x) <$> builds count := by
  induction count generalizing x with
  | zero => simp [foldNext, builds]
  | succ count ih =>
    rw [foldNext_succ, Generator.lend_next_succ, Generator.builds_succ]
    simp [ih]

theorem lend_fold (count : Nat) (x : β) :
    (lend count (fold f x) : Draw (Generator σ) β) = (fun rs => rs.foldl f x) <$> builds count :=
  lend_foldNext f count x

end Batch

/-! ## Uses in a row -/

/-- What a generator is used for. -/
inductive Use
  /-- One record. -/
  | build
  /-- A batch of `size` records, asked `times` times for the next one. -/
  | next (size times : Nat)
  /-- A batch of `size` records, asked for the one with number `index`. -/
  | nth (size index : Nat)
  | last (size : Nat)
  | count (size : Nat)

/-- What a use gives: records, or nothing in the place of one, or a number of records. -/
inductive Use.Answer
  | records (rs : List (Option Record))
  | number (n : Nat)

namespace Use

open Generator (builds lend)

def run : Use → Draw (Generator σ) Answer
  | .build => do return .records [some (← Generator.build)]
  | .next size times => do return .records (← lend size (Batch.nexts times))
  | .nth size index => do return .records [← lend size (Batch.nth? index)]
  | .last size => do return .records [← lend size Batch.last?]
  | .count size => do return .number (← lend size Batch.count)

def runAll : List Use → Draw (Generator σ) (List Answer)
  | [] => pure []
  | u :: us => do
    let answer ← u.run
    let answers ← runAll us
    return answer :: answers

/-- The number of records that are built for a use. -/
def takes : Use → Nat
  | .build => 1
  | .next size times => min times size
  | .nth size index => min (index + 1) size
  | .last size | .count size => size

/-- The answer that is made of the records built for a use. -/
def answer (u : Use) (rs : List Record) : Answer :=
  match u with
  | .build => .records (rs.map some)
  | .next size times => .records (rs.map some ++ List.replicate (times - size) none)
  | .nth size index => .records [if index < size then rs[index]? else none]
  | .last _ => .records [rs.getLast?]
  | .count size => .number size

def total : List Use → Nat
  | [] => 0
  | u :: us => u.takes + total us

/-- Deals out records to uses, to each the next ones. -/
def deal : List Use → List Record → List Answer
  | [], _ => []
  | u :: us, rs => u.answer (rs.take u.takes) :: deal us (rs.drop u.takes)

theorem foldl_last (rs : List Record) : rs.foldl (fun _ r => some r) none = rs.getLast? := by
  rcases List.eq_nil_or_concat rs with rfl | ⟨ss, r, rfl⟩
  · rfl
  · simp

theorem run_eq (u : Use) : (u.run : Draw (Generator σ) Answer) = u.answer <$> builds u.takes := by
  rw [map_eq_pure_bind]
  cases u with
  | build =>
    have hone : (builds 1 : Draw (Generator σ) _) = Generator.build >>= fun r => pure [r] := by
      simp [builds]
    rw [run, takes, hone, bind_assoc]
    rfl
  | next size times =>
    rw [run, Batch.lend_nexts, map_eq_pure_bind, bind_assoc]
    exact Generator.builds_bind_congr fun rs _ => pure_bind _ _
  | nth size index =>
    rw [run, Batch.lend_nth?, map_eq_pure_bind, bind_assoc]
    exact Generator.builds_bind_congr fun rs _ => pure_bind _ _
  | last size =>
    rw [run, Batch.last?, Batch.lend_fold, map_eq_pure_bind, bind_assoc]
    refine Generator.builds_bind_congr fun rs _ => ?_
    rw [pure_bind, foldl_last]
    rfl
  | count size =>
    rw [run, Batch.count, Batch.lend_fold, map_eq_pure_bind, bind_assoc]
    refine Generator.builds_bind_congr fun rs hlength => ?_
    rw [pure_bind, List.foldl_add_const, hlength, Nat.zero_add, Nat.one_mul]
    rfl

theorem runAll_eq_map (us : List Use) :
    (runAll us : Draw (Generator σ) (List Answer)) = deal us <$> builds (total us) := by
  induction us with
  | nil => simp [runAll, total, builds, deal]
  | cons u us ih =>
    rw [runAll, run_eq, ih, total, Generator.builds_add, map_eq_pure_bind, map_eq_pure_bind,
      map_eq_pure_bind, bind_assoc, bind_assoc]
    refine Generator.builds_bind_congr fun rs hrs => ?_
    rw [pure_bind, map_eq_pure_bind, bind_assoc, bind_assoc]
    refine Generator.builds_bind_congr fun ss _ => ?_
    rw [pure_bind, pure_bind, deal, List.take_left' hrs, List.drop_left' hrs]

/-- In whatever order a generator is used, the answers are made of the records that plain calls give,
dealt out in order, and the generator is left as plain calls leave it; it stops where they stop. A
batch that is at its end draws nothing. -/
theorem runAll_eq_deal (us : List Use) :
    (runAll us : Draw (Generator σ) (List Answer)) = deal us <$> builds (total us) ∧
    (∀ (g g' : Generator σ) (rs : List Record), builds (total us) g = .ok rs g' →
      rs.length = total us ∧ g'.built = g.built + total us) ∧
    (∀ b b' : Batch σ, Batch.next? b = .ok none b' → b'.remaining = 0 ∧ b' = b) ∧
    ∀ b : Batch σ, b.remaining = 0 →
      Batch.next? b = .ok none b ∧ (∀ index, Batch.nth? index b = .ok none b) ∧
        Batch.last? b = .ok none b ∧ Batch.count b = .ok 0 b := by
  refine ⟨runAll_eq_map us, fun g g' rs h => Generator.builds_ok h, ?_, ?_⟩
  · rintro ⟨g, remaining⟩ b' h
    cases remaining with
    | zero =>
      cases h
      exact ⟨rfl, rfl⟩
    | succ remaining =>
      simp only [Batch.next?] at h
      cases hb : Generator.build g <;> simp [hb] at h
  · rintro ⟨g, remaining⟩ hzero
    obtain rfl : remaining = 0 := hzero
    refine ⟨rfl, ?_, rfl, rfl⟩
    intro index
    cases index <;> rfl

end Use

end SyntheticLog
