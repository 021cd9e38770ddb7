import SyntheticLog.Generator.Basic

/-!
# Batches of records

A batch lends out a generator for a fixed number of records, built one by one as they are asked for.

* `Batch.next?`: the next record, while there is one.
* `Batch.nth?`, `Batch.last?`, `Batch.count`: these build every record that they pass.
* `Batch.hint`: bounds on the number of records still to come.
-/

set_option autoImplicit false

namespace SyntheticLog

open SyntheticLog.Random

/-- A generator and the number of records that the batch may still take from it. -/
structure Batch (σ : Type) where
  generator : Generator σ
  remaining : Nat

def Generator.records {σ : Type} (g : Generator σ) (count : Nat) : Batch σ := ⟨g, count⟩

namespace Batch

variable {σ : Type}

/-- The greatest number that a size can hold. -/
def greatestSize : Nat := 18446744073709551615

/-- A lower bound and, if there is one, an upper bound on the records still to come. A number that no
size can hold gives no upper bound. -/
def hint (b : Batch σ) : Nat × Option Nat :=
  if b.remaining ≤ greatestSize then (b.remaining, some b.remaining) else (greatestSize, none)

variable [WordSource σ]

/-- The next record, or nothing at the end; the end is met before any word is drawn. -/
def next? : Draw (Batch σ) (Option Record) := fun b =>
  match b.remaining with
  | 0 => .ok none b
  | n + 1 =>
    match Generator.build b.generator with
    | .ok r g => .ok (some r) ⟨g, n⟩
    | .error e g => .error e ⟨g, n⟩

/-- Record number `n` from here, or nothing if the end comes first. -/
def nth? : Nat → Draw (Batch σ) (Option Record)
  | 0 => next?
  | n + 1 => do
    match ← next? with
    | some _ => nth? n
    | none => return none

/-- Combines the next `n` records, or those up to the end, from the left. -/
def foldNext {β : Type} (f : β → Record → β) : Nat → β → Draw (Batch σ) β
  | 0, x => pure x
  | n + 1, x => do
    match ← next? with
    | some r => foldNext f n (f x r)
    | none => return x

def fold {β : Type} (f : β → Record → β) (x : β) : Draw (Batch σ) β := fun b =>
  foldNext f b.remaining x b

def last? : Draw (Batch σ) (Option Record) := fold (fun _ r => some r) none

def count : Draw (Batch σ) Nat := fold (fun n _ => n + 1) 0

end Batch

end SyntheticLog
