import SyntheticLog.Generator.Basic

/-!
# The records to come

A generator fixes the records that it builds next, whatever becomes of them.

* `Record.lines`: the bytes of the lines of some records.
* `Generator.upcoming`, `Generator.advance`: the next records, and the generator behind them.
* `Generator.stop?`: why there are not as many.
* `Generator.slice`: the records with some consecutive numbers.
* `Generator.text_eq`: `Generator.text` gives the lines of the next records.
-/

set_option autoImplicit false

namespace SyntheticLog

open SyntheticLog.Random

/-! ## Lines -/

namespace Record

def lines : List Record → ByteArray
  | [] => ByteArray.empty
  | r :: rs => r.line.toUTF8 ++ lines rs

theorem lines_nil : lines [] = ByteArray.empty := rfl

theorem lines_cons (r : Record) (rs : List Record) : lines (r :: rs) = r.line.toUTF8 ++ lines rs :=
  rfl

theorem lines_append (rs ss : List Record) : lines (rs ++ ss) = lines rs ++ lines ss := by
  induction rs with
  | nil => rw [List.nil_append, lines_nil, ByteArray.empty_append]
  | cons r rs ih => rw [List.cons_append, lines_cons, lines_cons, ih, ByteArray.append_assoc]

end Record

/-! ## The next records -/

namespace Generator

variable {σ : Type} [WordSource σ]

/-- The next `n` records, or those up to where the source stops. -/
def upcoming : Nat → Generator σ → List Record
  | 0, _ => []
  | n + 1, g =>
    match build g with
    | .ok r g => r :: upcoming n g
    | .error _ _ => []

/-- The generator behind the next `n` records, or where the source stops. -/
def advance : Nat → Generator σ → Generator σ
  | 0, g => g
  | n + 1, g =>
    match build g with
    | .ok _ g => advance n g
    | .error _ g => g

/-- The cause for which the source stops within the next `n` records, if it does. -/
def stop? : Nat → Generator σ → Option Stop
  | 0, _ => none
  | n + 1, g =>
    match build g with
    | .ok _ g => stop? n g
    | .error e _ => some e

/-- The records with the numbers from `k` to `k + n - 1`; the next record has number zero. -/
def slice (g : Generator σ) (k n : Nat) : List Record := (g.upcoming (k + n)).drop k

theorem upcoming_of_ok {g g' : Generator σ} {r : Record} (h : build g = .ok r g') (n : Nat) :
    g.upcoming (n + 1) = r :: g'.upcoming n := by rw [upcoming, h]

theorem upcoming_of_error {g g' : Generator σ} {e : Stop} (h : build g = .error e g') (n : Nat) :
    g.upcoming (n + 1) = [] := by rw [upcoming, h]

theorem advance_of_ok {g g' : Generator σ} {r : Record} (h : build g = .ok r g') (n : Nat) :
    g.advance (n + 1) = g'.advance n := by rw [advance, h]

theorem advance_of_error {g g' : Generator σ} {e : Stop} (h : build g = .error e g') (n : Nat) :
    g.advance (n + 1) = g' := by rw [advance, h]

theorem stop?_of_ok {g g' : Generator σ} {r : Record} (h : build g = .ok r g') (n : Nat) :
    g.stop? (n + 1) = g'.stop? n := by rw [stop?, h]

theorem stop?_of_error {g g' : Generator σ} {e : Stop} (h : build g = .error e g') (n : Nat) :
    g.stop? (n + 1) = some e := by rw [stop?, h]

theorem built_of_ok {g g' : Generator σ} {r : Record} (h : build g = .ok r g') :
    g'.built = g.built + 1 := by
  unfold build at h
  split at h <;> cases h
  rfl

theorem built_of_error {g g' : Generator σ} {e : Stop} (h : build g = .error e g') :
    g'.built = g.built := by
  unfold build at h
  split at h <;> cases h
  rfl

/-- All of the next `n` records are there exactly if the source does not stop. -/
theorem stop?_eq_none_iff {n : Nat} {g : Generator σ} :
    g.stop? n = none ↔ (g.upcoming n).length = n := by
  induction n generalizing g with
  | zero => exact ⟨fun _ => rfl, fun _ => rfl⟩
  | succ n ih =>
    cases h : build g with
    | ok r g' =>
      rw [stop?_of_ok h, upcoming_of_ok h, List.length_cons, ih]
      exact ⟨congrArg Nat.succ, Nat.succ.inj⟩
    | error e g' =>
      rw [stop?_of_error h, upcoming_of_error h]
      exact ⟨fun h => (nomatch h), fun h => (nomatch h)⟩

/-- A generator counts exactly the records that it builds. -/
theorem built_advance (n : Nat) (g : Generator σ) :
    (g.advance n).built = g.built + (g.upcoming n).length := by
  induction n generalizing g with
  | zero => rfl
  | succ n ih =>
    cases h : build g with
    | ok r g' =>
      rw [advance_of_ok h, upcoming_of_ok h, ih, built_of_ok h, List.length_cons]
      omega
    | error e g' => rw [advance_of_error h, upcoming_of_error h, built_of_error h]; rfl

theorem take_upcoming (k n : Nat) (g : Generator σ) :
    (g.upcoming n).take k = g.upcoming (min k n) := by
  induction n generalizing g k with
  | zero => rw [Nat.min_zero]; exact List.take_nil
  | succ n ih =>
    cases k with
    | zero => rw [Nat.zero_min]; rfl
    | succ k =>
      rw [Nat.succ_min_succ]
      cases h : build g with
      | ok r g' => rw [upcoming_of_ok h, upcoming_of_ok h, List.take_succ_cons, ih]
      | error e g' => rw [upcoming_of_error h, upcoming_of_error h, List.take_nil]

/-! ## Going on -/

theorem upcoming_add {a : Nat} {g : Generator σ} (h : (g.upcoming a).length = a) (b : Nat) :
    g.upcoming (a + b) = g.upcoming a ++ (g.advance a).upcoming b := by
  induction a generalizing g with
  | zero => rw [Nat.zero_add]; rfl
  | succ a ih =>
    rw [Nat.succ_add]
    cases hb : build g with
    | ok r g' =>
      rw [upcoming_of_ok hb, List.length_cons] at h
      rw [upcoming_of_ok hb, upcoming_of_ok hb, advance_of_ok hb, ih (Nat.succ.inj h),
        List.cons_append]
    | error e g' =>
      rw [upcoming_of_error hb] at h
      cases h

theorem advance_add {a : Nat} {g : Generator σ} (h : (g.upcoming a).length = a) (b : Nat) :
    g.advance (a + b) = (g.advance a).advance b := by
  induction a generalizing g with
  | zero => rw [Nat.zero_add]; rfl
  | succ a ih =>
    rw [Nat.succ_add]
    cases hb : build g with
    | ok r g' =>
      rw [upcoming_of_ok hb, List.length_cons] at h
      rw [advance_of_ok hb, advance_of_ok hb, ih (Nat.succ.inj h)]
    | error e g' =>
      rw [upcoming_of_error hb] at h
      cases h

theorem slice_eq {k : Nat} {g : Generator σ} (h : (g.upcoming k).length = k) (n : Nat) :
    g.slice k n = (g.advance k).upcoming n := by
  rw [slice, upcoming_add h, List.drop_append_of_le_length (Nat.le_of_eq h.symm),
    List.drop_eq_nil_of_le (Nat.le_of_eq h), List.nil_append]

/-! ## The text of the next records -/

theorem appendLines_eq {n : Nat} {g : Generator σ} (h : (g.upcoming n).length = n)
    (before : ByteArray) :
    appendLines n before g = .ok (before ++ Record.lines (g.upcoming n)) (g.advance n) := by
  induction n generalizing g before with
  | zero => exact congrArg (EStateM.Result.ok · g) ByteArray.append_empty.symm
  | succ n ih =>
    cases hb : build g with
    | ok r g' =>
      rw [upcoming_of_ok hb, List.length_cons] at h
      rw [upcoming_of_ok hb, advance_of_ok hb, Record.lines_cons, ← ByteArray.append_assoc,
        ← ih (Nat.succ.inj h)]
      simp only [appendLines, bind, EStateM.bind, hb]
    | error e g' =>
      rw [upcoming_of_error hb] at h
      cases h

/-- A text holds the lines that a file of the same records holds. -/
theorem text_eq {n : Nat} {g : Generator σ} (h : (g.upcoming n).length = n) :
    text n g = .ok (Record.lines (g.upcoming n)) (g.advance n) := by
  rw [text, appendLines_eq h, ByteArray.empty_append]

end Generator

end SyntheticLog
