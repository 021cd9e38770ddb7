import SyntheticLog.Proofs.Populate.Steps
import SyntheticLog.Proofs.Populate.Willing

/-!
# What is written is a beginning of the lines

Whatever the file answers, the bytes in the file and behind them those in the buffer are at every
moment a beginning of the lines of the next records.

* `Begins`: some bytes begin with others.
* `Moment.Phase`: the invariant of a run, by its phases; every step preserves it.
* `writeFile_begins_lines`: what this says about a whole run and about what it leaves.
-/

set_option autoImplicit false

namespace SyntheticLog

open SyntheticLog.Random Log

/-! ## Beginnings -/

/-- The bytes `b` begin with the bytes `a`. -/
def Begins (a b : ByteArray) : Prop := ∃ rest, a ++ rest = b

theorem Begins.refl (a : ByteArray) : Begins a a := ⟨ByteArray.empty, ByteArray.append_empty⟩

theorem Begins.append {a b : ByteArray} (h : Begins a b) (c : ByteArray) : Begins a (b ++ c) := by
  obtain ⟨rest, rfl⟩ := h
  exact ⟨rest ++ c, ByteArray.append_assoc.symm⟩

theorem Begins.trans {a b c : ByteArray} (h₁ : Begins a b) (h₂ : Begins b c) : Begins a c := by
  obtain ⟨rest, rfl⟩ := h₂
  exact h₁.append rest

theorem begins_upcoming {σ : Type} [WordSource σ] (g : Generator σ) {k n : Nat} (h : k ≤ n) :
    Begins (Record.lines (g.upcoming k)) (Record.lines (g.upcoming n)) := by
  have htake : (g.upcoming n).take k = g.upcoming k := by
    rw [Generator.take_upcoming, Nat.min_eq_left h]
  refine ⟨Record.lines ((g.upcoming n).drop k), ?_⟩
  rw [← htake, ← Record.lines_append, List.take_append_drop]

theorem Writer.begins_of_written {σ : Type} [WordSource σ] {w : Writer} {g : Generator σ} {k : Nat}
    (h : w.written = Record.lines (g.upcoming k)) :
    Begins (Record.lines (g.upcoming (k - 1))) w.written ∧
      Begins w.written (Record.lines (g.upcoming k)) := by
  rw [h]
  exact ⟨begins_upcoming g (Nat.sub_le k 1), .refl _⟩

theorem OpenFile.offer_split {f f' : OpenFile} {bytes : ByteArray} {k : Nat}
    (h : offer bytes f = .ok k f') :
    f'.taken ++ bytes.extract k bytes.size = f.taken ++ bytes := by
  obtain ⟨ht, -, hle⟩ := offer_ok h
  rw [ht, ByteArray.append_assoc, ByteArray.extract_append_extract,
    Nat.min_eq_left (Nat.zero_le _), Nat.max_eq_right hle, ByteArray.extract_zero_size]

/-- The bytes that a writer is busy with. -/
def Activity.ahead : Activity → ByteArray
  | .draining _ (some piece) => piece
  | .passing _ rest => rest
  | .draining _ none | .idle => ByteArray.empty

def Activity.Passes : Activity → Prop
  | .passing _ _ => True
  | .idle | .draining _ _ => False

namespace Moment

variable {σ : Type} [WordSource σ]

/-! ## Phases -/

/-- What a run may give: all lines are in the file, or it fails; only a source that stops keeps
records from being built. -/
structure Settled (g : Generator σ) (n k : Nat) (w : Writer) (r : Except PopulateError Tally) :
    Prop where
  all : (∀ e, r ≠ .error (.draw e)) → (g.upcoming k).length = k
  taken : ∀ t, r = .ok t →
    k = n ∧ w.written = Record.lines (g.upcoming n) ∧ w.pending = ByteArray.empty

/-- The phases of a run of `n` rows, with `k` rows begun. -/
inductive Phase (g : Generator σ) (n : Nat) : Moment σ → Prop
  /-- Within a line: it is written as far as its pieces are not ahead. -/
  | line {w : Writer} {rows : Nat} {events : Array Event} {activity : Activity} {ps : List Piece}
      {left k : Nat} (hk : k + left = n) (all : (g.upcoming k).length = k) (sound : w.Sound)
      (alone : activity.Passes → w.pending = ByteArray.empty)
      (past : Begins (Record.lines (g.upcoming (k - 1))) w.written)
      (ahead : w.written ++ (activity.ahead ++ Piece.joined ps) = Record.lines (g.upcoming k)) :
      Phase g n ⟨⟨g.advance k, w, rows, events⟩, activity, .line ps left, k, none⟩
  /-- Between lines: those begun are written. -/
  | rows {w : Writer} {rows : Nat} {events : Array Event} {left k : Nat} (hk : k + left = n)
      (all : (g.upcoming k).length = k) (sound : w.Sound)
      (written : w.written = Record.lines (g.upcoming k)) :
      Phase g n ⟨⟨g.advance k, w, rows, events⟩, .idle, .rows left, k, none⟩
  /-- All lines are written, and are handed over. -/
  | ending {w : Writer} {rows : Nat} {events : Array Event} (all : (g.upcoming n).length = n)
      (written : w.written = Record.lines (g.upcoming n)) :
      Phase g n ⟨⟨g.advance n, w, rows, events⟩, .draining .finish none, .size, n, none⟩
  /-- All lines are in the file. -/
  | ended {w : Writer} {rows : Nat} {events : Array Event} (all : (g.upcoming n).length = n)
      (written : w.written = Record.lines (g.upcoming n)) (pending : w.pending = ByteArray.empty) :
      Phase g n ⟨⟨g.advance n, w, rows, events⟩, .idle, .size, n, none⟩
  /-- It is settled what the run gives. -/
  | finished {w : Writer} {rows : Nat} {events : Array Event} {activity : Activity} {k : Nat}
      {r : Except PopulateError Tally} (hk : k ≤ n)
      (closing : activity = .idle ∨ activity = .draining .finish none)
      (past : Begins (Record.lines (g.upcoming (k - 1))) w.written)
      (ahead : Begins w.written (Record.lines (g.upcoming k))) (settled : Settled g n k w r) :
      Phase g n ⟨⟨g.advance k, w, rows, events⟩, activity, .finished, k, some r⟩

variable {g : Generator σ} {n : Nat}

theorem phase_start (capacity : Nat) (b : Behaviour) (g : Generator σ) (n : Nat) :
    Phase g n (start capacity (.fresh b) g n) :=
  .rows (Nat.zero_add n) rfl (Writer.sound_ofFile _ _) ByteArray.append_empty

/-! ## Steps preserve the phases -/

theorem phase_failed {w : Writer} {rows k : Nat} {events : Array Event} {e : PopulateError}
    (hk : k ≤ n) (past : Begins (Record.lines (g.upcoming (k - 1))) w.written)
    (ahead : Begins w.written (Record.lines (g.upcoming k)))
    (all : (∀ d, e ≠ .draw d) → (g.upcoming k).length = k) :
    Phase g n (failed ⟨g.advance k, w, rows, events⟩ k e) := by
  refine .finished hk (Or.inr rfl) past ahead ⟨?_, ?_⟩
  · intro h
    exact all fun d hd => h d (congrArg Except.error hd)
  · intro t ht
    cases ht

/-! Within a line, `file.taken ++ kept` and the bytes ahead are the lines of the records begun. -/

section Line
variable {file : OpenFile} {kept piece : ByteArray} {capacity rows left k : Nat}
  {events : Array Event} {ps : List Piece}

theorem phase_refused {f : OpenFile} {b rest : ByteArray} (c : Cause) (e : FileError)
    (hk : k + left = n) (all : (g.upcoming k).length = k)
    (past : Begins (Record.lines (g.upcoming (k - 1))) (file.taken ++ kept))
    (ahead : file.taken ++ kept ++ rest = Record.lines (g.upcoming k))
    (hw : f.taken ++ b = file.taken ++ kept) :
    Phase g n (failed ⟨g.advance k, ⟨f, b, capacity⟩, rows, events⟩ k (c.failure e)) := by
  refine phase_failed (by omega) ?_ ⟨rest, ?_⟩ fun _ => all
  · rw [Writer.written, hw]
    exact past
  · rw [Writer.written, hw]
    exact ahead

theorem phase_stored {activity : Activity} (c : Cause) (hk : k + left = n)
    (all : (g.upcoming k).length = k)
    (room : kept = ByteArray.empty ∨
      Writer.Sound ⟨file, kept, capacity⟩ ∧ piece.size ≤ Writer.spare ⟨file, kept, capacity⟩)
    (past : Begins (Record.lines (g.upcoming (k - 1))) (file.taken ++ kept))
    (ahead : file.taken ++ kept ++ (piece ++ Piece.joined ps) = Record.lines (g.upcoming k)) :
    Phase g n (stored ⟨⟨g.advance k, ⟨file, kept, capacity⟩, rows, events⟩, activity,
      .line ps left, k, none⟩ c piece) := by
  simp only [stored]
  by_cases hc : capacity ≤ piece.size
  -- A piece as large as the buffer finds room only in an empty one, so that no byte is overtaken.
  · rw [if_pos hc]
    have hempty : kept = ByteArray.empty := by
      rcases room with h | ⟨hs, hle⟩
      · exact h
      · exact hs.pending_eq hle hc
    subst hempty
    exact .line hk all (Nat.zero_le _) (fun _ => rfl) past ahead
  · rw [if_neg hc]
    refine .line hk all ?_ False.elim ?_ ?_
    · show (kept ++ piece).size ≤ capacity
      rw [ByteArray.size_append]
      rcases room with h | ⟨hs, hle⟩
      · rw [h, ByteArray.size_empty]
        omega
      · have hsound : kept.size ≤ capacity := hs
        have hfits : piece.size ≤ capacity - kept.size := hle
        omega
    · show Begins _ (file.taken ++ (kept ++ piece))
      rw [← ByteArray.append_assoc]
      exact past.append piece
    · show file.taken ++ (kept ++ piece) ++ (ByteArray.empty ++ Piece.joined ps) = _
      rw [ByteArray.empty_append, ← ahead, ← ByteArray.append_assoc, ByteArray.append_assoc]

theorem phase_put {activity : Activity} {p : Piece} (hk : k + left = n)
    (all : (g.upcoming k).length = k) (sound : Writer.Sound ⟨file, kept, capacity⟩)
    (past : Begins (Record.lines (g.upcoming (k - 1))) (file.taken ++ kept))
    (ahead : file.taken ++ kept ++ (p.bytes ++ Piece.joined ps) = Record.lines (g.upcoming k)) :
    Phase g n (put ⟨⟨g.advance k, ⟨file, kept, capacity⟩, rows, events⟩, activity, .line ps left, k,
      none⟩ p) := by
  by_cases hs : Writer.spare ⟨file, kept, capacity⟩ < p.bytes.size
  · simp only [put, if_pos hs]
    exact .line hk all sound False.elim past ahead
  · simp only [put, if_neg hs]
    exact phase_stored p.cause hk all (Or.inr ⟨sound, Nat.not_lt.1 hs⟩) past ahead

theorem phase_drained {c : Cause} {piece : Option ByteArray} (hk : k + left = n)
    (all : (g.upcoming k).length = k) (sound : Writer.Sound ⟨file, kept, capacity⟩)
    (past : Begins (Record.lines (g.upcoming (k - 1))) (file.taken ++ kept))
    (ahead : file.taken ++ kept ++ ((Activity.draining c piece).ahead ++ Piece.joined ps) =
      Record.lines (g.upcoming k)) :
    Phase g n (drained ⟨⟨g.advance k, ⟨file, kept, capacity⟩, rows, events⟩, .draining c piece,
      .line ps left, k, none⟩ c piece) := by
  simp only [drained]
  by_cases hs : kept.size = 0
  · rw [if_pos hs]
    cases piece with
    | none => exact .line hk all sound False.elim past ahead
    | some piece =>
      exact phase_stored c hk all (Or.inl (ByteArray.size_eq_zero_iff.1 hs)) past ahead
  · rw [if_neg hs]
    cases ho : OpenFile.offer kept file with
    | error e f => exact phase_refused c e hk all past ahead (by rw [OpenFile.offer_error ho])
    | ok i f =>
      have hsplit := OpenFile.offer_split ho
      refine .line hk all ?_ False.elim ?_ ?_
      · have hsound : kept.size ≤ capacity := sound
        show (kept.extract i kept.size).size ≤ capacity
        rw [ByteArray.size_extract]
        omega
      · show Begins _ (f.taken ++ kept.extract i kept.size)
        rw [hsplit]
        exact past
      · show f.taken ++ kept.extract i kept.size ++ _ = _
        rw [hsplit]
        exact ahead

theorem phase_passed {c : Cause} {rest : ByteArray} (hk : k + left = n)
    (all : (g.upcoming k).length = k)
    (past : Begins (Record.lines (g.upcoming (k - 1))) (file.taken ++ ByteArray.empty))
    (ahead : file.taken ++ ByteArray.empty ++ (rest ++ Piece.joined ps) =
      Record.lines (g.upcoming k)) :
    Phase g n (passed ⟨⟨g.advance k, ⟨file, ByteArray.empty, capacity⟩, rows, events⟩,
      .passing c rest, .line ps left, k, none⟩ c rest) := by
  simp only [passed]
  by_cases hs : rest.size = 0
  · rw [if_pos hs]
    rw [ByteArray.size_eq_zero_iff.1 hs] at ahead
    exact .line hk all (Nat.zero_le _) False.elim past ahead
  · rw [if_neg hs]
    cases ho : OpenFile.offer rest file with
    | error e f => exact phase_refused c e hk all past ahead (by rw [OpenFile.offer_error ho])
    | ok i f =>
      have hsplit := OpenFile.offer_split ho
      obtain ⟨htaken, -, -⟩ := OpenFile.offer_ok ho
      rw [ByteArray.append_empty] at past ahead
      refine .line hk all (Nat.zero_le _) (fun _ => rfl) ?_ ?_
      · show Begins _ (f.taken ++ ByteArray.empty)
        rw [ByteArray.append_empty, htaken]
        exact past.append _
      · show f.taken ++ ByteArray.empty ++ (rest.extract i rest.size ++ _) = _
        rw [ByteArray.append_empty, ← ByteArray.append_assoc, hsplit, ByteArray.append_assoc]
        exact ahead

end Line

/-! Between the lines and behind them. -/

section Between
variable {w : Writer} {file : OpenFile} {kept : ByteArray} {capacity rows left k : Nat}
  {events : Array Event}

theorem phase_begun (hk : k + (left + 1) = n) (all : (g.upcoming k).length = k) (sound : w.Sound)
    (written : w.written = Record.lines (g.upcoming k)) :
    Phase g n (begun ⟨⟨g.advance k, w, rows, events⟩, .idle, .rows (left + 1), k, none⟩ left) := by
  have hone := Generator.upcoming_add all 1
  have hadvance := Generator.advance_add all 1
  have hpast : Begins (Record.lines (g.upcoming (k + 1 - 1))) w.written := by
    rw [Nat.add_sub_cancel, written]
    exact .refl _
  simp only [begun]
  cases hb : Generator.build (g.advance k) with
  | ok r g' =>
    rw [Generator.advance_of_ok hb] at hadvance
    rw [Generator.upcoming_of_ok hb] at hone
    have hg : g' = g.advance (k + 1) := hadvance.symm
    subst hg
    refine .line (by omega) ?_ sound False.elim hpast ?_
    · rw [hone, List.length_append, all]
      rfl
    · show w.written ++ (ByteArray.empty ++ _) = _
      rw [ByteArray.empty_append, written, Record.joined_linePieces, hone, Record.lines_append,
        Record.lines_cons, Generator.upcoming, Record.lines_nil, ByteArray.append_empty]
  | error e g' =>
    rw [Generator.advance_of_error hb] at hadvance
    rw [Generator.upcoming_of_error hb, List.append_nil] at hone
    have hg : g' = g.advance (k + 1) := hadvance.symm
    subst hg
    refine phase_failed (by omega) hpast ?_ fun h => absurd rfl (h e)
    rw [hone, written]
    exact .refl _

theorem phase_finishing (all : (g.upcoming n).length = n)
    (written : Writer.written ⟨file, kept, capacity⟩ = Record.lines (g.upcoming n)) :
    Phase g n (drained ⟨⟨g.advance n, ⟨file, kept, capacity⟩, rows, events⟩,
      .draining .finish none, .size, n, none⟩ .finish none) := by
  simp only [drained]
  by_cases hs : kept.size = 0
  · rw [if_pos hs]
    exact .ended all written (ByteArray.size_eq_zero_iff.1 hs)
  · rw [if_neg hs]
    cases ho : OpenFile.offer kept file with
    | ok i f => exact .ending all ((OpenFile.offer_split ho).trans written)
    | error e f =>
      have hwritten : Writer.written ⟨f, kept, capacity⟩ = Record.lines (g.upcoming n) := by
        rw [← written, Writer.written, Writer.written, OpenFile.offer_error ho]
      obtain ⟨hpast, hahead⟩ := Writer.begins_of_written hwritten
      exact phase_failed (Nat.le_refl n) hpast hahead fun _ => all

theorem phase_measured (all : (g.upcoming n).length = n)
    (written : w.written = Record.lines (g.upcoming n)) (pending : w.pending = ByteArray.empty) :
    Phase g n (measured ⟨⟨g.advance n, w, rows, events⟩, .idle, .size, n, none⟩) := by
  obtain ⟨hpast, hahead⟩ := Writer.begins_of_written written
  simp only [measured]
  split
  · exact .finished (Nat.le_refl n) (Or.inr rfl) hpast hahead
      ⟨fun _ => all, fun _ _ => ⟨rfl, written, pending⟩⟩
  · exact phase_failed (Nat.le_refl n) hpast hahead fun _ => all

theorem phase_closing {r : Except PopulateError Tally} (hk : k ≤ n)
    (past : Begins (Record.lines (g.upcoming (k - 1))) (Writer.written ⟨file, kept, capacity⟩))
    (ahead : Begins (Writer.written ⟨file, kept, capacity⟩) (Record.lines (g.upcoming k)))
    (settled : Settled g n k ⟨file, kept, capacity⟩ r) :
    Phase g n (drained ⟨⟨g.advance k, ⟨file, kept, capacity⟩, rows, events⟩,
      .draining .finish none, .finished, k, some r⟩ .finish none) := by
  simp only [drained]
  by_cases hs : kept.size = 0
  · rw [if_pos hs]
    exact .finished hk (Or.inl rfl) past ahead settled
  · rw [if_neg hs]
    have hempty (t : Tally) (ht : r = .ok t) : kept.size = 0 := by
      obtain ⟨-, -, hpending⟩ := settled.taken t ht
      exact ByteArray.size_eq_zero_iff.2 hpending
    cases ho : OpenFile.offer kept file with
    | ok i f =>
      have hsplit : Writer.written ⟨f, kept.extract i kept.size, capacity⟩ =
        Writer.written ⟨file, kept, capacity⟩ := OpenFile.offer_split ho
      rw [← hsplit] at past ahead
      exact .finished hk (Or.inr rfl) past ahead ⟨settled.all, fun t ht => absurd (hempty t ht) hs⟩
    | error e f =>
      have hsame : Writer.written ⟨f, kept, capacity⟩ = Writer.written ⟨file, kept, capacity⟩ := by
        rw [Writer.written, Writer.written, OpenFile.offer_error ho]
      rw [← hsame] at past ahead
      exact .finished hk (Or.inl rfl) past ahead ⟨settled.all, fun t ht => absurd (hempty t ht) hs⟩

end Between

theorem Phase.next {m m' : Moment σ} (hm : Phase g n m) (h : m.next? = some m') :
    Phase g n m' := by
  cases hm with
  | @line w rows events activity ps left k hk all sound alone past ahead =>
    obtain ⟨file, kept, capacity⟩ := w
    cases activity with
    | idle =>
      cases ps with
      | nil =>
        cases h
        refine .rows hk all sound ?_
        rw [← ahead, Piece.joined, Activity.ahead, ByteArray.append_empty, ByteArray.append_empty]
      | cons p ps =>
        cases h
        rw [Activity.ahead, ByteArray.empty_append, Piece.joined] at ahead
        exact phase_put hk all sound past ahead
    | draining c piece =>
      cases h
      exact phase_drained hk all sound past ahead
    | passing c rest =>
      cases h
      have hempty : kept = ByteArray.empty := alone trivial
      subst hempty
      exact phase_passed hk all past ahead
  | @rows w rows events left k hk all sound written =>
    cases left with
    | zero =>
      cases h
      have hkn : k = n := hk
      subst hkn
      exact .ending all written
    | succ left =>
      cases h
      exact phase_begun (by omega) all sound written
  | @ending w rows events all written =>
    obtain ⟨file, kept, capacity⟩ := w
    cases h
    exact phase_finishing all written
  | @ended w rows events all written pending =>
    cases h
    exact phase_measured all written pending
  | @finished w rows events activity k r hk closing past ahead settled =>
    rcases closing with hidle | hclosing
    · subst hidle
      cases h
    · subst hclosing
      obtain ⟨file, kept, capacity⟩ := w
      cases h
      exact phase_closing hk past ahead settled

theorem Phase.reaches {m m' : Moment σ} (hm : Phase g n m) (h : m.Reaches m') :
    Phase g n m' := by
  induction h with
  | refl => exact hm
  | tail _ hstep ih => exact ih.next hstep

/-! ## What the phases have in common -/

/-- Of the rows begun, all but the last are written in full. -/
theorem Phase.bounds {m : Moment σ} (hm : Phase g n m) :
    m.started ≤ n ∧ m.job.generator = g.advance m.started ∧
      Begins (Record.lines (g.upcoming (m.started - 1))) m.written ∧
      Begins m.written (Record.lines (g.upcoming m.started)) := by
  cases hm with
  | line hk all sound alone past ahead => exact ⟨Nat.le.intro hk, rfl, past, ⟨_, ahead⟩⟩
  | rows hk all sound written =>
    exact ⟨Nat.le.intro hk, rfl, Writer.begins_of_written written⟩
  | ending all written => exact ⟨Nat.le_refl n, rfl, Writer.begins_of_written written⟩
  | ended all written pending => exact ⟨Nat.le_refl n, rfl, Writer.begins_of_written written⟩
  | finished hk closing past ahead settled => exact ⟨hk, rfl, past, ahead⟩

theorem Phase.settled {m : Moment σ} {w : Written σ} (hm : Phase g n m)
    (h : m.outcome? = some w) :
    Settled g n m.started m.job.writer w.result ∧ w.generator = m.job.generator ∧
      w.file = m.job.writer.file := by
  cases hm with
  | line | rows | ending | ended => cases h
  | @finished _ _ _ _ _ r hk closing past ahead settled =>
    cases r <;> cases h <;> exact ⟨settled, rfl, rfl⟩

end Moment

/-! ## Whole runs -/

/-- At every moment of a run, what is written is a beginning of the lines. The run ends with all
lines in the file, or with an error and a beginning of them in the file; the generator then goes on
behind the rows begun. The capacity of the buffer only matters to a file that refuses something. -/
theorem writeFile_begins_lines {σ : Type} [WordSource σ] (capacity : Nat) (b : Behaviour)
    (g : Generator σ) (n : Nat) :
    (∀ m, (Moment.start capacity (.fresh b) g n).Reaches m →
      m.started ≤ n ∧ m.job.generator = g.advance m.started ∧
      Begins m.written (Record.lines (g.upcoming n)) ∧
      Begins m.written (Record.lines (g.upcoming m.started)) ∧
      Begins (Record.lines (g.upcoming (m.started - 1))) m.written) ∧
    (∃ m, (Moment.start capacity (.fresh b) g n).Reaches m ∧ m.next? = none ∧
      m.outcome? = some (writeFile capacity (.fresh b) g n) ∧
      (writeFile capacity (.fresh b) g n).generator = g.advance m.started ∧
      (writeFile capacity (.fresh b) g n).file = m.job.writer.file ∧
      ((∀ e, (writeFile capacity (.fresh b) g n).result ≠ .error (.draw e)) →
        (g.upcoming m.started).length = m.started ∧
        (writeFile capacity (.fresh b) g n).generator.built = g.built + m.started ∧
        ∀ j, (writeFile capacity (.fresh b) g n).generator.upcoming j = g.slice m.started j)) ∧
    (∀ t, (writeFile capacity (.fresh b) g n).result = .ok t →
      (writeFile capacity (.fresh b) g n).file.taken = Record.lines (g.upcoming n) ∧
      (g.upcoming n).length = n ∧ t.rows = n) ∧
    Begins (writeFile capacity (.fresh b) g n).file.taken (Record.lines (g.upcoming n)) ∧
    (b.Willing → ∀ capacity',
      (writeFile capacity' (.fresh b) g n).result = (writeFile capacity (.fresh b) g n).result ∧
      (writeFile capacity' (.fresh b) g n).generator =
        (writeFile capacity (.fresh b) g n).generator ∧
      (writeFile capacity' (.fresh b) g n).file.taken =
        (writeFile capacity (.fresh b) g n).file.taken ∧
      (writeFile capacity' (.fresh b) g n).events =
        (writeFile capacity (.fresh b) g n).events) := by
  have hphase {m : Moment σ} (h : (Moment.start capacity (.fresh b) g n).Reaches m) :
      Moment.Phase g n m := (Moment.phase_start capacity b g n).reaches h
  obtain ⟨last, hlast, hnext, houtcome⟩ := writeFile_reaches capacity (.fresh b) g n
  obtain ⟨hstarted, hgenerator, -, hahead⟩ := (hphase hlast).bounds
  obtain ⟨hsettled, hg, hfile⟩ := (hphase hlast).settled houtcome
  refine ⟨?_, ⟨last, hlast, hnext, houtcome, hg.trans hgenerator, hfile, ?_⟩, ?_, ?_, ?_⟩
  · intro m hm
    obtain ⟨hk, hadvance, hpast, hup⟩ := (hphase hm).bounds
    exact ⟨hk, hadvance, hup.trans (begins_upcoming g hk), hup, hpast⟩
  · intro hdraw
    have hall := hsettled.all hdraw
    refine ⟨hall, ?_, ?_⟩
    · rw [hg, hgenerator, Generator.built_advance, hall]
    · intro j
      rw [hg, hgenerator, Generator.slice_eq hall]
  · intro t ht
    obtain ⟨hk, hwritten, hpending⟩ := hsettled.taken t ht
    have hlength : (g.upcoming n).length = n := by
      rw [← hk]
      refine hsettled.all ?_
      intro e he
      rw [ht] at he
      cases he
    refine ⟨?_, hlength, ?_⟩
    · rw [hfile, ← hwritten, Writer.written, hpending, ByteArray.append_empty]
    · rw [writeFile_result, Behaviour.verdict] at ht
      split at ht
      · cases ht
      · split at ht
        · cases ht
        · split at ht <;> cases ht
          rfl
  · have htaken : Begins last.job.writer.file.taken last.written := ⟨_, rfl⟩
    rw [hfile]
    exact (htaken.trans hahead).trans (begins_upcoming g hstarted)
  · intro hb capacity'
    obtain ⟨f, hf, htaken⟩ := writeFile_willing hb capacity g n
    obtain ⟨f', hf', htaken'⟩ := writeFile_willing hb capacity' g n
    rw [hf, hf']
    exact ⟨rfl, rfl, htaken'.trans htaken.symm, rfl⟩

end SyntheticLog
