import SyntheticLog.Proofs.Populate.Moment
import SyntheticLog.Proofs.Populate.Refusal

/-!
# A run is its steps

The steps from `Moment.start` come to an end, and what they end with is what `writeFile` gives. Each
part of a run (a hand-over, a piece, a line, a row, the rows) is followed step by step.

* `Moment.reaches_drain`, `Moment.reaches_put`, `Moment.reaches_rows`: the steps of the parts.
* `writeFile_reaches`: the steps of a whole run.
-/

set_option autoImplicit false

namespace SyntheticLog

open SyntheticLog.Random Log

namespace Moment

variable {σ : Type} [WordSource σ]

theorem Reaches.refl (m : Moment σ) : Reaches m m := Relation.ReflTransGen.refl

theorem Reaches.trans {m₁ m₂ m₃ : Moment σ} (h₁ : Reaches m₁ m₂) (h₂ : Reaches m₂ m₃) :
    Reaches m₁ m₃ := Relation.ReflTransGen.trans h₁ h₂

theorem Reaches.single {m m' : Moment σ} (h : m.next? = some m') : Reaches m m' :=
  Relation.ReflTransGen.single h

theorem Reaches.step {m₁ m₂ m₃ : Moment σ} (h₁ : m₁.next? = some m₂) (h₂ : Reaches m₂ m₃) :
    Reaches m₁ m₃ := (Reaches.single h₁).trans h₂

/-! ## Handing over -/

section HandingOver
variable (g : Generator σ) (capacity rows : Nat) (events : Array Event) (plan : Plan)
  (started : Nat) (result : Option (Except PopulateError Tally)) (c : Cause)

theorem reaches_drain (file : OpenFile) (kept : ByteArray) (piece : Option ByteArray) :
    Reaches ⟨⟨g, ⟨file, kept, capacity⟩, rows, events⟩, .draining c piece, plan, started, result⟩
      (match file.handOver kept with
      | ⟨f, rest, none⟩ =>
        ⟨⟨g, ⟨f, rest, capacity⟩, rows, events⟩, .draining c piece, plan, started, result⟩
      | ⟨f, rest, some e⟩ =>
        refused ⟨⟨g, ⟨f, rest, capacity⟩, rows, events⟩, .idle, plan, started, result⟩
          (c.failure e)) := by
  fun_induction OpenFile.handOver file kept with
  | case1 file kept hs =>
    rw [ByteArray.size_eq_zero_iff.1 hs]
    exact Reaches.refl _
  | case2 file kept hs k f hk ih =>
    refine Reaches.step ?_ ih
    simp only [next?, drained, if_neg hs, hk, withWriter]
  | case3 file kept hs e f hk =>
    refine Reaches.single ?_
    simp only [next?, drained, if_neg hs, hk, withWriter, refused]

theorem reaches_pass (file : OpenFile) (kept piece : ByteArray) :
    Reaches ⟨⟨g, ⟨file, kept, capacity⟩, rows, events⟩, .passing c piece, plan, started, result⟩
      (match file.handOver piece with
      | ⟨f, _, none⟩ => ⟨⟨g, ⟨f, kept, capacity⟩, rows, events⟩, .idle, plan, started, result⟩
      | ⟨f, _, some e⟩ =>
        refused ⟨⟨g, ⟨f, kept, capacity⟩, rows, events⟩, .idle, plan, started, result⟩
          (c.failure e)) := by
  fun_induction OpenFile.handOver file piece with
  | case1 file piece hs =>
    refine Reaches.single ?_
    simp only [next?, passed, if_pos hs]
  | case2 file piece hs k f hk ih =>
    refine Reaches.step ?_ ih
    simp only [next?, passed, if_neg hs, hk, withWriter]
  | case3 file piece hs e f hk =>
    refine Reaches.single ?_
    simp only [next?, passed, if_neg hs, hk, withWriter, refused]

/-! ## Pieces -/

theorem reaches_stored (file : OpenFile) (kept piece : ByteArray) :
    Reaches
      (stored ⟨⟨g, ⟨file, kept, capacity⟩, rows, events⟩, .idle, plan, started, result⟩ c piece)
      (match Writer.store piece ⟨file, kept, capacity⟩ with
      | .ok _ w => ⟨⟨g, w, rows, events⟩, .idle, plan, started, result⟩
      | .error e w =>
        refused ⟨⟨g, w, rows, events⟩, .idle, plan, started, result⟩ (c.failure e)) := by
  simp only [stored, Writer.store]
  by_cases hc : capacity ≤ piece.size
  · rw [if_pos hc, if_pos hc, Writer.putDirect]
    have h := reaches_pass g capacity rows events plan started result c file kept piece
    rcases hf : file.handOver piece with ⟨f, rest, _ | e⟩ <;> rw [hf] at h <;> exact h
  · rw [if_neg hc, if_neg hc]
    exact Reaches.refl _

theorem reaches_put (w : Writer) (p : Piece) :
    Reaches (put ⟨⟨g, w, rows, events⟩, .idle, plan, started, result⟩ p)
      (match Writer.put p.bytes w with
      | .ok _ w => ⟨⟨g, w, rows, events⟩, .idle, plan, started, result⟩
      | .error e w =>
        refused ⟨⟨g, w, rows, events⟩, .idle, plan, started, result⟩ (p.cause.failure e)) := by
  obtain ⟨file, kept, capacity⟩ := w
  have hstored (f : OpenFile) (b : ByteArray) :=
    reaches_stored g capacity rows events plan started result p.cause f b p.bytes
  by_cases hs : Writer.spare ⟨file, kept, capacity⟩ < p.bytes.size
  -- What is kept back goes first; once it is gone, the piece meets an empty buffer.
  · rw [Writer.put_of_lt hs]
    simp only [put, if_pos hs, bind, EStateM.bind, Writer.drain]
    have hdrain := reaches_drain g capacity rows events plan started result p.cause file kept
      (some p.bytes)
    rcases hf : file.handOver kept with ⟨f, rest, _ | e⟩
    · rw [hf] at hdrain
      obtain rfl := OpenFile.rest_eq hf
      refine hdrain.trans (Reaches.step ?_ (hstored f ByteArray.empty))
      simp only [next?, drained, ByteArray.size_empty, if_true, stored, withWriter]
    · rw [hf] at hdrain
      exact hdrain
  · rw [Writer.put_of_le (Nat.not_lt.1 hs)]
    simp only [put, if_neg hs]
    exact hstored file kept

end HandingOver

/-! ## Rows -/

def failed (j : Job σ) (started : Nat) (e : PopulateError) : Moment σ :=
  ⟨j, .draining .finish none, .finished, started, some (.error e)⟩

theorem reaches_line (g : Generator σ) (w : Writer) (rows : Nat) (events : Array Event)
    (ps : List Piece) (left started : Nat) :
    Reaches ⟨⟨g, w, rows, events⟩, .idle, .line ps left, started, none⟩
      (match Writer.putAll ps w with
      | .ok _ w => ⟨⟨g, w, rows, events⟩, .idle, .line [] left, started, none⟩
      | .error x w => failed ⟨g, w, rows, events⟩ started (x.1.failure x.2)) := by
  induction ps generalizing w with
  | nil => exact Reaches.refl _
  | cons p ps ih =>
    have hput := reaches_put g rows events (.line ps left) started none w p
    have hstep : next? ⟨⟨g, w, rows, events⟩, .idle, .line (p :: ps) left, started, none⟩ =
        some (put ⟨⟨g, w, rows, events⟩, .idle, .line ps left, started, none⟩ p) := rfl
    refine Reaches.step hstep ?_
    cases hp : Writer.put p.bytes w with
    | ok u v =>
      rw [hp] at hput
      rw [Writer.putAll_cons_of_ok hp]
      exact hput.trans (ih v)
    | error e v =>
      rw [hp] at hput
      rw [Writer.putAll_cons_of_error hp]
      exact hput

theorem reaches_row (j : Job σ) (left started : Nat) :
    Reaches ⟨j, .idle, .rows (left + 1), started, none⟩
      (match Job.writeRow j with
      | .ok _ j => ⟨j, .idle, .rows left, started + 1, none⟩
      | .error e j => failed j (started + 1) e) := by
  obtain ⟨g, w, rows, events⟩ := j
  rw [Job.writeRow_eq]
  cases hb : Generator.build g with
  | error e g' =>
    refine Reaches.single ?_
    simp only [next?, begun, hb, refused, failed]
  | ok r g' =>
    have hstep : next? ⟨⟨g, w, rows, events⟩, .idle, .rows (left + 1), started, none⟩ =
        some ⟨⟨g', w, rows, events⟩, .idle, .line r.linePieces left, started + 1, none⟩ := by
      simp only [next?, begun, hb]
    refine Reaches.step hstep ?_
    have hline := reaches_line g' w rows events r.linePieces left (started + 1)
    cases hp : Writer.putAll r.linePieces w with
    | error x v =>
      rw [hp] at hline
      simp only [hp]
      exact hline
    | ok u v =>
      rw [hp] at hline
      simp only [hp]
      exact hline.trans (Reaches.single rfl)

theorem reaches_rows (n : Nat) (j : Job σ) (started : Nat) :
    ∃ started', Reaches ⟨j, .idle, .rows n, started, none⟩
      (match Job.writeRows n j with
      | .ok _ j => ⟨j, .idle, .rows 0, started', none⟩
      | .error e j => failed j started' e) := by
  induction n generalizing j started with
  | zero => exact ⟨started, Reaches.refl _⟩
  | succ n ih =>
    have hrow := reaches_row j n started
    rw [Job.writeRows_succ]
    cases hr : Job.writeRow j with
    | error e j' =>
      rw [hr] at hrow
      exact ⟨started + 1, hrow⟩
    | ok u j' =>
      rw [hr] at hrow
      obtain ⟨started', hrows⟩ := ih j' (started + 1)
      exact ⟨started', hrow.trans hrows⟩

/-! ## The end of a run -/

theorem reaches_finish (j : Job σ) (started : Nat) :
    Reaches ⟨j, .idle, .rows 0, started, none⟩
      (match Job.finish j with
      | .ok t j => ⟨j, .draining .finish none, .finished, started, some (.ok t)⟩
      | .error e j => failed j started e) := by
  obtain ⟨g, ⟨file, kept, capacity⟩, rows, events⟩ := j
  have hfinish : next? ⟨⟨g, ⟨file, kept, capacity⟩, rows, events⟩, .idle, .rows 0, started, none⟩ =
      some ⟨⟨g, ⟨file, kept, capacity⟩, rows, events⟩, .draining .finish none, .size, started,
        none⟩ := rfl
  refine Reaches.step hfinish ?_
  have hdrain := reaches_drain g capacity rows events .size started none .finish file kept none
  rw [Job.finish_eq, Writer.drain]
  rcases hf : file.handOver kept with ⟨f, rest, _ | e⟩
  · rw [hf] at hdrain
    obtain rfl := OpenFile.rest_eq hf
    have hidle : next? ⟨⟨g, ⟨f, ByteArray.empty, capacity⟩, rows, events⟩, .draining .finish none,
        .size, started, none⟩ =
      some ⟨⟨g, ⟨f, ByteArray.empty, capacity⟩, rows, events⟩, .idle, .size, started, none⟩ := rfl
    refine hdrain.trans (Reaches.step hidle (Reaches.single ?_))
    simp only [next?, measured]
    cases f.behaviour.size f.taken.size <;> rfl
  · rw [hf] at hdrain
    exact hdrain

/-- The bytes kept back at the end are handed over for a last time, whatever comes of it. -/
theorem reaches_close (g : Generator σ) (w : Writer) (rows : Nat) (events : Array Event)
    (started : Nat) (r : Except PopulateError Tally) :
    ∃ w', Reaches ⟨⟨g, w, rows, events⟩, .draining .finish none, .finished, started, some r⟩
      ⟨⟨g, w', rows, events⟩, .idle, .finished, started, some r⟩ ∧ w'.file = w.close := by
  obtain ⟨file, kept, capacity⟩ := w
  have hdrain := reaches_drain g capacity rows events .finished started (some r) .finish file kept
    none
  rcases hf : file.handOver kept with ⟨f, rest, _ | e⟩
  · rw [hf] at hdrain
    obtain rfl := OpenFile.rest_eq hf
    refine ⟨⟨f, ByteArray.empty, capacity⟩, hdrain.trans (Reaches.single rfl), ?_⟩
    simp only [Writer.close, Writer.drain, hf]
  · rw [hf] at hdrain
    refine ⟨⟨f, rest, capacity⟩, hdrain, ?_⟩
    simp only [Writer.close, Writer.drain, hf]

end Moment

/-- The steps of a run come to an end, and end with what `writeFile` gives. -/
theorem writeFile_reaches {σ : Type} [WordSource σ] (capacity : Nat) (file : OpenFile)
    (g : Generator σ) (n : Nat) :
    ∃ m, (Moment.start capacity file g n).Reaches m ∧ m.next? = none ∧
      m.outcome? = some (writeFile capacity file g n) := by
  obtain ⟨started, hrows⟩ := Moment.reaches_rows n (.start capacity file g) 0
  rw [writeFile, Job.run_eq]
  cases hr : Job.writeRows n (.start capacity file g) with
  | error e j =>
    rw [hr] at hrows
    obtain ⟨g', w, rows, events⟩ := j
    obtain ⟨w', hclose, hfile⟩ := Moment.reaches_close g' w rows events started (.error e)
    exact ⟨_, hrows.trans hclose, rfl, by simp only [Moment.outcome?, hfile]⟩
  | ok u j =>
    rw [hr] at hrows
    have hfinish := Moment.reaches_finish j started
    cases hd : Job.finish j with
    | error e j' =>
      rw [hd] at hfinish
      obtain ⟨g', w, rows, events⟩ := j'
      obtain ⟨w', hclose, hfile⟩ := Moment.reaches_close g' w rows events started (.error e)
      refine ⟨_, (hrows.trans hfinish).trans hclose, rfl, ?_⟩
      simp only [Moment.outcome?, hfile, hd]
    | ok t j' =>
      rw [hd] at hfinish
      obtain ⟨g', w, rows, events⟩ := j'
      obtain ⟨w', hclose, hfile⟩ := Moment.reaches_close g' w rows events started (.ok t)
      refine ⟨_, (hrows.trans hfinish).trans hclose, rfl, ?_⟩
      simp only [Moment.outcome?, hfile, hd]

end SyntheticLog
