import Mathlib.Logic.Relation
import SyntheticLog.Proofs.Populate.Rows

/-!
# The moments of a run

A run seen call by call: each step offers bytes to the file once, or moves bytes into the buffer, or
does one thing that leaves the bytes alone.

* `Moment`: where a run stands, and `Moment.next?`: its next step.
* `Moment.Reaches`: some steps, or none.
* `Moment.start`, `Moment.outcome?`: a run before its first step, and what it gives.
-/

set_option autoImplicit false

namespace SyntheticLog

open SyntheticLog.Random Log

/-! ## Steps -/

/-- What a writer is busy with. -/
inductive Activity
  | idle
  /-- The bytes kept back are handed over; behind them, a piece is to be written. -/
  | draining (cause : Cause) (piece : Option ByteArray)
  /-- The rest of a piece is handed over past the buffer. -/
  | passing (cause : Cause) (rest : ByteArray)

/-- What a run has to do once its writer is idle. -/
inductive Plan
  | line (ps : List Piece) (left : Nat)
  | rows (left : Nat)
  | size
  | finished

/-- Where a run stands. -/
structure Moment (σ : Type) where
  job : Job σ
  activity : Activity
  plan : Plan
  /-- The number of rows begun. -/
  started : Nat
  /-- What the run gives, once that is settled. -/
  result : Option (Except PopulateError Tally)

namespace Moment

variable {σ : Type}

def written (m : Moment σ) : ByteArray := m.job.writer.written

/-- The run fails. It tries to hand over what is kept back; if that fails too, it is at its end. -/
def refused (m : Moment σ) (e : PopulateError) : Moment σ :=
  match m.result with
  | none => ⟨m.job, .draining .finish none, .finished, m.started, some (.error e)⟩
  | some r => ⟨m.job, .idle, .finished, m.started, some r⟩

def withWriter (m : Moment σ) (w : Writer) : Moment σ :=
  { m with job := { m.job with writer := w } }

/-- A piece for which there is room goes to the buffer, or past it if it is as large. -/
def stored (m : Moment σ) (c : Cause) (piece : ByteArray) : Moment σ :=
  match m.job.writer with
  | ⟨file, kept, capacity⟩ =>
    if capacity ≤ piece.size then { m with activity := .passing c piece }
    else { m.withWriter ⟨file, kept ++ piece, capacity⟩ with activity := .idle }

/-- One step of the writer while it hands over the bytes kept back. -/
def drained (m : Moment σ) (c : Cause) (piece : Option ByteArray) : Moment σ :=
  match m.job.writer with
  | ⟨file, kept, capacity⟩ =>
    if kept.size = 0 then
      match piece with
      | some p => m.stored c p
      | none => { m with activity := .idle }
    else
      match OpenFile.offer kept file with
      | .ok k f => m.withWriter ⟨f, kept.extract k kept.size, capacity⟩
      | .error e f => (m.withWriter ⟨f, kept, capacity⟩).refused (c.failure e)

def passed (m : Moment σ) (c : Cause) (rest : ByteArray) : Moment σ :=
  match m.job.writer with
  | ⟨file, kept, capacity⟩ =>
    if rest.size = 0 then { m with activity := .idle }
    else
      match OpenFile.offer rest file with
      | .ok k f =>
        { m.withWriter ⟨f, kept, capacity⟩ with activity := .passing c (rest.extract k rest.size) }
      | .error e f => (m.withWriter ⟨f, kept, capacity⟩).refused (c.failure e)

/-- A piece is written, behind the bytes kept back if it does not fit. -/
def put (m : Moment σ) (p : Piece) : Moment σ :=
  if m.job.writer.spare < p.bytes.size then
    { m with activity := .draining p.cause (some p.bytes) }
  else m.stored p.cause p.bytes

def counted (m : Moment σ) : Moment σ :=
  match m.job with
  | ⟨g, w, rows, events⟩ => { m with job := ⟨g, w, rows + 1, Job.report (rows + 1) events⟩ }

def measured (m : Moment σ) : Moment σ :=
  match m.job.writer.file.behaviour.size m.job.writer.file.taken.size with
  | .ok size => ⟨m.job, .draining .finish none, .finished, m.started, some (.ok ⟨m.job.rows, size⟩)⟩
  | .error e => m.refused (.io e)

variable [WordSource σ]

def begun (m : Moment σ) (left : Nat) : Moment σ :=
  match m.job with
  | ⟨g, w, rows, events⟩ =>
    match Generator.build g with
    | .ok r g => ⟨⟨g, w, rows, events⟩, .idle, .line r.linePieces left, m.started + 1, m.result⟩
    | .error e g =>
      refused ⟨⟨g, w, rows, events⟩, m.activity, m.plan, m.started + 1, m.result⟩ (.draw e)

/-- The next step, unless the run is at its end. -/
def next? (m : Moment σ) : Option (Moment σ) :=
  match m.activity, m.plan with
  | .draining c piece, _ => some (m.drained c piece)
  | .passing c rest, _ => some (m.passed c rest)
  | .idle, .line (p :: ps) left => some ({ m with plan := .line ps left }.put p)
  | .idle, .line [] left => some { m.counted with plan := .rows left }
  | .idle, .rows (left + 1) => some (m.begun left)
  | .idle, .rows 0 => some { m with activity := .draining .finish none, plan := .size }
  | .idle, .size => some m.measured
  | .idle, .finished => none

/-- The later moment comes after some steps, or none. -/
def Reaches (m m' : Moment σ) : Prop := Relation.ReflTransGen (fun a b => a.next? = some b) m m'

omit [WordSource σ] in
/-- A run of `n` rows before its first step. -/
def start (capacity : Nat) (file : OpenFile) (g : Generator σ) (n : Nat) : Moment σ :=
  ⟨⟨g, .ofFile file capacity, 0, #[]⟩, .idle, .rows n, 0, none⟩

def outcome? (m : Moment σ) : Option (Written σ) :=
  match m.job, m.result with
  | ⟨g, w, _, events⟩, some (.ok t) =>
    some ⟨.ok t, g, w.file, (events.push (.complete t.rows t.size)).toList⟩
  | ⟨g, w, _, events⟩, some (.error e) => some ⟨.error e, g, w.file, events.toList⟩
  | _, none => none

end Moment

end SyntheticLog
