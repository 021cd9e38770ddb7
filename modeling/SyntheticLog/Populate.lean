import SyntheticLog.Files.Walk
import SyntheticLog.Generator.Basic
import SyntheticLog.Log.Event
import SyntheticLog.Metrics
import SyntheticLog.Output.Writer

/-!
# Populating a file

The records of a generator are written to a file, one line each, through a buffer.

* `Job`: what a run works on, and `Job.Step`: the steps that a run consists of.
* `Job.Carrier`: what carries the steps out; `Job.Carrier.run` is the order in which it gets them, and
  the way in which a refusal fails each of them.
* `Job.run`: a run on a job alone, with `Job.writeRow` for one record and `Job.writeRows` for many.
* `writeFile`: a run on a file that is open already.
* `populate`: a run on the file at a path.
-/

set_option autoImplicit false

namespace SyntheticLog

open SyntheticLog.Random Log

inductive PopulateError
  /-- The file fails between records: when it is opened, at the end of a line or at the end. -/
  | io (e : FileError)
  /-- The file fails while a record is written. -/
  | json (e : FileError)
  /-- A record cannot be drawn. -/
  | draw (e : Stop)
  deriving DecidableEq, Repr

namespace PopulateError

/-- The text of the error behind a failure. -/
def cause : PopulateError → String
  | .io e | .json e => e.message
  | .draw e => e.message

def message : PopulateError → String
  | .io e => s!"IO error: {e.message}"
  | .json e => s!"JSON serialization error: {e.message}"
  | .draw e => s!"Random source error: {e.message}"

end PopulateError

/-! ## Runs -/

def bufferCapacity : Nat := 65536

/-- The number of rows between two reports. -/
def progressInterval : Nat := 10000

structure Job (σ : Type) where
  generator : Generator σ
  writer : Writer
  rows : Nat
  events : Array Event

namespace Job

variable {σ : Type}

/-- The job of a run on an open file, through a buffer of the given capacity. -/
def start (capacity : Nat) (file : OpenFile) (g : Generator σ) : Job σ :=
  ⟨g, .ofFile file capacity, 0, #[]⟩

/-! ### Steps -/

/-- A step of a run. It is told how a refusal by the file fails the run. -/
abbrev Step (σ : Type) : Type := (FileError → PopulateError) → EStateM PopulateError (Job σ) Unit

/-- A step of the writer; what goes wrong with the file fails the run in the given way. -/
def onWriter {α : Type} (failure : FileError → PopulateError) (step : EStateM FileError Writer α) :
    EStateM PopulateError (Job σ) α := fun j =>
  match j with
  | ⟨g, w, rows, events⟩ =>
    match step w with
    | .ok x w => .ok x ⟨g, w, rows, events⟩
    | .error e w => .error (failure e) ⟨g, w, rows, events⟩

def putPieces : List String → EStateM FileError Writer Unit
  | [] => pure ()
  | p :: ps => do
    Writer.put p.toUTF8
    putPieces ps

def endLine : Step σ := fun failure => onWriter failure (Writer.put "\n".toUTF8)

/-- Counts a line, and reports when their number is round. -/
def countRow : Step σ := fun _ j =>
  match j with
  | ⟨g, w, rows, events⟩ =>
    .ok () ⟨g, w, rows + 1,
      if (rows + 1) % progressInterval = 0 then events.push (.progress (rows + 1)) else events⟩

/-- Hands over the bytes kept back. -/
def drain : Step σ := fun failure => onWriter failure Writer.drain

/-- The size of a file whose bytes are all handed over, as the system gives it. -/
def sizeOf? : EStateM FileError Writer Nat := fun w =>
  match w.file.behaviour.size w.file.taken.size with
  | .ok n => .ok n w
  | .error e => .error e w

variable [WordSource σ]

def build : EStateM PopulateError (Job σ) Record := fun j =>
  match j with
  | ⟨g, w, rows, events⟩ =>
    match Generator.build g with
    | .ok r g => .ok r ⟨g, w, rows, events⟩
    | .error e g => .error (.draw e) ⟨g, w, rows, events⟩

/-- Builds a record and writes it, without the end of its line. -/
def writeRecord : Step σ := fun failure => do
  let r ← build
  onWriter failure (putPieces r.pieces)

/-! ### The order of the steps -/

/-- What carries a run: it makes the steps, and asks for the size of the file at the end. -/
structure Carrier (σ : Type) (m : Type → Type) where
  step : Step σ → (FileError → PopulateError) → m Unit
  size : (FileError → PopulateError) → m Nat

namespace Carrier

variable {m : Type → Type} [Monad m]

@[specialize]
def row (c : Carrier σ m) : m Unit := do
  c.step writeRecord .json
  c.step endLine .io
  c.step countRow .io

@[specialize]
def rows (c : Carrier σ m) : Nat → m Unit
  | 0 => pure ()
  | n + 1 => do
    c.row
    c.rows n

variable [MonadStateOf (Job σ) m]

/-- Hands over the bytes kept back and asks for the size of the file. -/
@[specialize]
def finish (c : Carrier σ m) : m Tally := do
  c.step drain .io
  let size ← c.size .io
  return ⟨(← getThe (Job σ)).rows, size⟩

/-- Writes `count` rows and comes to the end of the file. -/
@[specialize]
def run (c : Carrier σ m) (count : Nat) : m Tally := do
  c.rows count
  c.finish

end Carrier

/-- The steps are made on the job and on nothing else. -/
@[inline]
def alone : Carrier σ (EStateM PopulateError (Job σ)) where
  step s failure := s failure
  size failure := onWriter failure sizeOf?

def writeRow : EStateM PopulateError (Job σ) Unit := alone.row

def writeRows (n : Nat) : EStateM PopulateError (Job σ) Unit := alone.rows n

def finish : EStateM PopulateError (Job σ) Tally := alone.finish

def run (count : Nat) : EStateM PopulateError (Job σ) Tally := alone.run count

end Job

/-! ## Files -/

/-- What comes of a run on an open file. -/
structure Written (σ : Type) where
  result : Except PopulateError Tally
  generator : Generator σ
  file : OpenFile
  events : List Event

variable {σ : Type} [WordSource σ]

/-- Writes `count` records to an open file, through a buffer of the given capacity. -/
def writeFile (capacity : Nat) (file : OpenFile) (g : Generator σ) (count : Nat) : Written σ :=
  match Job.run count (.start capacity file g) with
  | .ok t ⟨g, w, _, events⟩ =>
    ⟨.ok t, g, w.close, (events.push (.complete t.rows t.size)).toList⟩
  | .error e ⟨g, w, _, events⟩ => ⟨.error e, g, w.close, events.toList⟩

/-- How the file that a path was opened to answers. -/
def FileSystem.Target.behaviour : FileSystem.Target → Behaviour
  | .regular _ => .regular
  | .device .null => .null
  | .device .full => .full

/-- What comes of a run on a path. -/
structure Populated (σ : Type) where
  result : Except PopulateError Tally
  generator : Generator σ
  files : FileSystem
  events : List Event

/-- Writes `count` records to the file at a path, which is created or cut down to nothing first. -/
def populate (fs : FileSystem) (g : Generator σ) (count : Nat) (path : Bytes) : Populated σ :=
  let started := Event.start path count
  match fs.create path with
  | .error e => ⟨.error (.io e), g, fs, [started]⟩
  | .ok (target, fs) =>
    let w := writeFile bufferCapacity (.fresh target.behaviour) g count
    ⟨w.result, w.generator, fs.store target w.file.taken, started :: w.events⟩

end SyntheticLog
