import SyntheticLog.Config
import SyntheticLog.Text.Decimal

/-!
# Log events

What a run reports on its way, with the level and the target that each event is logged under.
-/

set_option autoImplicit false

namespace SyntheticLog.Log

inductive Level
  | error
  | warn
  | info
  | debug
  | trace
  deriving DecidableEq, Repr

/-- The rank of a level: the more detail, the higher. -/
def Level.rank : Level → Nat
  | .error => 1
  | .warn => 2
  | .info => 3
  | .debug => 4
  | .trace => 5

def Level.name : Level → String
  | .error => "ERROR"
  | .warn => "WARN"
  | .info => "INFO"
  | .debug => "DEBUG"
  | .trace => "TRACE"

inductive Event
  /-- The source is made from a seed. -/
  | fixedSeed (seed : UInt64)
  /-- A file is about to be opened. -/
  | start (path : Bytes) (rows : Nat)
  /-- A round number of rows is written. -/
  | progress (rows : Nat)
  /-- All rows are in the file, which has `size` bytes. -/
  | complete (rows size : Nat)
  deriving DecidableEq, Repr

namespace Event

def level : Event → Level
  | .progress _ => .debug
  | .fixedSeed _ | .start .. | .complete .. => .info

/-- The part of the program that an event comes from. -/
def target : Event → String
  | .fixedSeed _ => "log_fixture_gen"
  | .start .. | .progress _ | .complete .. => "log_fixture_populate::populator"

def message : Event → String
  | .fixedSeed seed => s!"Using fixed seed {seed.toNat}"
  | .start path rows =>
    s!"Generating fixture file '{String.ofList (Utf8.lossy path)}' with {rows} rows"
  | .progress rows => s!"Written {rows} rows"
  | .complete rows size => s!"Fixture generation complete: {rows} rows, {size} bytes"

def lineWith (e : Event) (text : String) : String := s!"{e.level.name} {e.target}: {text}"

def line (e : Event) : String := e.lineWith e.message

end Event

end SyntheticLog.Log
