/-!
# Metrics of a run

What a finished run produced, and its throughput.
-/

set_option autoImplicit false

namespace SyntheticLog

structure Tally where
  rows : Nat
  /-- The size of the file after the last write. -/
  size : Nat
  deriving DecidableEq, Repr

/-- What a finished run has written, and how long it took. -/
structure Metrics extends Tally where
  /-- The time from opening the file to the last write, in nanoseconds. -/
  elapsed : Nat
  deriving DecidableEq, Repr

namespace Metrics

def zero : Metrics := ⟨⟨0, 0⟩, 0⟩

def seconds (m : Metrics) : Float :=
  (m.elapsed / 1000000000).toUInt64.toFloat + (m.elapsed % 1000000000).toUInt64.toFloat / 1e9

/-- Rows per second; zero when no time was measured. -/
def rowsPerSecond (m : Metrics) : Float :=
  if m.seconds > 0.0 then m.rows.toUInt64.toFloat / m.seconds else 0.0

end Metrics

end SyntheticLog
