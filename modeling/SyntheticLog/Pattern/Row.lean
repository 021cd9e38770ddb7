/-!
# Nesting

How deep the parts of a pattern lie in each other. What is repeated, a group, a set, a row of
several parts and a choice between several rows are each one level deeper than what they hold.

* `Row.add`, `Row.depth`: a further part in a row, and the depth of the row.
* `Row.beside`: the depth of a row together with what stands before it.
-/

set_option autoImplicit false

namespace SyntheticLog.Pattern

def depthLimit : Nat := 250

structure Row where
  count : Nat
  deepest : Nat
  deriving DecidableEq, Repr

namespace Row

def empty : Row := ⟨0, 0⟩

/-- The row with one more part, of depth `d`. -/
def add (d : Nat) (r : Row) : Row := ⟨r.count + 1, max r.deepest d⟩

/-- The row with its last part, now of depth `d`, one deeper than before. -/
def deepen (d : Nat) (r : Row) : Row := ⟨r.count, max r.deepest d⟩

/-- The depth of a row. A single part makes no row. -/
def depth (r : Row) : Nat := if r.count ≤ 1 then r.deepest else r.deepest + 1

/-- The depth of a row behind something of depth `before`. -/
def beside (before : Option Nat) (r : Row) : Nat :=
  match before with
  | none => r.depth
  | some d => max d r.depth + 1

end Row

end SyntheticLog.Pattern
