import SyntheticLog.Config
import SyntheticLog.Files.Error

/-!
# Paths

* `Path.check`: whether a path may be handed to the system at all.
* `Route`: a path taken apart into the names on the way.
-/

set_option autoImplicit false

namespace SyntheticLog

namespace Path

def slash : UInt8 := 47

/-- The least length of a path that is too long. -/
def limit : Nat := 4096

def nameMax : Nat := 255

/-- The name of the directory itself. -/
def dot : Bytes := [46]

/-- The name of the directory above. -/
def dotDot : Bytes := [46, 46]

/-- Refuses paths if one of them has a zero byte. -/
def checkZero (paths : List Bytes) : Except FileError Unit :=
  if paths.any fun path => decide (0 ∈ path) then .error .zeroByte else .ok ()

/-- Refuses an empty path and one that is too long. -/
def checkSize (path : Bytes) : Except FileError Unit :=
  if path.isEmpty then .error .noEntry
  else if limit ≤ path.length then .error .nameTooLong
  else .ok ()

/-- Refuses a path with a zero byte, an empty one and one that is too long, in this order. -/
def check (path : Bytes) : Except FileError Unit := do
  checkZero [path]
  checkSize path

end Path

structure Route where
  /-- The way begins at the root. -/
  absolute : Bool
  /-- The names on the way; none is empty. -/
  names : List Bytes
  /-- A slash follows the last name. -/
  trailing : Bool
  deriving DecidableEq, Repr

/-- The names on the way that a path describes. -/
def Route.ofPath (path : Bytes) : Route where
  absolute := path.head? = some Path.slash
  names := (path.splitOn Path.slash).filter fun name => !name.isEmpty
  trailing := path.getLast? = some Path.slash

/-- The routes to the directories above, the nearest first. A dot does not count as a name on the
way. -/
def Route.above (route : Route) : List Route :=
  let names := route.names.filter fun name => name ≠ Path.dot
  (List.range (names.length - 1)).map fun i =>
    ⟨route.absolute, names.take (names.length - 1 - i), false⟩

end SyntheticLog
