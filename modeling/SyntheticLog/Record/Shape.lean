import SyntheticLog.Digest
import SyntheticLog.Record.Json
import SyntheticLog.Text.Utf8

/-!
# The shape of a file

Whether a file consists of records of the domain, one on each line.
-/

set_option autoImplicit false

namespace SyntheticLog.Record

/-- The bytes are what is written for a record of the domain. -/
def isLine (bytes : List UInt8) : Bool :=
  (ofLine? (Utf8.lossy bytes)).any fun r => r.InDomain ∧ Utf8.encode r.json = bytes

def carriageReturn : UInt8 := 13

/-- A line without the carriage return at its end. -/
def dropReturn (line : List UInt8) : List UInt8 :=
  if line.getLast? = some carriageReturn then line.dropLast else line

/-- The lines of a text. A newline ends a line also with a carriage return before it. -/
def textLines (contents : ByteArray) : List (List UInt8) :=
  let (lines, rest) := Digest.split contents
  Digest.withRest (lines.map dropReturn) rest

/-- What can be said of a file without regard to the values in it. -/
structure Shape where
  lines : Nat
  valid : Bool
  /-- The file is empty or ends with a newline. -/
  terminated : Bool
  deriving DecidableEq, Repr

/-- The shape of a file with the given contents. -/
def shape (contents : ByteArray) : Shape :=
  let ls := textLines contents
  ⟨ls.length, ls.all isLine, contents.size = 0 || contents.data.back? == some Digest.newline⟩

end SyntheticLog.Record
