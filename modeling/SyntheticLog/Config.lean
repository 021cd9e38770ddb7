import SyntheticLog.Text.Utf8

/-!
# Configurations

A `Config` says what one run writes, and where. The defaults are filled in when the command line has
been read, so that nothing behind it deals with missing values.
-/

set_option autoImplicit false

namespace SyntheticLog

/-- The bytes of a path or of an argument. They need not be a text. -/
abbrev Bytes : Type := List UInt8

structure Config where
  rowCount : Nat
  /-- The file to create, or to truncate if it exists. -/
  filePath : Bytes
  /-- The seed; without one the source is made from entropy. -/
  seed : Option UInt64
  deriving DecidableEq, Repr

namespace Config

def defaultRowCount : Nat := 100

def defaultFilePath : String := "log.json"

def standard : Config := ⟨defaultRowCount, Utf8.encode defaultFilePath, none⟩

end Config

end SyntheticLog
