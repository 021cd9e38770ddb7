/-!
# Errors of the file system

Each error has the number and the wording that the operating system gives it, except the one for a
path that cannot even be handed to the system.
-/

set_option autoImplicit false

namespace SyntheticLog

inductive FileError
  | noEntry
  | entryExists
  | notDirectory
  | isDirectory
  | noSpace
  | nameTooLong
  | tooManyLinks
  /-- The path has a zero byte in it. -/
  | zeroByte
  /-- Any other error, in the words of the system. -/
  | other (text : String)
  deriving DecidableEq, Repr

def FileError.message : FileError → String
  | .noEntry => "No such file or directory (os error 2)"
  | .entryExists => "File exists (os error 17)"
  | .notDirectory => "Not a directory (os error 20)"
  | .isDirectory => "Is a directory (os error 21)"
  | .noSpace => "No space left on device (os error 28)"
  | .nameTooLong => "File name too long (os error 36)"
  | .tooManyLinks => "Too many levels of symbolic links (os error 40)"
  | .zeroByte => "file name contained an unexpected NUL byte"
  | .other text => text

/-- The error of a number, which the system describes by a text. -/
def FileError.ofSystem (number : Nat) (text : String) : FileError :=
  match number with
  | 2 => .noEntry
  | 17 => .entryExists
  | 20 => .notDirectory
  | 21 => .isDirectory
  | 28 => .noSpace
  | 36 => .nameTooLong
  | 40 => .tooManyLinks
  | n => .other s!"{text} (os error {n})"

end SyntheticLog
