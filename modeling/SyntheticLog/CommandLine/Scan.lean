import SyntheticLog.CommandLine.Refusal
import SyntheticLog.CommandLine.Token

/-!
# Reading the command line

Arguments are read from the left. A positional argument, and a seed flag without an equals sign, is
held back as *pending*; its value is checked when the next argument is accepted, or at the end. So
at most one argument is ever unchecked, and it is the latest.

* `Scan`: what has been read so far.
* `Scan.settle`: checks the pending argument.
* `Scan.step`, `Scan.finish`: one more argument, and the end of the command line.
* `parse`: the configuration of a command line.
-/

set_option autoImplicit false

namespace SyntheticLog.CommandLine

/-- An argument whose value is not checked yet. -/
inductive Pending
  | rowCount (text : Bytes)
  | filePath (text : Bytes)
  /-- A seed flag, and its value if that has come. -/
  | seed (text : Option Bytes)
  deriving DecidableEq, Repr

structure Scan where
  pending : Option Pending
  /-- The arguments that are checked, in order. -/
  started : List Argument
  rowCount : Option Nat
  filePath : Option Bytes
  seed : Option UInt64
  /-- The number of positional arguments, with a pending one. -/
  positionals : Nat
  /-- Two dashes have ended the options. -/
  ended : Bool
  deriving DecidableEq, Repr

inductive Halt
  | help
  | refused (r : Refusal)
  deriving DecidableEq, Repr

namespace Scan

def start : Scan := ⟨none, [], none, none, none, 0, false⟩

/-! ## Values -/

/-- The number that the value of `argument` stands for. -/
def number (argument : Argument) (value : Bytes) : Except Refusal Nat :=
  if Utf8.isValid value then
    match Number.read value with
    | .ok n => .ok n
    | .error fault => .error (.invalidNumber argument value fault)
  else .error .invalidUtf8

def settle (s : Scan) : Except Refusal Scan :=
  match s.pending with
  | none => .ok s
  | some (.rowCount text) => do
    let n ← number .rowCount text
    return { s with pending := none, started := s.started ++ [.rowCount], rowCount := some n }
  | some (.filePath text) =>
    if text.isEmpty then .error (.missingValue .filePath)
    else
      .ok { s with pending := none, started := s.started ++ [.filePath], filePath := some text }
  | some (.seed none) => .error (.missingValue .seed)
  | some (.seed (some text)) =>
    if Argument.seed ∈ s.started then .error .repeatedSeed
    else do
      let n ← number .seed text
      return { s with
        pending := none, started := s.started ++ [.seed], seed := some (UInt64.ofNat n) }

/-- The arguments given, whether their values are right or not. A seed flag without a value does
not count, and a seed given twice is no longer taken for given. -/
def given (s : Scan) : List Argument :=
  match s.pending with
  | none | some (.seed none) => s.started
  | some (.rowCount _) => s.started ++ [.rowCount]
  | some (.filePath _) => s.started ++ [.filePath]
  | some (.seed (some _)) =>
    if Argument.seed ∈ s.started then s.started.filter (· ≠ .seed) else s.started ++ [.seed]

/-- Checks the pending argument, and refuses the whole command line if its value is wrong. -/
def check (s : Scan) : Except Halt Scan := s.settle.mapError .refused

/-! ## Arguments -/

def positional (s : Scan) (text : Bytes) : Except Halt Scan :=
  match s.positionals with
  | 0 => do
    let s ← s.check
    return { s with pending := some (.rowCount text), positionals := 1 }
  | 1 => do
    let s ← s.check
    return { s with pending := some (.filePath text), positionals := 2 }
  | _ => .error (.refused (.extraPositional text))

/-- Accepts a seed flag, with a value behind an equals sign or without. -/
def seedFlag (s : Scan) (value : Option Bytes) : Except Halt Scan := do
  let s ← s.check
  match value with
  | none => return { s with pending := some (.seed none) }
  | some text => check { s with pending := some (.seed (some text)) }

/-- Ends with help, if all that came before is right. -/
def help (s : Scan) : Except Halt Scan := do
  let _ ← s.check
  throw .help

def long (s : Scan) (name : Bytes) (value : Option Bytes) : Except Halt Scan :=
  if name = Utf8.encode "seed" then s.seedFlag value
  else if name = Utf8.encode "help" then
    match value with
    | none => s.help
    | some text => .error (.refused (.helpValue text s.started))
  else .error (.refused (.unknownLong (Utf8.lossy name) s.given))

/-- Accepts a group of short flags. The first of them decides: help, or an unknown flag. Bytes that
do not begin with a character stand for one flag. -/
def short (s : Scan) (flags : Bytes) : Except Halt Scan :=
  match Utf8.decode flags with
  | some 'h' :: _ => s.help
  | some c :: _ => .error (.refused (.unknownShort [c]))
  | _ => .error (.refused (.unknownShort (Utf8.lossy flags)))

def step (s : Scan) (argument : Bytes) : Except Halt Scan :=
  if s.ended then s.positional argument
  else
    match Token.ofArgument argument with
    | .dashes => .ok { s with ended := true }
    | .long name value => s.long name value
    | .short flags => s.short flags
    | .plain text =>
      if s.pending = some (.seed none) then .ok { s with pending := some (.seed (some text)) }
      else s.positional text

def finish (s : Scan) : Except Halt Config := do
  let s ← s.check
  return ⟨s.rowCount.getD Config.defaultRowCount,
    s.filePath.getD (Utf8.encode Config.defaultFilePath), s.seed⟩

end Scan

def parse (arguments : List Bytes) : Except Halt Config := do
  let s ← arguments.foldlM Scan.step Scan.start
  s.finish

end SyntheticLog.CommandLine
