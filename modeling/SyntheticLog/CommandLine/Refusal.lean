import SyntheticLog.CommandLine.Number
import SyntheticLog.Text.Similarity
import SyntheticLog.Text.Terminal

/-!
# Refused command lines

* `Argument`: what a command line may give.
* `Refusal`: why a command line is refused.
* `Refusal.message`, `Refusal.printed`: its text, and what the error stream shows of it.
* `helpText`: the answer to a request for help.
-/

set_option autoImplicit false

namespace SyntheticLog.CommandLine

inductive Argument
  | rowCount
  | filePath
  | seed
  deriving DecidableEq, Repr

def Argument.title : Argument → String
  | .rowCount => "[ROW_COUNT]"
  | .filePath => "[FILE_PATH]"
  | .seed => "--seed <SEED>"

inductive Refusal
  /-- An argument has no value, or an empty one where that is none. -/
  | missingValue (argument : Argument)
  | repeatedSeed
  /-- A number is not a text. -/
  | invalidUtf8
  | invalidNumber (argument : Argument) (value : Bytes) (fault : NumberFault)
  /-- There are two other positional arguments already. -/
  | extraPositional (value : Bytes)
  | unknownShort (flag : List Char)
  /-- There is no such long flag; `started` are the arguments given before. -/
  | unknownLong (name : List Char) (started : List Argument)
  /-- The help flag was given a value; `checked` are the arguments checked before. -/
  | helpValue (value : Bytes) (checked : List Argument)
  deriving DecidableEq, Repr

/-! ## Usage lines -/

/-- The usage line without regard to what was given. -/
def usage : String := "Usage: log-fixture-gen [OPTIONS] [ROW_COUNT] [FILE_PATH]"

/-- A positional argument in a usage line: in angle brackets if it was given. -/
def positionalUsage (started : List Argument) (argument : Argument) (name : String) : String :=
  if argument ∈ started then s!" <{name}>" else s!" [{name}]"

/-- An option in a usage line, if it was given or is suggested. -/
def optionUsage (wanted : Bool) (option : String) : String := if wanted then " " ++ option else ""

/-- The usage line of a command line on which some arguments were given, and an option was perhaps
meant. -/
def usageFor (started : List Argument) (suggested : Option String) : String :=
  if started.isEmpty && suggested.isNone then usage
  else
    "Usage: log-fixture-gen" ++
      optionUsage (decide (Argument.seed ∈ started) || suggested == some "seed") "--seed <SEED>" ++
      optionUsage (suggested == some "help") "--help" ++
      positionalUsage started .rowCount "ROW_COUNT" ++ positionalUsage started .filePath "FILE_PATH"

/-! ## Messages

The values in a message are what the user typed, so what a terminal would act on is taken out of
them. How this is done depends on where the message goes: `taken` stands for it below.
-/

def shown (taken : List Char → List Char) (value : Bytes) : String :=
  String.ofList (taken (Utf8.lossy value))

/-- The advice to a flag that is perhaps meant as a value. -/
def passAsValue (flag : String) : String := s!"  tip: to pass '{flag}' as a value, use '-- {flag}'"

/-- The paragraphs of a message behind its first line. -/
def Refusal.advice (taken : List Char → List Char) : Refusal → List String
  | .missingValue _ | .invalidNumber .. => []
  | .repeatedSeed | .invalidUtf8 | .extraPositional _ => [usage]
  | .unknownShort flag => [passAsValue ("-" ++ String.ofList (taken flag)), usage]
  | .unknownLong name started =>
    match Similarity.closest? name ["seed", "help"] with
    | some option =>
      [s!"  tip: a similar argument exists: '--{option}'", usageFor started (some option)]
    | none => [passAsValue ("--" ++ String.ofList (taken name)), usageFor started none]
  | .helpValue _ checked =>
    if checked.isEmpty then ["Usage: log-fixture-gen --help [ROW_COUNT] [FILE_PATH]"]
    else ["Usage: log-fixture-gen --help <ROW_COUNT|FILE_PATH|--seed <SEED>>"]

def Refusal.headline (taken : List Char → List Char) : Refusal → String
  | .missingValue a => s!"error: a value is required for '{a.title}' but none was supplied"
  | .repeatedSeed =>
    s!"error: the argument '{Argument.seed.title}' cannot be used multiple times"
  | .invalidUtf8 => "error: invalid UTF-8 was detected in one or more arguments"
  | .invalidNumber a value fault =>
    s!"error: invalid value '{shown taken value}' for '{a.title}': {fault.message}"
  | .extraPositional value => s!"error: unexpected argument '{shown taken value}' found"
  | .unknownShort flag => s!"error: unexpected argument '-{String.ofList (taken flag)}' found"
  | .unknownLong name _ => s!"error: unexpected argument '--{String.ofList (taken name)}' found"
  | .helpValue value _ =>
    s!"error: unexpected value '{shown taken value}' for '--help' found; no more were expected"

/-- The paragraphs of a message, with a blank line between them. -/
def Refusal.text (taken : List Char → List Char) (r : Refusal) : String :=
  "\n\n".intercalate
    (r.headline taken :: r.advice taken ++ ["For more information, try '--help'.\n"])

def Refusal.message (r : Refusal) : String := r.text Terminal.plain

/-- The message as it comes out of the error stream. -/
def Refusal.printed (r : Refusal) : String := r.text Terminal.streamed

def helpLines : List String :=
  ["Generate an NDJSON file of synthetic log events for test fixtures",
    "",
    usage,
    "",
    "Arguments:",
    "  [ROW_COUNT]  Number of log records to write [default: 100]",
    "  [FILE_PATH]  Output NDJSON file (created or truncated) [default: log.json]",
    "",
    "Options:",
    "      --seed <SEED>  Random seed for deterministic generation (same seed = same data)",
    "  -h, --help         Print help"]

def helpText : String := String.join (helpLines.map (· ++ "\n"))

end SyntheticLog.CommandLine
