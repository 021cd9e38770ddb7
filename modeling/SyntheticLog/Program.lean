import SyntheticLog.CommandLine.Scan
import SyntheticLog.Log.Filter
import SyntheticLog.Populate

/-!
# The program

* `run`: writes the file that a configuration describes.
* `program`: the whole program, from the command line to the exit code.
-/

set_option autoImplicit false

namespace SyntheticLog

open SyntheticLog.Random Log CommandLine

/-! ## One run -/

structure RunError where
  path : Bytes
  error : PopulateError
  deriving DecidableEq, Repr

namespace RunError

def headline (e : RunError) : String :=
  s!"Failed to write fixture file {String.ofList (Utf8.lossy e.path)}"

def message (e : RunError) : String := s!"{e.headline}: {e.error.message}: {e.error.cause}"

end RunError

/-- The generator of a configuration: that of its seed, or one made from entropy. -/
def Config.generator (c : Config) (entropy : Bytes) : Generator KeyStream :=
  match c.seed with
  | some seed => .ofSeed seed
  | none => .ofEntropy entropy

/-- What is reported before the file is opened: the seed, if there is one, and the file. -/
def Config.preface (c : Config) : List Event :=
  (c.seed.map Event.fixedSeed).toList ++ [.start c.filePath c.rowCount]

structure Ran where
  result : Except RunError Tally
  files : FileSystem
  events : List Event

def run (fs : FileSystem) (entropy : Bytes) (c : Config) : Ran :=
  let seeded :=
    match c.seed with
    | some seed => [Event.fixedSeed seed]
    | none => []
  let p := populate fs (c.generator entropy) c.rowCount c.filePath
  ⟨p.result.mapError fun e => ⟨c.filePath, e⟩, p.files, seeded ++ p.events⟩

/-! ## The whole program -/

inductive Line
  | event (e : Event)
  | text (s : String)
  deriving DecidableEq, Repr

/-- The text of a line. In an event, control characters that a terminal would act on are spelled
out. -/
def Line.rendered : Line → String
  | .event e => e.lineWith (String.ofList (Terminal.guarded e.message.toList)) ++ "\n"
  | .text s => s

def RunError.line (e : RunError) : Line := .text s!"Error: {e.message}\n"

structure Exit where
  code : Nat
  output : String
  errors : List Line
  files : FileSystem

/-- The end of the program where the command line does not lead to a run. -/
def CommandLine.Halt.exit (fs : FileSystem) : Halt → Exit
  | .help => ⟨0, helpText, [], fs⟩
  | .refused r => ⟨2, "", [.text r.printed], fs⟩

/-- The filter that the setting of the environment describes. -/
def filterOf (setting : Option String) : Filter :=
  match setting with
  | some s => Filter.ofText s
  | none => Filter.standard

/-- The complaints about the setting. They come before everything else. -/
def complaints (setting : Option String) : List Line :=
  match setting with
  | some s => (Filter.complaints s).map fun complaint => .text (complaint ++ "\n")
  | none => []

/-- Runs the program with arguments and entropy on a file tree, and reports the events that pass
the filter. -/
def filtered (fs : FileSystem) (entropy : Bytes) (filter : Filter) (arguments : List Bytes) :
    Exit :=
  match parse arguments with
  | .error h => h.exit fs
  | .ok c =>
    let r := run fs entropy c
    let logged := (r.events.filter filter.passes).map Line.event
    match r.result with
    | .ok _ => ⟨0, "", logged, r.files⟩
    | .error e => ⟨1, "", logged ++ [e.line], r.files⟩

/-- Runs the program with arguments, the log setting and entropy, on a file tree. -/
def program (fs : FileSystem) (entropy : Bytes) (setting : Option String) (arguments : List Bytes) :
    Exit :=
  let x := filtered fs entropy (filterOf setting) arguments
  { x with errors := complaints setting ++ x.errors }

end SyntheticLog
