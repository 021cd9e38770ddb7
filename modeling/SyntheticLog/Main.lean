import SyntheticLog.Program

/-!
# The command line

Runs the program on the files of the system. The steps of a run, their order and their failures are
those of `Job.Carrier.run`; here the bytes that a step pushes out of the buffer are written to a file
of the system.
-/

set_option autoImplicit false

namespace SyntheticLog.Main

open SyntheticLog.Random Log CommandLine

/-- The error of a call on files. -/
def fileError : IO.Error → FileError
  | .noFileOrDirectory _ n text | .interrupted _ n text | .alreadyExists _ n text
  | .invalidArgument _ n text | .permissionDenied _ n text | .resourceExhausted _ n text
  | .inappropriateType _ n text | .noSuchThing _ n text | .otherError n text
  | .resourceBusy n text | .resourceVanished n text | .unsupportedOperation n text
  | .hardwareFault n text | .unsatisfiedConstraints n text | .illegalOperation n text
  | .protocolError n text | .timeExpired n text => .ofSystem n.toNat text
  | .unexpectedEof => .other "unexpected end of file"
  | .userError text => .other text

/-- A run on a file of the system. -/
abbrev Run : Type → Type := ExceptT PopulateError (StateT (Job KeyStream) IO)

/-- A step on the job alone. -/
def act (step : EStateM PopulateError (Job KeyStream) Unit) : Run Unit :=
  -- The job is handed on, not read, so that the buffer in it is not copied.
  ExceptT.mk fun j =>
    match step j with
    | .ok x j => return (.ok x, j)
    | .error e j => return (.error e, j)

/-- A call on files; what goes wrong fails the run in the given way. -/
def call {α : Type} (failure : FileError → PopulateError) (io : IO α) : Run α := do
  match ← (io.toBaseIO : IO (Except IO.Error α)) with
  | .ok x => return x
  | .error e => throw (failure (fileError e))

/-- Writes the bytes that have left the buffer. -/
def deliver (h : IO.FS.Handle) (failure : FileError → PopulateError) : Run Unit := do
  let bytes := (← get).writer.file.taken
  unless bytes.isEmpty do
    modify fun j => { j with writer.file.taken := ByteArray.empty }
    call failure (h.write bytes *> h.flush)

/-- Prints the events that pass the filter. -/
def report (filter : Filter) (events : List Event) : IO Unit := do
  for e in events do
    if filter.passes e then IO.eprint (Line.event e).rendered

/-- Carries a run out on an open file. The bytes that leave the buffer in a step are written at once,
so that a failure falls on the step that met it. -/
@[inline]
def carrier (filter : Filter) (h : IO.FS.Handle) (path : String) : Job.Carrier KeyStream Run where
  step s failure := do
    act (s failure)
    deliver h failure
    report filter (← get).events.toList
    modify fun j => { j with events := #[] }
  size failure := do
    let found ← call failure (IO.FS.realPath path >>= fun p => p.metadata)
    return found.byteSize.toNat

/-- Opens the file at a path and writes the rows of a generator. -/
def populateAt (filter : Filter) (path : String) (g : Generator KeyStream) (count : Nat) :
    IO (Except PopulateError Tally) := do
  match ← ((IO.FS.Handle.mk path .write).toBaseIO : IO (Except IO.Error IO.FS.Handle)) with
  | .error e => return .error (.io (fileError e))
  | .ok h =>
    let j := Job.start bufferCapacity (.fresh .regular) g
    let (result, j) ← ((carrier filter h path).run count).run.run j
    -- What a failed run leaves in the buffer is handed over, whatever comes of it.
    let _ ← ((h.write j.writer.close.taken).toBaseIO : IO (Except IO.Error Unit))
    return result

/-- Writes the file that a configuration describes; gives the exit code. -/
def runAt (filter : Filter) (c : Config) (entropy : Bytes) : IO UInt32 := do
  report filter c.preface
  let path := String.ofList (Utf8.lossy c.filePath)
  match ← populateAt filter path (c.generator entropy) c.rowCount with
  | .ok t =>
    report filter [.complete t.rows t.size]
    return 0
  | .error e =>
    IO.eprint (RunError.mk c.filePath e).line.rendered
    return 1

end SyntheticLog.Main

open SyntheticLog in
def main (arguments : List String) : IO UInt32 := do
  let setting ← IO.getEnv "RUST_LOG"
  for line in complaints setting do IO.eprint line.rendered
  match CommandLine.parse (arguments.map Utf8.encode) with
  | .error h =>
    let x := h.exit .blank
    IO.print x.output
    for line in x.errors do IO.eprint line.rendered
    return x.code.toUInt32
  | .ok c => Main.runAt (filterOf setting) c (← IO.getRandomBytes 32).data.toList
