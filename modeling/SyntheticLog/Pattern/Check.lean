import SyntheticLog.Pattern.Bracket

/-!
# Checking patterns

A pattern is read from left to right; of the groups that are open only the depth and the modes
outside are kept.

* `readGroup`: what stands behind an opening parenthesis.
* `Reader.step`: one part of the pattern.
* `fault?`: what is wrong with a pattern.
-/

set_option autoImplicit false

namespace SyntheticLog.Pattern

inductive Fault
  /-- It is no pattern, or has parts that are not supported. -/
  | invalid
  /-- It asks where words of all scripts begin or end. -/
  | wordBoundary
  deriving DecidableEq, Repr

def Fault.message : Fault → String
  | .invalid => "error building NFA"
  | .wordBoundary =>
    "unsupported regex feature for DFAs: cannot build DFAs for regexes with Unicode word " ++
      "boundaries; switch to ASCII word boundaries, or heuristically enable Unicode word " ++
      "boundaries or use a different regex engine"

/-! ## Groups -/

inductive Opening
  /-- A change of the modes up to the end of the group around it. -/
  | change (m : Modes)
  /-- A group with modes of its own, perhaps with a name. -/
  | group (m : Modes) (name : Option (List Char))

def flagLetters : List Char := ['i', 'm', 's', 'U', 'u', 'R', 'x']

/-- The letters change modes: each stands once, and there is at most one hyphen, not at the end. -/
def areFlags (letters : List Char) : Bool :=
  letters.all (fun c => c = '-' || flagLetters.contains c) && decide letters.Nodup &&
    letters.getLast? ≠ some '-'

/-- The value of a mode behind letters that may change it. A letter behind a hyphen ends its
mode. -/
def flagValue (letters : List Char) (letter : Char) (now : Bool) : Bool :=
  if (letters.takeWhile (· ≠ '-')).contains letter then true
  else if letters.contains letter then false
  else now

def Modes.change (m : Modes) (letters : List Char) : Modes :=
  ⟨flagValue letters 'i' m.ignoreCase, flagValue letters 'u' m.unicode,
    flagValue letters 'x' m.spaced⟩

def isGroupName : List Char → Bool
  | [] => false
  | c :: cs => (c = '_' || CharClass.isAlphabetic c) &&
    cs.all fun c => c = '_' || c = '.' || c = '[' || c = ']' || CharClass.isAlphanumeric c

/-- Reads the name of a group, up to its angle bracket. -/
def readName (m : Modes) (cs : List Char) : Option (Opening × List Char) :=
  let name := cs.takeWhile (· ≠ '>')
  match cs.dropWhile (· ≠ '>') with
  | [] => none
  | _ :: rest => if isGroupName name then some (.group m (some name), rest) else none

/-- Reads the letters that change modes, and the colon or the parenthesis behind them. -/
def readFlags (m : Modes) (cs : List Char) : Option (Opening × List Char) :=
  let letters := cs.takeWhile fun c => c ≠ ':' && c ≠ ')'
  if areFlags letters then
    match cs.drop letters.length with
    | [] => none
    | c :: rest =>
      if c = ':' then some (.group (m.change letters) none, rest)
      else if letters.isEmpty then none
      else some (.change (m.change letters), rest)
  else none

def readGroup (m : Modes) (cs : List Char) : Option (Opening × List Char) :=
  match m.skip cs with
  | '?' :: 'P' :: '<' :: cs => readName m cs
  | '?' :: '<' :: cs => readName m cs
  | '?' :: cs => readFlags m cs
  | cs => some (.group m none, cs)

structure OpenGroup where
  /-- The depth of the deepest choice before the last bar. -/
  choices : Option Nat
  row : Row
  /-- The depth of the last part, if it may be repeated. -/
  last : Option Nat
  deriving DecidableEq, Repr

namespace OpenGroup

def empty : OpenGroup := ⟨none, .empty, none⟩

/-- The group with one more part, of depth `d`. -/
def add (d : Nat) (g : OpenGroup) : OpenGroup := ⟨g.choices, g.row.add d, some d⟩

/-- The group behind a change of modes, which counts as a part but is not to be repeated. -/
def mark (g : OpenGroup) : OpenGroup := ⟨g.choices, g.row.add 0, none⟩

def repeatLast? (g : OpenGroup) : Option OpenGroup :=
  g.last.map fun d => ⟨g.choices, g.row.deepen (d + 1), some (d + 1)⟩

def choose (g : OpenGroup) : OpenGroup :=
  ⟨some (max (g.choices.getD 0) g.row.depth), .empty, none⟩

/-- The depth of what stands in the group. -/
def depth (g : OpenGroup) : Nat := g.row.beside g.choices

end OpenGroup

/-! ## Reading -/

/-- What is known of the pattern up to a position. -/
structure Reader where
  modes : Modes
  group : OpenGroup
  /-- The groups around it, each with the modes that hold again behind the inner one. -/
  outer : List (Modes × OpenGroup)
  names : List (List Char)
  /-- Somewhere the pattern asks where words of all scripts begin or end. -/
  boundary : Bool

namespace Reader

def start : Reader := ⟨.standard, .empty, [], [], false⟩

/-- Behind one more part of depth `d`. -/
def add (d : Nat) (r : Reader) : Reader := { r with group := r.group.add d }

def addPart (r : Reader) (part : Part) : Option Reader :=
  if part.isSupported r.modes then
    some { r.add 0 with boundary := r.boundary || (part = .boundary && r.modes.unicode) }
  else none

/-- Behind an opening parenthesis and what belongs to it. -/
def enter (r : Reader) : Opening → Option Reader
  | .change m => some { r with modes := m, group := r.group.mark }
  | .group m name =>
    if name.all fun n => !r.names.contains n then
      some { r with
        modes := m
        group := .empty
        outer := (r.modes, r.group) :: r.outer
        names := name.toList ++ r.names }
    else none

def leave (r : Reader) : Option Reader :=
  match r.outer with
  | [] => none
  | (m, g) :: outer =>
    some { r with modes := m, group := g.add (r.group.depth + 1), outer := outer }

/-- Behind a sign of repetition. A question mark that follows it belongs to it. -/
def repeatLast (r : Reader) (cs : List Char) : Option (Reader × List Char) :=
  r.group.repeatLast?.map fun g =>
    ({ r with group := g }, if cs.head? = some '?' then cs.drop 1 else cs)

/-- Reads the part that begins with the character `c`. Counts in braces are not among the signs of
repetition, and a brace does not stand for itself. -/
def step (r : Reader) (c : Char) (cs : List Char) : Option (Reader × List Char) :=
  let part (p : Part) : Option (Reader × List Char) := (r.addPart p).map fun r => (r, cs)
  match c with
  | '(' => (readGroup r.modes cs).bind fun (o, cs) => (r.enter o).map fun r => (r, cs)
  | ')' => r.leave.map fun r => (r, cs)
  | '|' => some ({ r with group := r.group.choose }, cs)
  | '[' => (readSet r.modes cs).map fun (d, cs) => (r.add d, cs)
  | '*' | '+' | '?' => r.repeatLast cs
  | '{' => none
  | '\\' => (readEscape r.modes cs).bind fun (p, cs) => (r.addPart p).map fun r => (r, cs)
  | '.' => part .anything
  | '^' | '$' => part .anchor
  | c => part (.literal c false)

/-- Reads to the end of the pattern, no more than `fuel` parts. -/
def run (r : Reader) : Nat → List Char → Option Reader
  | 0, _ => none
  | fuel + 1, cs =>
    match r.modes.skip cs with
    | [] => some r
    | c :: cs => (r.step c cs).bind fun (r, cs) => run r fuel cs

end Reader

def fault? (pattern : List Char) : Option Fault :=
  match Reader.start.run (pattern.length + 1) pattern with
  | none => some .invalid
  | some r =>
    if !r.outer.isEmpty ∨ depthLimit < r.group.depth then some .invalid
    else if r.boundary then some .wordBoundary
    else none

end SyntheticLog.Pattern
