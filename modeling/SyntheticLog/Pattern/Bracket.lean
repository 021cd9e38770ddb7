import SyntheticLog.Pattern.Part
import SyntheticLog.Pattern.Row

/-!
# Sets in brackets

A set lists characters, ranges of them, classes with names, and further sets in brackets of their
own. Operators between lists take what is in both, in the first only, or in one of the two.

* `readItem`: a character or a range of characters.
* `readSet`: a whole set.
-/

set_option autoImplicit false

namespace SyntheticLog.Pattern

/-! ## Items -/

def readListed (m : Modes) : List Char → Option (Part × List Char)
  | [] => none
  | c :: cs => if c = '\\' then readEscape m cs else some (.literal c false, cs)

/-- The two parts are the ends of a range that may stand in a set. -/
def isRange (m : Modes) (low high : Part) : Bool :=
  match low, high with
  | .literal a _, .literal b _ => low.isListable m && high.isListable m && a ≤ b
  | _, _ => false

/-- Reads a character, a shorthand or a range. A hyphen makes a range unless a bracket that closes
the set or another hyphen follows. -/
def readItem (m : Modes) (cs : List Char) : Option (List Char) := do
  let (low, cs) ← readListed m cs
  match m.skip cs with
  | '-' :: rest =>
    if m.peek? rest = some ']' ∨ m.peek? rest = some '-' then
      if low.isListable m then some ('-' :: rest) else none
    else do
      let (high, rest) ← readListed m (m.skip rest)
      if isRange m low high then some rest else none
  | cs => if low.isListable m then some cs else none

/-! ## Classes with names -/

def classNames : List String :=
  ["alnum", "alpha", "ascii", "blank", "cntrl", "digit", "graph", "lower", "print", "punct",
   "space", "upper", "word", "xdigit"]

/-- Reads a class with a name, behind its bracket. The first of the pair says that it is negated. -/
def readClass? (cs : List Char) : Option (Bool × List Char) :=
  match cs with
  | ':' :: cs =>
    let negated := cs.head? = some '^'
    let cs := if negated then cs.drop 1 else cs
    match cs.dropWhile (· ≠ ':') with
    | ':' :: ']' :: rest =>
      if String.ofList (cs.takeWhile (· ≠ ':')) ∈ classNames then some (negated, rest) else none
    | _ => none
  | _ => none

/-- A class with a name may stand in a set. -/
def isClassListable (m : Modes) (negated : Bool) : Bool :=
  if m.unicode then !m.ignoreCase else !negated

/-! ## Sets -/

/-- A set whose bracket is not closed yet. -/
structure OpenSet where
  /-- Nothing but hyphens stands in it. -/
  fresh : Bool
  /-- The depth of what stands before the last operator. -/
  left : Option Nat
  row : Row
  deriving DecidableEq, Repr

namespace OpenSet

/-- The set with one more item, of depth `d`. -/
def add (d : Nat) (s : OpenSet) : OpenSet := ⟨false, s.left, s.row.add d⟩

/-- The depth of what stands in the brackets. -/
def depth (s : OpenSet) : Nat := s.row.beside s.left

def operate (s : OpenSet) : OpenSet := ⟨false, some s.depth, .empty⟩

end OpenSet

/-- Opens a set behind its bracket. A circumflex at the start negates the set. -/
def openSet (m : Modes) (cs : List Char) : Option (OpenSet × List Char) :=
  let opened : OpenSet := ⟨true, none, .empty⟩
  match m.skip cs with
  | '^' :: cs => if m.unicode then some (opened, m.skip cs) else none
  | cs => some (opened, cs)

/-- Reads to the end of the set `s`, which stands in the sets `outer`, and gives the depth of the
outermost set. No more than `fuel` items are read. -/
def readItems (m : Modes) (s : OpenSet) (outer : List OpenSet) :
    Nat → List Char → Option (Nat × List Char)
  | 0, _ => none
  | fuel + 1, cs =>
    let listed (c : Char) (fresh : Bool) (cs : List Char) : Option (Nat × List Char) :=
      if (Part.literal c false).isListable m then
        readItems m { s.add 0 with fresh := fresh } outer fuel cs
      else none
    match m.skip cs with
    | [] => none
    | c :: rest =>
      if c = '-' ∧ s.fresh then listed '-' true rest
      else if c = ']' ∧ s.fresh ∧ s.row.count = 0 then listed ']' false rest
      else if c = ']' then
        match outer with
        | [] => some (s.depth + 1, rest)
        | o :: outer => readItems m (o.add (s.depth + 1)) outer fuel rest
      else if c = '[' then
        match readClass? rest with
        | some (negated, rest) =>
          if isClassListable m negated then readItems m (s.add 0) outer fuel rest else none
        | none =>
          (openSet m rest).bind fun (inner, rest) => readItems m inner (s :: outer) fuel rest
      else if (c = '&' ∨ c = '-' ∨ c = '~') ∧ rest.head? = some c then
        readItems m s.operate outer fuel (rest.drop 1)
      else (readItem m (c :: rest)).bind fun rest => readItems m (s.add 0) outer fuel rest

/-- Reads a set behind its bracket, and gives its depth. -/
def readSet (m : Modes) (cs : List Char) : Option (Nat × List Char) :=
  (openSet m cs).bind fun (s, rest) => readItems m s [] (rest.length + 1) rest

end SyntheticLog.Pattern
