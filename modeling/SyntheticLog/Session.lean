import SyntheticLog.Populate

/-!
# Sessions

A session is a file tree and a number of named generators that write to it in turn. Each generator
goes on where its last run stopped.
-/

set_option autoImplicit false

namespace SyntheticLog

open SyntheticLog.Random Log

/-- Files, and generators by name. -/
structure Session (σ : Type) where
  files : FileSystem
  generators : List (String × Generator σ)

namespace Session

variable {σ : Type}

def generator? (s : Session σ) (name : String) : Option (Generator σ) := s.generators.lookup name

/-- Gives a name to a generator; an older one of that name is let go. -/
def assign (s : Session σ) (name : String) (g : Generator σ) : Session σ :=
  { s with generators := (name, g) :: s.generators.filter fun p => p.1 ≠ name }

variable [WordSource σ]

/-- Has the generator of a name write `count` records to the file at a path. Nothing happens if
there is no such generator. -/
def populate (s : Session σ) (name : String) (count : Nat) (path : Bytes) :
    Option (Except PopulateError Tally × List Event) × Session σ :=
  match s.generator? name with
  | none => (none, s)
  | some g =>
    let p := SyntheticLog.populate s.files g count path
    (some (p.result, p.events), { s with files := p.files }.assign name p.generator)

end Session

end SyntheticLog
