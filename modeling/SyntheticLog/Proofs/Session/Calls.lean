import SyntheticLog.Proofs.Files.Opening
import SyntheticLog.Proofs.Populate.Willing
import SyntheticLog.Session

/-!
# Calls in a session

* `Session.perform`, `Session.results`: calls made one after the other, and what they give.
* `Session.successes`: those of the calls that succeed.
* `Session.after_of_error`: a call that cannot open its file changes nothing.
* `Session.after_of_ok`: a call that can writes the next records of its generator.
-/

set_option autoImplicit false

namespace SyntheticLog

open SyntheticLog.Random Log FileSystem

/-- A call: so many records of the generator of a name are written to the file at a path. -/
structure Call where
  name : String
  count : Nat
  path : Bytes

namespace Session

variable {σ : Type}

/-! ## Names -/

theorem generator?_assign_self (s : Session σ) (name : String) (g : Generator σ) :
    (s.assign name g).generator? name = some g := by
  rw [generator?, assign, List.lookup_cons_self]

theorem generator?_assign_of_ne {name other : String} (h : other ≠ name) (s : Session σ)
    (g : Generator σ) : (s.assign name g).generator? other = s.generator? other := by
  have hother : (other == name) = false := beq_false_of_ne h
  rw [generator?, generator?, assign, List.lookup_cons, hother]
  induction s.generators with
  | nil => rfl
  | cons entry entries ih =>
    by_cases he : entry.1 = name
    · have hskip : (other == entry.1) = false := by rw [he, hother]
      rw [List.filter_cons_of_neg (by simp [he]), List.lookup_cons, hskip]
      exact ih
    · rw [List.filter_cons_of_pos (by simp [he]), List.lookup_cons, List.lookup_cons]
      cases other == entry.1 with
      | true => rfl
      | false => exact ih

variable [WordSource σ]

/-! ## Calls -/

def result? (s : Session σ) (c : Call) : Option (Except PopulateError Tally) :=
  (s.populate c.name c.count c.path).1.map (·.1)

def after (s : Session σ) (c : Call) : Session σ := (s.populate c.name c.count c.path).2

def perform (s : Session σ) : List Call → Session σ
  | [] => s
  | c :: cs => (s.after c).perform cs

def results (s : Session σ) : List Call → List (Option (Except PopulateError Tally))
  | [] => []
  | c :: cs => s.result? c :: (s.after c).results cs

/-- The call, if it succeeds. -/
def success (s : Session σ) (c : Call) : List Call :=
  match s.result? c with
  | some (.ok _) => [c]
  | some (.error _) | none => []

theorem success_of_ok {s : Session σ} {c : Call} {t : Tally} (h : s.result? c = some (.ok t)) :
    s.success c = [c] := by
  rw [success, h]

theorem success_of_error {s : Session σ} {c : Call} {e : PopulateError}
    (h : s.result? c = some (.error e)) : s.success c = [] := by
  rw [success, h]

/-- The calls that succeed, out of calls made in order. -/
def successes (s : Session σ) : List Call → List Call
  | [] => []
  | c :: cs => s.success c ++ (s.after c).successes cs

theorem populate_of_none {s : Session σ} {c : Call} (h : s.generator? c.name = none) :
    s.result? c = none ∧ s.after c = s := by
  constructor
  · rw [result?, Session.populate]
    simp only [h]
    rfl
  · rw [after, Session.populate]
    simp only [h]

theorem populate_of_some {s : Session σ} {c : Call} {g : Generator σ}
    (h : s.generator? c.name = some g) :
    s.result? c = some (SyntheticLog.populate s.files g c.count c.path).result ∧
      s.after c =
        { s with files := (SyntheticLog.populate s.files g c.count c.path).files }.assign c.name
          (SyntheticLog.populate s.files g c.count c.path).generator := by
  constructor
  · rw [result?, Session.populate]
    simp only [h]
    rfl
  · rw [after, Session.populate]
    simp only [h]

/-- A call whose file cannot be opened changes no file and no generator. -/
theorem after_of_error {s : Session σ} {c : Call} {e : FileError}
    (h : s.files.create c.path = .error e) :
    (∀ g, s.generator? c.name = some g → s.result? c = some (.error (.io e))) ∧
      (s.after c).files = s.files ∧
      ∀ name, (s.after c).generator? name = s.generator? name := by
  cases hg : s.generator? c.name with
  | none =>
    obtain ⟨-, hafter⟩ := populate_of_none hg
    rw [hafter]
    exact ⟨fun g h => (nomatch h), rfl, fun name => rfl⟩
  | some g =>
    obtain ⟨hresult, hafter⟩ := populate_of_some hg
    rw [populate_of_error h] at hresult hafter
    refine ⟨fun _ _ => hresult, ?_, ?_⟩
    · rw [hafter]
      rfl
    · intro name
      rw [hafter]
      by_cases hname : name = c.name
      · rw [hname, generator?_assign_self, hg]
      · exact generator?_assign_of_ne hname _ g

/-- A call that opens a regular file writes the next records of its generator to it, and gives an
error only if the source stops. -/
theorem after_of_ok {s : Session σ} {c : Call} {g : Generator σ} {p : Place} {fs : FileSystem}
    (hg : s.generator? c.name = some g) (h : s.files.create c.path = .ok (.regular p, fs)) :
    s.result? c = some (Behaviour.regular.verdict g c.count) ∧
      (s.after c).files = fs.put p (.file (Record.lines (g.upcoming c.count))) ∧
      (s.after c).generator? c.name = some (g.advance c.count) ∧
      ∀ name, name ≠ c.name → (s.after c).generator? name = s.generator? name := by
  obtain ⟨f, hwritten, htaken⟩ := writeFile_willing willing_regular bufferCapacity g c.count
  have hpopulate := populate_of_ok h g c.count
  rw [FileSystem.Target.behaviour, hwritten] at hpopulate
  simp only [htaken] at hpopulate
  obtain ⟨hresult, hafter⟩ := populate_of_some hg
  rw [hpopulate] at hresult hafter
  refine ⟨hresult, ?_, ?_, ?_⟩
  · rw [hafter]
    rfl
  · rw [hafter, generator?_assign_self]
  · intro name hname
    rw [hafter]
    exact generator?_assign_of_ne hname _ _

end Session

end SyntheticLog
