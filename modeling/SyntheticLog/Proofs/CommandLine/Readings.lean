import SyntheticLog.Proofs.CommandLine.Numbers

/-!
# Readings

A scan holds its latest argument back unchecked. A reading checks every argument at once, so it has
nothing pending and no order of what was given. A scan shows the reading that it would end with.

* `Reading.supply`: one more argument, checked at once.
* `Scan.reading?`: what a scan shows.
* `Scan.outcome_positional`, `Scan.outcome_seedFlag`: a step of a scan shows as a step of readings.
-/

set_option autoImplicit false

namespace SyntheticLog.CommandLine

/-! ## Arguments given -/

/-- A value on the command line, by its kind. -/
inductive Given
  | positional (text : Bytes)
  | seed (text : Bytes)

/-- The number of positional arguments so far, and the configuration. -/
abbrev Reading : Type := Nat × Config

/-- The reading with one more value, if that is right. -/
def Reading.supply (r : Reading) : Given → Option Reading
  | .positional text =>
    match r.1 with
    | 0 => (Scan.number .rowCount text).toOption.map fun n => (1, { r.2 with rowCount := n })
    | 1 => if text.isEmpty then none else some (2, { r.2 with filePath := text })
    | _ => none
  | .seed text =>
    if r.2.seed.isSome then none
    else (Scan.number .seed text).toOption.map fun n =>
      (r.1, { r.2 with seed := some (UInt64.ofNat n) })

theorem toOption_eq_some_iff {ε α : Type} {x : Except ε α} {a : α} :
    x.toOption = some a ↔ x = .ok a := by
  cases x with
  | error e => simp [Except.toOption]
  | ok b => simp [Except.toOption]

namespace Reading
variable {k : Nat} {c : Config} {r : Reading} {text : Bytes}

theorem map_number_eq_some_iff (argument : Argument) {f : Nat → Reading} :
    (Scan.number argument text).toOption.map f = some r ↔ ∃ n, Number.Denotes text n ∧ r = f n := by
  simp only [Option.map_eq_some_iff, toOption_eq_some_iff, Scan.number_eq_ok_iff]
  exact exists_congr fun n => and_congr_right fun _ => eq_comm

theorem supply_rowCount_iff :
    supply (0, c) (.positional text) = some r ↔
      ∃ n, Number.Denotes text n ∧ r = (1, { c with rowCount := n }) :=
  map_number_eq_some_iff .rowCount

theorem supply_filePath_iff :
    supply (1, c) (.positional text) = some r ↔
      text ≠ [] ∧ r = (2, { c with filePath := text }) := by
  cases text with
  | nil => simp [supply]
  | cons b bs => simp [supply, eq_comm]

theorem supply_seed_iff :
    supply (k, c) (.seed text) = some r ↔
      c.seed = none ∧
        ∃ n, Number.Denotes text n ∧ r = (k, { c with seed := some (UInt64.ofNat n) }) := by
  rw [supply, ← map_number_eq_some_iff .seed]
  cases c.seed with
  | some v => simp
  | none => simp

end Reading

namespace Scan

/-! ## What scans show -/

/-- The configuration of the arguments that are checked. -/
def config (s : Scan) : Config :=
  ⟨s.rowCount.getD Config.defaultRowCount,
    s.filePath.getD (Utf8.encode Config.defaultFilePath), s.seed⟩

/-- The reading that a scan would end with. -/
def reading? (s : Scan) : Option Reading :=
  s.settle.toOption.map fun t => (s.positionals, t.config)

def outcome (x : Except Halt Scan) : Option Reading := x.toOption.bind reading?

variable {s t : Scan}

theorem reading?_of_ok (h : s.settle = .ok t) : s.reading? = some (s.positionals, t.config) := by
  rw [reading?, h]
  rfl

theorem reading?_of_error {r : Refusal} (h : s.settle = .error r) : s.reading? = none := by
  rw [reading?, h]
  rfl

theorem check_of_ok (h : s.settle = .ok t) : s.check = .ok t := by
  rw [check, h]
  rfl

theorem check_of_error {r : Refusal} (h : s.settle = .error r) : s.check = .error (.refused r) := by
  rw [check, h]
  rfl

theorem settle_of_check (h : s.check = .ok t) : s.settle = .ok t := by
  cases hsettle : s.settle with
  | error r =>
    rw [check_of_error hsettle] at h
    cases h
  | ok u =>
    rw [check_of_ok hsettle] at h
    cases h
    rfl

theorem finish_eq_ok_iff {c : Config} : s.finish = .ok c ↔ ∃ k, s.reading? = some (k, c) := by
  rw [finish]
  cases h : s.settle with
  | ok t =>
    rw [check_of_ok h, reading?_of_ok h]
    constructor
    · rintro ⟨⟩
      exact ⟨s.positionals, rfl⟩
    · rintro ⟨k, ⟨⟩⟩
      rfl
  | error r =>
    rw [check_of_error h, reading?_of_error h]
    constructor
    · nofun
    · nofun

/-! ## Invariants -/

/-- The list of checked arguments tells whether there is a seed. -/
def Sound (s : Scan) : Prop := Argument.seed ∈ s.started ↔ s.seed.isSome

theorem settle_ok (h : s.settle = .ok t) (hs : s.Sound) :
    t.pending = none ∧ t.positionals = s.positionals ∧ t.ended = s.ended ∧ t.Sound := by
  revert h
  fun_cases settle s with
  | case1 hpending =>
    rintro ⟨⟩
    exact ⟨hpending, rfl, rfl, hs⟩
  | case2 text hpending =>
    cases number .rowCount text with
    | error r => nofun
    | ok n =>
      rintro ⟨⟩
      exact ⟨rfl, rfl, rfl, by simpa [Sound] using hs⟩
  | case3 text hpending htext => nofun
  | case4 text hpending htext =>
    rintro ⟨⟩
    exact ⟨rfl, rfl, rfl, by simpa [Sound] using hs⟩
  | case5 hpending => nofun
  | case6 text hpending hseed => nofun
  | case7 text hpending hseed =>
    cases number .seed text with
    | error r => nofun
    | ok n =>
      rintro ⟨⟩
      exact ⟨rfl, rfl, rfl, by simp [Sound]⟩

theorem settle_of_pending (h : s.pending = none) : s.settle = .ok s := by
  rw [settle, h]

/-! ## Pending arguments -/

section Pending
variable {text : Bytes}

theorem reading?_rowCount (h : s.pending = some (.rowCount text)) :
    s.reading? = (number .rowCount text).toOption.map fun n =>
      (s.positionals, { s.config with rowCount := n }) := by
  simp only [reading?, settle, h]
  cases number .rowCount text with
  | error r => rfl
  | ok n => rfl

theorem reading?_filePath (h : s.pending = some (.filePath text)) :
    s.reading? =
      if text.isEmpty then none else some (s.positionals, { s.config with filePath := text }) := by
  simp only [reading?, settle, h]
  cases text.isEmpty with
  | true => rfl
  | false => rfl

theorem reading?_seed (h : s.pending = some (.seed (some text))) (hs : s.Sound) :
    s.reading? =
      if s.seed.isSome then none
      else (number .seed text).toOption.map fun n =>
        (s.positionals, { s.config with seed := some (UInt64.ofNat n) }) := by
  simp only [reading?, settle, h]
  by_cases hseed : Argument.seed ∈ s.started
  · rw [if_pos hseed, if_pos (hs.1 hseed)]
    rfl
  · rw [if_neg hseed, if_neg fun hsome => hseed (hs.2 hsome)]
    cases number .seed text with
    | error r => rfl
    | ok n => rfl

theorem settle_of_waiting (h : s.pending = some (.seed none)) :
    s.settle = .error (.missingValue .seed) := by
  rw [settle, h]

/-- The end of the options shows nowhere. -/
theorem reading?_ended (hs : s.Sound) (ended : Bool) :
    reading? { s with ended := ended } = s.reading? := by
  match h : s.pending with
  | none =>
    rw [reading?_of_ok (settle_of_pending h)]
    rfl
  | some (.rowCount text) =>
    rw [reading?_rowCount h]
    exact reading?_rowCount rfl
  | some (.filePath text) =>
    rw [reading?_filePath h]
    exact reading?_filePath rfl
  | some (.seed none) =>
    rw [reading?_of_error (settle_of_waiting h)]
    exact reading?_of_error (settle_of_waiting rfl)
  | some (.seed (some text)) =>
    rw [reading?_seed h hs]
    exact reading?_seed rfl hs

end Pending

/-! ## Steps -/

-- A scan that cannot be settled shows nothing and accepts no positional argument, so nothing stands
-- on both sides; a settled one holds the new argument back, and showing it is checking it.
theorem outcome_positional (text : Bytes) :
    outcome (s.positional text) = s.reading?.bind (·.supply (.positional text)) := by
  cases h : s.settle with
  | error r =>
    rw [reading?_of_error h]
    fun_cases positional s text with
    | case1 hk =>
      rw [check_of_error h]
      rfl
    | case2 hk =>
      rw [check_of_error h]
      rfl
    | case3 hk => rfl
  | ok t =>
    rw [reading?_of_ok h]
    fun_cases positional s text with
    | case1 hk =>
      rw [check_of_ok h, hk]
      exact reading?_rowCount rfl
    | case2 hk =>
      rw [check_of_ok h, hk]
      exact reading?_filePath rfl
    | case3 hzero hone =>
      match hk : s.positionals with
      | 0 => exact absurd hk hzero
      | 1 => exact absurd hk hone
      | k + 2 => rfl

/-- A seed that is held back with its value shows as one that is checked. -/
theorem reading?_pending_seed (h : s.settle = .ok t) (hs : s.Sound) (text : Bytes) :
    reading? { t with pending := some (.seed (some text)) } =
      s.reading?.bind (·.supply (.seed text)) := by
  obtain ⟨-, hpositionals, -, hsound⟩ := settle_ok h hs
  have hseed := reading?_seed (s := { t with pending := some (.seed (some text)) }) rfl hsound
  rw [hseed, hpositionals, reading?_of_ok h]
  rfl

/-- Checking twice is checking once. -/
theorem outcome_check (hs : s.Sound) : outcome s.check = s.reading? := by
  cases h : s.settle with
  | error r =>
    rw [check_of_error h, reading?_of_error h]
    rfl
  | ok t =>
    obtain ⟨hpending, hpositionals, -, -⟩ := settle_ok h hs
    rw [check_of_ok h, reading?_of_ok h, ← hpositionals]
    exact reading?_of_ok (settle_of_pending hpending)

theorem outcome_seedFlag (hs : s.Sound) (text : Bytes) :
    outcome (s.seedFlag (some text)) = s.reading?.bind (·.supply (.seed text)) := by
  cases h : s.settle with
  | error r =>
    rw [seedFlag, check_of_error h, reading?_of_error h]
    rfl
  | ok t =>
    obtain ⟨-, -, -, hsound⟩ := settle_ok h hs
    rw [seedFlag, check_of_ok h, ← reading?_pending_seed h hs]
    exact outcome_check hsound

end Scan

end SyntheticLog.CommandLine
