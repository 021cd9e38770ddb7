import SyntheticLog.Proofs.CommandLine.Items

/-!
# Where a scan halts

A run of a scan halts at one argument, and the scan in front of that argument tells the verdict on
what stands before it.

* `foldlM_eq_error_iff`: the argument at which a run halts, and the run before it.
* `Scan.step_ok`, `Scan.run_ok`: what steps and runs keep, and that two dashes end the options.
* `parse_eq_error_iff`: a command line halts at an argument, or at its end.
-/

set_option autoImplicit false

namespace SyntheticLog.CommandLine

/-! ## Runs -/

section Runs
variable {α β ε : Type} {f : β → α → Except ε β}

theorem bind_eq_ok_iff {x : Except ε α} {g : α → Except ε β} {b : β} :
    (x >>= g) = .ok b ↔ ∃ a, x = .ok a ∧ g a = .ok b := by
  cases x with
  | error e =>
    constructor
    · nofun
    · rintro ⟨a, ⟨⟩, -⟩
  | ok a =>
    constructor
    · exact fun h => ⟨a, rfl, h⟩
    · rintro ⟨a', ⟨⟩, h⟩
      exact h

theorem bind_eq_error_iff {x : Except ε α} {g : α → Except ε β} {e : ε} :
    (x >>= g) = .error e ↔ x = .error e ∨ ∃ a, x = .ok a ∧ g a = .error e := by
  cases x with
  | error e' =>
    constructor
    · rintro ⟨⟩
      exact .inl rfl
    · rintro (⟨⟨⟩⟩ | ⟨a, ⟨⟩, -⟩)
      rfl
  | ok a =>
    constructor
    · exact fun h => .inr ⟨a, rfl, h⟩
    · rintro (⟨⟨⟩⟩ | ⟨a', ⟨⟩, h⟩)
      exact h

/-- A run halts at an element, behind a run that does not halt. -/
theorem foldlM_eq_error_iff {xs : List α} {b : β} {e : ε} :
    xs.foldlM f b = .error e ↔ ∃ before x after c,
      xs = before ++ x :: after ∧ before.foldlM f b = .ok c ∧ f c x = .error e := by
  induction xs generalizing b with
  | nil =>
    constructor
    · nofun
    · rintro ⟨before, x, after, c, hxs, -⟩
      exact absurd hxs.symm (List.append_ne_nil_of_right_ne_nil _ (List.cons_ne_nil _ _))
  | cons y ys ih =>
    rw [List.foldlM_cons, bind_eq_error_iff]
    constructor
    · rintro (hy | ⟨b', hy, hys⟩)
      · exact ⟨[], y, ys, b, rfl, rfl, hy⟩
      · obtain ⟨before, x, after, c, rfl, hbefore, hx⟩ := ih.1 hys
        refine ⟨y :: before, x, after, c, rfl, ?_, hx⟩
        rw [List.foldlM_cons, hy]
        exact hbefore
    · rintro ⟨before, x, after, c, hxs, hbefore, hx⟩
      cases before with
      | nil =>
        cases hxs
        cases hbefore
        exact .inl hx
      | cons z before =>
        cases hxs
        rw [List.foldlM_cons, bind_eq_ok_iff] at hbefore
        obtain ⟨b', hy, hbefore⟩ := hbefore
        exact .inr ⟨b', hy, ih.2 ⟨before, x, after, c, rfl, hbefore, hx⟩⟩

end Runs

namespace Scan

variable {s t : Scan} {r : Refusal} {argument : Bytes}

/-! ## Checks -/

theorem settle_ended (s : Scan) (ended : Bool) :
    settle { s with ended := ended } = s.settle.map ({ · with ended := ended }) := by
  obtain ⟨pending, started, rowCount, filePath, seed, positionals, -⟩ := s
  match pending with
  | none => rfl
  | some (.rowCount text) =>
    simp only [settle]
    cases number .rowCount text with
    | error r => rfl
    | ok n => rfl
  | some (.filePath text) =>
    simp only [settle]
    cases text.isEmpty with
    | true => rfl
    | false => rfl
  | some (.seed none) => rfl
  | some (.seed (some text)) =>
    simp only [settle]
    by_cases hseed : Argument.seed ∈ started
    · rw [if_pos hseed, if_pos hseed]
      rfl
    · rw [if_neg hseed, if_neg hseed]
      cases number .seed text with
      | error r => rfl
      | ok n => rfl

theorem check_ne_help : s.check ≠ .error .help := by
  cases h : s.settle with
  | error r =>
    rw [check_of_error h]
    nofun
  | ok t =>
    rw [check_of_ok h]
    nofun

theorem finish_of_ok (h : s.settle = .ok t) : s.finish = .ok t.config := by
  rw [finish, check_of_ok h]
  rfl

theorem finish_of_error (h : s.settle = .error r) : s.finish = .error (.refused r) := by
  rw [finish, check_of_error h]
  rfl

/-- The end is right if what waits to be checked is. -/
theorem exists_finish_iff : (∃ c, s.finish = .ok c) ↔ ∃ t, s.settle = .ok t := by
  cases h : s.settle with
  | error r =>
    rw [finish_of_error h]
    constructor
    · nofun
    · nofun
  | ok t =>
    rw [finish_of_ok h]
    exact iff_of_true ⟨_, rfl⟩ ⟨t, rfl⟩

theorem finish_ne_help : s.finish ≠ .error .help := by
  cases h : s.settle with
  | error r =>
    rw [finish_of_error h]
    nofun
  | ok t =>
    rw [finish_of_ok h]
    nofun

/-! ## Steps that check a wrong value -/

theorem positional_of_error (h : s.settle = .error r) (text : Bytes) :
    s.positional text = .error (.refused r) ∨
      1 < s.positionals ∧ s.positional text = .error (.refused (.extraPositional text)) := by
  fun_cases positional s text with
  | case1 =>
    rw [check_of_error h]
    exact .inl rfl
  | case2 =>
    rw [check_of_error h]
    exact .inl rfl
  | case3 hzero hone =>
    have hnot : s.positionals ≠ 0 ∧ s.positionals ≠ 1 := ⟨hzero, hone⟩
    exact .inr ⟨by omega, rfl⟩

theorem seedFlag_of_error (h : s.settle = .error r) (value : Option Bytes) :
    s.seedFlag value = .error (.refused r) := by
  rw [seedFlag, check_of_error h]
  rfl

theorem help_of_error (h : s.settle = .error r) : s.help = .error (.refused r) := by
  rw [help, check_of_error h]
  rfl

/-! ## What steps keep -/

/-- Two dashes end the options, and nothing else does. -/
theorem step_ok (hs : s.Sound) (h : s.step argument = .ok t) :
    t.Sound ∧ (t.ended = true ↔ s.ended = true ∨ argument = Utf8.encode "--") := by
  cases hended : s.ended with
  | true =>
    rw [step_ended hended] at h
    obtain ⟨hsound, -, hkept⟩ := positional_ok hs h
    exact ⟨hsound, by simp [hkept, hended]⟩
  | false =>
    have hplain {text : Bytes} (htext : IsPlain text) : text ≠ Utf8.encode "--" := by
      rintro rfl
      exact Token.not_isPlain htext
    cases accepts_of_step hended h with
    | positional plain complete step =>
      obtain ⟨hsound, -, hkept⟩ := positional_ok hs step
      exact ⟨hsound, by simp [hkept, hended, hplain plain]⟩
    | value plain pending => exact ⟨hs, by simp [hended, hplain plain]⟩
    | dashes => exact ⟨hs, by simp⟩
    | seed step =>
      obtain ⟨u, -, hsound, hkept, rfl⟩ := seedFlag_none_ok hs step
      exact ⟨hsound, by simp [hkept, hended]; decide⟩
    | seedEquals step =>
      obtain ⟨hsound, -, hkept⟩ := seedFlag_some_ok hs step
      exact ⟨hsound, by simp [hkept, hended]; nofun⟩

theorem run_ok {arguments : List Bytes} (hs : s.Sound) (h : arguments.foldlM step s = .ok t) :
    t.Sound ∧ (t.ended = true ↔ s.ended = true ∨ Utf8.encode "--" ∈ arguments) := by
  induction arguments generalizing s with
  | nil =>
    cases h
    exact ⟨hs, by simp⟩
  | cons argument arguments ih =>
    rw [List.foldlM_cons, bind_eq_ok_iff] at h
    obtain ⟨u, hstep, hrest⟩ := h
    obtain ⟨hsound, hended⟩ := step_ok hs hstep
    obtain ⟨hsound', hended'⟩ := ih hsound hrest
    refine ⟨hsound', ?_⟩
    rw [hended', hended, List.mem_cons, or_assoc, @eq_comm _ argument]

theorem sound_start : start.Sound := by simp [Sound, start]

end Scan

/-! ## Command lines -/

/-- A command line halts at an argument, or at its end. -/
theorem parse_eq_error_iff {argv : List Bytes} {h : Halt} :
    parse argv = .error h ↔
      (∃ before argument after s, argv = before ++ argument :: after ∧
        before.foldlM Scan.step Scan.start = .ok s ∧ s.step argument = .error h) ∨
      ∃ s, argv.foldlM Scan.step Scan.start = .ok s ∧ s.finish = .error h := by
  rw [parse, bind_eq_error_iff, foldlM_eq_error_iff]

end SyntheticLog.CommandLine
