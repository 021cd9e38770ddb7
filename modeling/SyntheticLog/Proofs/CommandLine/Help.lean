import SyntheticLog.Program
import SyntheticLog.Proofs.CommandLine.Halts

/-!
# Requests for help

A request for help ends the reading, but the value that waits to be checked is checked before. So
help comes of a command line that is right up to the request, whatever stands behind it.

* `AsksHelp`, `LooksLikeHelp`: the requests, and what is refused as one that is given a value.
* `Scan.step_eq_help_iff`: the scans and arguments at which help comes.
* `parse_eq_help_iff`: the command lines that help comes of.
-/

set_option autoImplicit false

namespace SyntheticLog.CommandLine

/-! ## Requests -/

def AsksHelp (argument : Bytes) : Prop :=
  argument = Utf8.encode "--help" ∨ Utf8.encode "-h" <+: argument

/-- The argument asks for help, or gives the request a value. -/
def LooksLikeHelp (argument : Bytes) : Prop :=
  AsksHelp argument ∨ Utf8.encode "--help=" <+: argument

/-- The byte of the letter that asks for help. -/
def letter : UInt8 := 104

theorem dashes_eq : Utf8.encode "--" = [Token.dash, Token.dash] := by decide

theorem LooksLikeHelp.cases {argument : Bytes} (h : LooksLikeHelp argument) :
    ∃ rest, argument = Token.dash :: letter :: rest ∨
      argument = Token.dash :: Token.dash :: letter :: rest := by
  obtain (rfl | ⟨rest, rfl⟩) | ⟨rest, rfl⟩ := h
  · exact ⟨Utf8.encode "elp", .inr (by decide)⟩
  · exact ⟨rest, .inl rfl⟩
  · exact ⟨Utf8.encode "elp=" ++ rest, .inr rfl⟩

theorem decode_letter_iff {flags : Bytes} :
    (∃ cs, Utf8.decode flags = some 'h' :: cs) ↔ flags.head? = some letter := by
  cases flags with
  | nil => simp [Utf8.decode]
  | cons a rest =>
    rw [List.head?_cons, Option.some.injEq]
    constructor
    · rintro ⟨cs, hcs⟩
      rw [Utf8.decode] at hcs
      exact UInt8.toNat_inj.1 (Utf8.toNat_of_front (List.cons.inj hcs).1 (by decide) (by decide))
    · rintro rfl
      exact ⟨_, Utf8.decode_one rest (Utf8.tests_one (by decide))⟩

/-! ## Where help comes -/

namespace Scan

variable {s t : Scan}

theorem help_eq_help_iff : s.help = .error .help ↔ ∃ t, s.settle = .ok t := by
  rw [help]
  cases h : s.settle with
  | error r =>
    rw [check_of_error h]
    constructor
    · intro hhelp
      cases hhelp
    · rintro ⟨t, ⟨⟩⟩
  | ok t =>
    rw [check_of_ok h]
    exact iff_of_true rfl ⟨t, rfl⟩

theorem positional_ne_help (text : Bytes) : s.positional text ≠ .error .help := by
  fun_cases positional s text with
  | case1 =>
    rw [ne_eq, bind_eq_error_iff]
    rintro (h | ⟨u, -, ⟨⟩⟩)
    exact check_ne_help h
  | case2 =>
    rw [ne_eq, bind_eq_error_iff]
    rintro (h | ⟨u, -, ⟨⟩⟩)
    exact check_ne_help h
  | case3 =>
    intro h
    cases h

theorem seedFlag_ne_help (value : Option Bytes) : s.seedFlag value ≠ .error .help := by
  rw [seedFlag, ne_eq, bind_eq_error_iff]
  rintro (h | ⟨u, -, h⟩)
  · exact check_ne_help h
  · cases value with
    | none => cases h
    | some text => exact check_ne_help h

theorem short_eq_help_iff {flags : Bytes} :
    s.short flags = .error .help ↔ flags.head? = some letter ∧ ∃ t, s.settle = .ok t := by
  rw [← decode_letter_iff, ← help_eq_help_iff]
  fun_cases short s flags with
  | case1 cs hcs => simp [hcs]
  | case2 c cs hc hcs =>
    refine iff_of_false (by simp) ?_
    rintro ⟨⟨cs', hcs'⟩, -⟩
    rw [hcs'] at hcs
    cases hcs
    exact hc rfl
  | case3 hnot _ =>
    refine iff_of_false (by simp) ?_
    rintro ⟨⟨cs, hcs⟩, -⟩
    exact hnot cs hcs

theorem long_eq_help_iff {name : Bytes} {value : Option Bytes} :
    s.long name value = .error .help ↔
      name = Utf8.encode "help" ∧ value = none ∧ ∃ t, s.settle = .ok t := by
  fun_cases long s name value with
  | case1 value hname =>
    refine iff_of_false (seedFlag_ne_help value) ?_
    rw [hname]
    rintro ⟨h, -⟩
    exact absurd h (by decide)
  | case2 hseed hhelp => simp [help_eq_help_iff, hhelp]
  | case3 hseed text => simp
  | case4 value hseed hhelp => simp [hhelp]

theorem step_eq_help_iff {argument : Bytes} :
    s.step argument = .error .help ↔
      s.ended = false ∧ AsksHelp argument ∧ ∃ t, s.settle = .ok t := by
  cases hended : s.ended with
  | true =>
    rw [step_ended hended]
    exact iff_of_false (positional_ne_help argument) nofun
  | false =>
    rw [step_eq_stepForm hended]
    have hspelled := Token.spelled_ofArgument argument
    constructor
    · intro h
      refine ⟨rfl, ?_⟩
      cases hform : Token.ofArgument argument with
      | dashes =>
        rw [hform] at h
        cases h
      | long name value =>
        rw [hform] at h hspelled
        obtain ⟨rfl, rfl, ht⟩ := long_eq_help_iff.1 h
        exact ⟨.inl hspelled.symm, ht⟩
      | short flags =>
        rw [hform] at h hspelled
        obtain ⟨hhead, ht⟩ := short_eq_help_iff.1 h
        obtain ⟨rest, rfl⟩ := List.head?_eq_some_iff.1 hhead
        exact ⟨.inr ⟨rest, hspelled⟩, ht⟩
      | plain text =>
        rw [hform, stepForm] at h
        split at h
        · cases h
        · exact absurd h (positional_ne_help text)
    · rintro ⟨-, rfl | ⟨rest, rfl⟩, ht⟩
      · rw [show Token.ofArgument (Utf8.encode "--help") = .long (Utf8.encode "help") none by decide]
        exact long_eq_help_iff.2 ⟨rfl, rfl, ht⟩
      · exact short_eq_help_iff.2 ⟨rfl, ht⟩

/-- While the options have not ended, nothing that looks like a request for help is accepted. -/
theorem not_looksLikeHelp {argument : Bytes} (hended : s.ended = false)
    (h : s.step argument = .ok t) : ¬LooksLikeHelp argument := by
  intro hhelp
  obtain ⟨rest, hrest⟩ := hhelp.cases
  have hplain : ¬IsPlain argument := by
    rcases hrest with rfl | rfl
    · exact Token.not_isPlain
    · exact Token.not_isPlain
  cases accepts_of_step hended h with
  | positional plain complete step => exact hplain plain
  | value plain pending => exact hplain plain
  | dashes =>
    rw [dashes_eq] at hrest
    rcases hrest with h | h
    · cases h
    · cases h
  | seed step =>
    rw [show Utf8.encode "--seed" = Token.dash :: Token.dash :: 115 :: _ from rfl] at hrest
    rcases hrest with h | h
    · cases h
    · cases h
  | seedEquals step =>
    rw [show Utf8.encode "--seed=" = Token.dash :: Token.dash :: 115 :: _ from rfl] at hrest
    rcases hrest with h | h
    · cases h
    · cases h

end Scan

/-! ## Command lines -/

theorem program_of_help {argv : List Bytes} (h : parse argv = .error .help) (fs : FileSystem)
    (entropy : Bytes) (setting : Option String) :
    (program fs entropy setting argv).code = 0 ∧
      (program fs entropy setting argv).output = helpText ∧
      (program fs entropy setting argv).files = fs := by
  rw [program, filtered, h]
  exact ⟨rfl, rfl, rfl⟩

/-- Help comes of the command lines that are complete and right up to a request for it, where two
dashes have not ended the options; what stands behind the request is not read. On a command line
that is accepted, all that looks like such a request stands behind two dashes. -/
theorem parse_eq_help_iff (argv : List Bytes) :
    (parse argv = .error .help ↔ ∃ before request after, argv = before ++ request :: after ∧
      Utf8.encode "--" ∉ before ∧ (∃ c, parse before = .ok c) ∧ AsksHelp request) ∧
    (parse argv = .error .help → ∀ fs entropy setting,
      (program fs entropy setting argv).code = 0 ∧
        (program fs entropy setting argv).output = helpText ∧
        (program fs entropy setting argv).files = fs) ∧
    ∀ c, parse argv = .ok c → ∀ before request after, argv = before ++ request :: after →
      LooksLikeHelp request → Utf8.encode "--" ∈ before := by
  have haccepted {before : List Bytes} {s : Scan} (h : before.foldlM Scan.step Scan.start = .ok s) :
      (∃ c, parse before = .ok c) ↔ ∃ t, s.settle = .ok t := by
    rw [parse, h]
    exact Scan.exists_finish_iff
  have hended {before : List Bytes} {s : Scan} (h : before.foldlM Scan.step Scan.start = .ok s) :
      s.ended = true ↔ Utf8.encode "--" ∈ before := by
    rw [(Scan.run_ok Scan.sound_start h).2]
    simp [Scan.start]
  refine ⟨?_, program_of_help, ?_⟩
  · rw [parse_eq_error_iff]
    constructor
    · rintro (⟨before, request, after, s, hargv, hbefore, hstep⟩ | ⟨s, -, hfinish⟩)
      · obtain ⟨hrunning, hasks, hsettle⟩ := Scan.step_eq_help_iff.1 hstep
        refine ⟨before, request, after, hargv, ?_, (haccepted hbefore).2 hsettle, hasks⟩
        rw [← hended hbefore, hrunning]
        exact Bool.false_ne_true
      · exact absurd hfinish Scan.finish_ne_help
    · rintro ⟨before, request, after, hargv, hdashes, ⟨c, hc⟩, hasks⟩
      obtain ⟨s, hbefore, hfinish⟩ := bind_eq_ok_iff.1 hc
      refine .inl ⟨before, request, after, s, hargv, hbefore, Scan.step_eq_help_iff.2 ?_⟩
      have hrunning : s.ended = false := Bool.eq_false_iff.2 fun h => hdashes ((hended hbefore).1 h)
      exact ⟨hrunning, hasks, (haccepted hbefore).1 ⟨c, hc⟩⟩
  · rintro c hc before request after rfl hlooks
    obtain ⟨t, hrun, -⟩ := bind_eq_ok_iff.1 hc
    rw [List.foldlM_append, bind_eq_ok_iff] at hrun
    obtain ⟨s, hbefore, hrest⟩ := hrun
    obtain ⟨u, hstep, -⟩ := bind_eq_ok_iff.1 hrest
    rw [← hended hbefore]
    cases hrunning : s.ended with
    | true => rfl
    | false => exact absurd hlooks (Scan.not_looksLikeHelp hrunning hstep)

end SyntheticLog.CommandLine
