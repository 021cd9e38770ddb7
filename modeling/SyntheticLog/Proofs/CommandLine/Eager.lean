import SyntheticLog.Proofs.CommandLine.Halts

/-!
# Values checked at once

A scan holds a value back until the next argument is accepted. An eager scan checks each value as
soon as it is read, and that a seed flag has no value as soon as something else follows it. The two
are apart by the pending value only: an eager scan stands where the scan would stand after checking
it.

* `Scan.eagerStep`, `parseEager`: the eager scan.
* `Scan.hurry`: where the eager scan stands when the scan stands at `s`.
* `Scan.hurry_step`, `Scan.hurry_run`: one step of both, and a run of both.
* `parseEager_agrees`: what both accept, and which errors they report.
-/

set_option autoImplicit false

namespace SyntheticLog.CommandLine

/-! ## Eager scans -/

namespace Scan

/-- A seed flag has come, and its value may come next. -/
def Waiting (s : Scan) : Prop := s.pending = some (.seed none) ∧ s.ended = false

instance (s : Scan) : Decidable s.Waiting := inferInstanceAs (Decidable (_ ∧ _))

/-- Checks the pending value, unless it is still to come. -/
def hurry (s : Scan) : Except Halt Scan := if s.Waiting then .ok s else s.check

/-- One more argument, whose value is checked at once. If it is no plain text, then a seed flag
before it has no value. -/
def eagerStep (s : Scan) (argument : Bytes) : Except Halt Scan := do
  let s ←
    match Token.ofArgument argument with
    | .plain _ => .ok s
    | _ => s.check
  let t ← s.step argument
  t.hurry

end Scan

/-- The configuration of a command line, with every value checked as soon as it is read. -/
def parseEager (arguments : List Bytes) : Except Halt Config := do
  let s ← arguments.foldlM Scan.eagerStep Scan.start
  s.finish

/-! ## Errors compared -/

/-- The refusal by its kind and what it names, without the arguments that its usage line shows. -/
def Refusal.bare : Refusal → Refusal
  | .unknownLong name _ => .unknownLong name []
  | .helpValue value _ => .helpValue value []
  | r => r

def Halt.bare : Halt → Halt
  | .help => .help
  | .refused r => .refused r.bare

/-- An argument is refused for what it is: an unknown flag, a third positional argument, or a
request for help that is given a value. -/
def Refusal.IsUnexpected : Refusal → Prop
  | .extraPositional _ | .unknownShort _ | .unknownLong .. | .helpValue .. => True
  | .missingValue _ | .repeatedSeed | .invalidUtf8 | .invalidNumber .. => False

/-- The results are the same, up to the usage lines. -/
def SameResult {α : Type} (x y : Except Halt α) : Prop :=
  x.mapError Halt.bare = y.mapError Halt.bare

theorem sameResult_of_eq {α : Type} {x y : Except Halt α} (h : x = y) : SameResult x y :=
  congrArg (Except.mapError Halt.bare) h

theorem SameResult.bind {α β : Type} {x y : Except Halt α} (h : SameResult x y)
    (f : α → Except Halt β) : SameResult (x >>= f) (y >>= f) := by
  cases x with
  | error e =>
    cases y with
    | error e' => exact congrArg Except.error (Except.error.inj h)
    | ok b => cases h
  | ok a =>
    cases y with
    | error e' => cases h
    | ok b =>
      cases h
      rfl

theorem SameResult.ok_iff {α : Type} {x y : Except Halt α} (h : SameResult x y) (a : α) :
    x = .ok a ↔ y = .ok a := by
  cases x with
  | error e =>
    cases y with
    | error e' => exact iff_of_false nofun nofun
    | ok b => cases h
  | ok b =>
    cases y with
    | error e' => cases h
    | ok c =>
      cases h
      rfl

theorem SameResult.of_error {α : Type} {x : Except Halt α} {e : Halt} (h : SameResult x (.error e)) :
    ∃ e', x = .error e' ∧ e'.bare = e.bare := by
  cases x with
  | error e' => exact ⟨e', rfl, Except.error.inj h⟩
  | ok a => cases h

theorem SameResult.of_help {α : Type} {x : Except Halt α} (h : SameResult x (.error .help)) :
    x = .error .help := by
  obtain ⟨e, rfl, he⟩ := h.of_error
  cases e with
  | help => rfl
  | refused r => cases he

theorem SameResult.of_refused {α : Type} {x : Except Halt α} {r : Refusal}
    (h : SameResult x (.error (.refused r))) : ∃ r', x = .error (.refused r') ∧ r'.bare = r.bare := by
  obtain ⟨e, rfl, he⟩ := h.of_error
  cases e with
  | help => cases he
  | refused r' => exact ⟨r', rfl, Halt.refused.inj he⟩

namespace Scan

variable {s t : Scan} {r : Refusal} {argument : Bytes}

/-! ## Checks -/

theorem not_waiting_of_ok (h : s.settle = .ok t) : ¬s.Waiting := by
  rintro ⟨hpending, -⟩
  rw [settle_of_waiting hpending] at h
  cases h

theorem hurry_of_waiting (h : s.Waiting) : s.hurry = .ok s := if_pos h

theorem hurry_of_ok (h : s.settle = .ok t) : s.hurry = .ok t := by
  rw [hurry, if_neg (not_waiting_of_ok h), check_of_ok h]

theorem hurry_of_error (h : s.settle = .error r) (hs : ¬s.Waiting) :
    s.hurry = .error (.refused r) := by
  rw [hurry, if_neg hs, check_of_error h]

theorem hurry_ended (s : Scan) :
    hurry { s with ended := true } = s.check.map ({ · with ended := true }) := by
  have hwaiting : ¬Waiting { s with ended := true } := by
    rintro ⟨-, ⟨⟩⟩
  cases h : s.settle with
  | error r =>
    rw [check_of_error h]
    refine hurry_of_error ?_ hwaiting
    rw [settle_ended, h]
    rfl
  | ok t =>
    rw [check_of_ok h]
    refine hurry_of_ok ?_
    rw [settle_ended, h]
    rfl

/-- The end checks what is pending, so it may be checked before. -/
theorem hurry_bind_finish (hs : s.Sound) : (s.hurry >>= finish) = s.finish := by
  by_cases hwaiting : s.Waiting
  · rw [hurry_of_waiting hwaiting]
    rfl
  · cases h : s.settle with
    | error r =>
      rw [hurry_of_error h hwaiting, finish_of_error h]
      rfl
    | ok t =>
      obtain ⟨hpending, -, -, -⟩ := settle_ok h hs
      rw [hurry_of_ok h, finish_of_ok h]
      exact finish_of_ok (settle_of_pending hpending)

/-! ## Settled scans

A step checks the pending value first, so it makes no difference if that is done before.
-/

section Settled

theorem check_settled (h : s.settle = .ok t) (hs : s.Sound) : t.check = s.check := by
  obtain ⟨hpending, -, -, -⟩ := settle_ok h hs
  rw [check_of_ok h, check_of_ok (settle_of_pending hpending)]

theorem positional_settled (h : s.settle = .ok t) (hs : s.Sound) (text : Bytes) :
    t.positional text = s.positional text := by
  obtain ⟨-, hpositionals, -, -⟩ := settle_ok h hs
  rw [positional, positional, hpositionals, check_settled h hs]

theorem seedFlag_settled (h : s.settle = .ok t) (hs : s.Sound) (value : Option Bytes) :
    t.seedFlag value = s.seedFlag value := by
  rw [seedFlag, seedFlag, check_settled h hs]

theorem help_settled (h : s.settle = .ok t) (hs : s.Sound) : t.help = s.help := by
  rw [help, help, check_settled h hs]

/-- A value that is right is given before it is checked. -/
theorem given_settled (h : s.settle = .ok t) : t.given = s.given := by
  obtain ⟨pending, started, rowCount, filePath, seed, positionals, ended⟩ := s
  revert h
  match pending with
  | none =>
    rintro ⟨⟩
    rfl
  | some (.rowCount text) =>
    simp only [settle]
    cases number .rowCount text with
    | error r => rintro ⟨⟩
    | ok n =>
      rintro ⟨⟩
      rfl
  | some (.filePath text) =>
    simp only [settle]
    cases text.isEmpty with
    | true => rintro ⟨⟩
    | false =>
      rintro ⟨⟩
      rfl
  | some (.seed none) => rintro ⟨⟩
  | some (.seed (some text)) =>
    simp only [settle]
    by_cases hseed : Argument.seed ∈ started
    · rw [if_pos hseed]
      rintro ⟨⟩
    · rw [if_neg hseed]
      cases number .seed text with
      | error r => rintro ⟨⟩
      | ok n =>
        rintro ⟨⟩
        exact (if_neg hseed).symm

/-- Only the usage line of a request for help with a value tells what is checked. -/
theorem long_settled (h : s.settle = .ok t) (hs : s.Sound) (name : Bytes) (value : Option Bytes) :
    SameResult (t.long name value) (s.long name value) := by
  fun_cases long s name value with
  | case1 value hseed =>
    unfold long
    rw [if_pos hseed]
    exact sameResult_of_eq (seedFlag_settled h hs value)
  | case2 hseed hhelp =>
    rw [long, if_neg hseed, if_pos hhelp]
    exact sameResult_of_eq (help_settled h hs)
  | case3 hseed hhelp text =>
    rw [long, if_neg hseed, if_pos hhelp]
    rfl
  | case4 value hseed hhelp =>
    unfold long
    rw [if_neg hseed, if_neg hhelp, given_settled h]
    rfl

theorem short_settled (h : s.settle = .ok t) (hs : s.Sound) (flags : Bytes) :
    t.short flags = s.short flags := by
  rw [short, short, help_settled h hs]

theorem step_settled (h : s.settle = .ok t) (hs : s.Sound) (argument : Bytes) :
    SameResult (t.step argument >>= hurry) (s.step argument >>= hurry) := by
  obtain ⟨hpending, -, hended, -⟩ := settle_ok h hs
  cases hrunning : s.ended with
  | true =>
    rw [step_ended hrunning, step_ended (hended.trans hrunning), positional_settled h hs]
    rfl
  | false =>
    rw [step_eq_stepForm hrunning, step_eq_stepForm (hended.trans hrunning)]
    cases Token.ofArgument argument with
    | dashes =>
      show SameResult (hurry { t with ended := true }) (hurry { s with ended := true })
      rw [hurry_ended, hurry_ended, check_settled h hs]
      rfl
    | long name value => exact (long_settled h hs name value).bind hurry
    | short flags =>
      rw [stepForm, stepForm, short_settled h hs]
      rfl
    | plain text =>
      have hwaiting : s.pending ≠ some (.seed none) := fun hseed =>
        not_waiting_of_ok h ⟨hseed, hrunning⟩
      have hchecked : t.pending ≠ some (.seed none) := by simp [hpending]
      rw [stepForm, stepForm, if_neg hwaiting, if_neg hchecked, positional_settled h hs]
      rfl

end Settled

/-! ## Scans that hold a wrong value back -/

section Unsettled

/-- Where no seed flag takes its value, the wrong value is refused, or the argument for what it is;
only two dashes check nothing. -/
theorem step_unsettled (h : s.settle = .error r) (hvalue : ¬(s.Waiting ∧ IsPlain argument)) :
    s.step argument = .error (.refused r) ∨
      (∃ r', s.step argument = .error (.refused r') ∧ r'.IsUnexpected) ∨
      s.step argument = .ok { s with ended := true } := by
  have hpositional (text : Bytes) : s.positional text = .error (.refused r) ∨
      ∃ r', s.positional text = .error (.refused r') ∧ r'.IsUnexpected := by
    rcases positional_of_error h text with hrefused | ⟨-, hextra⟩
    · exact .inl hrefused
    · exact .inr ⟨_, hextra, trivial⟩
  cases hrunning : s.ended with
  | true =>
    rw [step_ended hrunning]
    exact (hpositional argument).imp_right .inl
  | false =>
    rw [step_eq_stepForm hrunning]
    have hspelled := Token.spelled_ofArgument argument
    cases hform : Token.ofArgument argument with
    | dashes => exact .inr (.inr rfl)
    | long name value =>
      rw [stepForm]
      fun_cases long s name value with
      | case1 => exact .inl (seedFlag_of_error h _)
      | case2 => exact .inl (help_of_error h)
      | case3 => exact .inr (.inl ⟨_, rfl, trivial⟩)
      | case4 => exact .inr (.inl ⟨_, rfl, trivial⟩)
    | short flags =>
      rw [stepForm]
      fun_cases short s flags with
      | case1 => exact .inl (help_of_error h)
      | case2 => exact .inr (.inl ⟨_, rfl, trivial⟩)
      | case3 => exact .inr (.inl ⟨_, rfl, trivial⟩)
    | plain text =>
      obtain rfl : text = argument := by rwa [hform] at hspelled
      have hpending : s.pending ≠ some (.seed none) := fun hseed =>
        hvalue ⟨⟨hseed, hrunning⟩, Token.ofArgument_eq_plain_iff.1 hform⟩
      rw [stepForm, if_neg hpending]
      exact (hpositional text).imp_right .inl

end Unsettled

/-! ## Steps of both scans -/

theorem eagerStep_of_plain (h : IsPlain argument) :
    s.eagerStep argument = s.step argument >>= hurry := by
  rw [eagerStep, Token.ofArgument_eq_plain_iff.2 h]
  rfl

theorem eagerStep_of_not_plain (h : ¬IsPlain argument) :
    s.eagerStep argument = s.check >>= fun t => t.step argument >>= hurry := by
  rw [eagerStep]
  cases hform : Token.ofArgument argument with
  | dashes => rfl
  | long name value => rfl
  | short flags => rfl
  | plain text =>
    have hspelled := Token.spelled_ofArgument argument
    obtain rfl : text = argument := by rwa [hform] at hspelled
    exact absurd (Token.ofArgument_eq_plain_iff.1 hform) h

theorem eagerStep_settled (h : s.pending = none) : s.eagerStep argument = s.step argument >>= hurry := by
  by_cases hplain : IsPlain argument
  · exact eagerStep_of_plain hplain
  · rw [eagerStep_of_not_plain hplain, check_of_ok (settle_of_pending h)]
    rfl

theorem eagerStep_unsettled (h : s.settle = .error r) (hvalue : ¬(s.Waiting ∧ IsPlain argument)) :
    (s.hurry >>= (eagerStep · argument)) = .error (.refused r) := by
  by_cases hwaiting : s.Waiting
  · rw [hurry_of_waiting hwaiting]
    show s.eagerStep argument = _
    rw [eagerStep_of_not_plain fun hplain => hvalue ⟨hwaiting, hplain⟩, check_of_error h]
    rfl
  · rw [hurry_of_error h hwaiting]
    rfl

/-- One step of both: the eager scan stands where the scan comes to, or it has found the pending
value wrong, which the scan passes over to refuse the argument for what it is. -/
theorem hurry_step (hs : s.Sound) (argument : Bytes) :
    SameResult (s.hurry >>= (eagerStep · argument)) (s.step argument >>= hurry) ∨
      ∃ r r', s.settle = .error r' ∧ r.IsUnexpected ∧ s.step argument = .error (.refused r) ∧
        (s.hurry >>= (eagerStep · argument)) = .error (.refused r') := by
  by_cases hvalue : s.Waiting ∧ IsPlain argument
  · obtain ⟨hwaiting, hplain⟩ := hvalue
    rw [hurry_of_waiting hwaiting]
    exact .inl (sameResult_of_eq (eagerStep_of_plain hplain))
  · cases h : s.settle with
    | ok t =>
      obtain ⟨hpending, -, -, -⟩ := settle_ok h hs
      rw [hurry_of_ok h]
      refine .inl ?_
      show SameResult (t.eagerStep argument) _
      rw [eagerStep_settled hpending]
      exact step_settled h hs argument
    | error r =>
      rw [eagerStep_unsettled h hvalue]
      rcases step_unsettled h hvalue with hstep | ⟨r', hstep, hunexpected⟩ | hstep
      · rw [hstep]
        exact .inl rfl
      · exact .inr ⟨r', r, rfl, hunexpected, hstep, rfl⟩
      · rw [hstep]
        refine .inl ?_
        show SameResult _ (hurry { s with ended := true })
        rw [hurry_ended, check_of_error h]
        rfl

/-- Runs of both, as long as the scan does not halt. -/
theorem hurry_run {arguments : List Bytes} (hs : s.Sound) (h : arguments.foldlM step s = .ok t) :
    SameResult (s.hurry >>= fun u => arguments.foldlM eagerStep u) t.hurry := by
  induction arguments generalizing s with
  | nil =>
    cases h
    exact sameResult_of_eq (bind_pure _)
  | cons argument arguments ih =>
    rw [List.foldlM_cons, bind_eq_ok_iff] at h
    obtain ⟨u, hstep, hrest⟩ := h
    rcases hurry_step hs argument with hsame | ⟨r, r', -, -, hrefused, -⟩
    · rw [hstep] at hsame
      simp only [List.foldlM_cons, ← bind_assoc]
      exact (hsame.bind _).trans (ih (step_ok hs hstep).1 hrest)
    -- the two part only at an argument that the scan halts at, and it halts at none of these
    · rw [hstep] at hrefused
      cases hrefused

end Scan

/-! ## Command lines -/

theorem Refusal.eq_of_bare {r r' : Refusal} (h : r'.bare = r.bare) (hr : ¬r.IsUnexpected) :
    r' = r := by
  cases r with
  | extraPositional | unknownShort | unknownLong | helpValue => exact absurd trivial hr
  | missingValue | repeatedSeed | invalidUtf8 | invalidNumber =>
    cases r' with
    | unknownLong | helpValue => cases h
    | missingValue | repeatedSeed | invalidUtf8 | invalidNumber | extraPositional | unknownShort =>
      exact h

theorem Scan.number_error {argument : Argument} {text : Bytes} {r : Refusal}
    (h : Scan.number argument text = .error r) : ¬r.IsUnexpected := by
  rw [number] at h
  split at h
  · split at h
    · cases h
    · cases h
      exact id
  · cases h
    exact id

theorem Scan.settle_error {s : Scan} {r : Refusal} (h : s.settle = .error r) : ¬r.IsUnexpected := by
  revert h
  fun_cases settle s with
  | case1 => rintro ⟨⟩
  | case2 text hpending =>
    cases hnumber : number .rowCount text with
    | error r' =>
      rintro ⟨⟩
      exact number_error hnumber
    | ok n => rintro ⟨⟩
  | case3 =>
    rintro ⟨⟩
    exact id
  | case4 => rintro ⟨⟩
  | case5 =>
    rintro ⟨⟩
    exact id
  | case6 =>
    rintro ⟨⟩
    exact id
  | case7 text hpending hseed =>
    cases hnumber : number .seed text with
    | error r' =>
      rintro ⟨⟩
      exact number_error hnumber
    | ok n => rintro ⟨⟩

/-- Both come to the same, or the scan refuses an argument for what it is while it holds a wrong
value back, which the eager scan has refused. -/
theorem parseEager_cases (argv : List Bytes) :
    SameResult (parseEager argv) (parse argv) ∨
      ∃ before argument after s r r', argv = before ++ argument :: after ∧
        before.foldlM Scan.step Scan.start = .ok s ∧ s.step argument = .error (.refused r) ∧
        r.IsUnexpected ∧ s.settle = .error r' ∧
        SameResult (parseEager argv) (.error (.refused r')) := by
  have hstart : Scan.start.hurry = .ok Scan.start := Scan.hurry_of_ok (Scan.settle_of_pending rfl)
  have hrun {arguments : List Bytes} {s : Scan}
      (h : arguments.foldlM Scan.step Scan.start = .ok s) :
      SameResult (arguments.foldlM Scan.eagerStep Scan.start) s.hurry := by
    have hsame := Scan.hurry_run Scan.sound_start h
    rw [hstart] at hsame
    exact hsame
  cases hall : argv.foldlM Scan.step Scan.start with
  | ok s =>
    rw [parse, hall]
    refine .inl (((hrun hall).bind Scan.finish).trans ?_)
    exact sameResult_of_eq (Scan.hurry_bind_finish (Scan.run_ok Scan.sound_start hall).1)
  | error h =>
    obtain ⟨before, argument, after, s, rfl, hbefore, hstep⟩ := foldlM_eq_error_iff.1 hall
    -- up to the argument where the scan halts, the eager scan is ahead by one check
    have hsplit : SameResult (parseEager (before ++ argument :: after))
        ((s.hurry >>= (Scan.eagerStep · argument)) >>= fun u =>
          after.foldlM Scan.eagerStep u >>= Scan.finish) := by
      have hsame := (hrun hbefore).bind fun u =>
        (argument :: after).foldlM Scan.eagerStep u >>= Scan.finish
      simp only [List.foldlM_cons, bind_assoc] at hsame ⊢
      rw [parseEager, List.foldlM_append]
      simp only [List.foldlM_cons, bind_assoc]
      exact hsame
    rcases Scan.hurry_step (Scan.run_ok Scan.sound_start hbefore).1 argument with
      hsame | ⟨r, r', hsettle, hunexpected, hrefused, heager⟩
    · rw [hstep] at hsame
      rw [parse, hall]
      exact .inl (hsplit.trans (hsame.bind _))
    · rw [heager] at hsplit
      exact .inr ⟨before, argument, after, s, r, r', rfl, hbefore, hrefused, hunexpected, hsettle,
        hsplit⟩

/-- Checked at once or late, the same command lines are accepted with the same configurations, the
same are answered with help, and of those that are refused the same error is reported, by its kind
and what it names. Only where an argument is refused for what it is may the eager scan report the
value that was pending there instead; all values before that one have been checked, and are right.
-/
theorem parseEager_agrees (argv : List Bytes) :
    (∀ c, parseEager argv = .ok c ↔ parse argv = .ok c) ∧
    (parseEager argv = .error .help ↔ parse argv = .error .help) ∧
    ∀ r, parse argv = .error (.refused r) → ∃ r', parseEager argv = .error (.refused r') ∧
      (r'.bare = r.bare ∨
        r.IsUnexpected ∧ ∃ before argument after s, argv = before ++ argument :: after ∧
          before.foldlM Scan.step Scan.start = .ok s ∧ s.step argument = .error (.refused r) ∧
          s.settle = .error r') := by
  rcases parseEager_cases argv with hsame | ⟨before, argument, after, s, r, r', hargv, hbefore, hstep,
    hunexpected, hsettle, hsame⟩
  · refine ⟨hsame.ok_iff, ⟨fun h => ?_, fun h => ?_⟩, fun r hr => ?_⟩
    · rw [h] at hsame
      exact SameResult.of_help hsame.symm
    · rw [h] at hsame
      exact hsame.of_help
    · rw [hr] at hsame
      obtain ⟨r', hr', hbare⟩ := hsame.of_refused
      exact ⟨r', hr', .inl hbare⟩
  · have hparse : parse argv = .error (.refused r) :=
      parse_eq_error_iff.2 (.inl ⟨before, argument, after, s, hargv, hbefore, hstep⟩)
    obtain ⟨late, heager, hbare⟩ := hsame.of_refused
    obtain rfl := Refusal.eq_of_bare hbare (Scan.settle_error hsettle)
    rw [hparse, heager]
    refine ⟨fun c => iff_of_false nofun nofun, iff_of_false nofun nofun, ?_⟩
    rintro _ ⟨⟩
    exact ⟨late, rfl, .inr ⟨hunexpected, before, argument, after, s, hargv, hbefore, hstep, hsettle⟩⟩

example :
    parse [Utf8.encode "x", Utf8.encode "-q"] = .error (.refused (.unknownShort ['q'])) ∧
      parseEager [Utf8.encode "x", Utf8.encode "-q"] =
        .error (.refused (.invalidNumber .rowCount (Utf8.encode "x") .invalidDigit)) :=
  ⟨by cbv, by cbv⟩

end SyntheticLog.CommandLine
