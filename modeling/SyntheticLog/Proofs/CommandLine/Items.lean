import SyntheticLog.Proofs.CommandLine.Forms
import SyntheticLog.Proofs.CommandLine.Readings

/-!
# Items of a command line

An item is a positional argument, or a seed in one or two arguments.

* `Item.arguments`: how an item is spelled.
* `Item.outcome_run`: a scan reads an item as one value given.
* `Scan.accepts_of_step`: what a scan accepts while the options have not ended.
-/

set_option autoImplicit false

namespace SyntheticLog.CommandLine

/-! ## Spelling -/

inductive Item
  | positional (text : Bytes)
  /-- A seed flag and its value, in two arguments. -/
  | spaced (text : Bytes)
  /-- A seed flag and its value with an equals sign between them. -/
  | joined (text : Bytes)

namespace Item

/-- A value with an equals sign before it may be anything. -/
def WellFormed : Item → Prop
  | positional text | spaced text => IsPlain text
  | joined _ => True

def arguments : Item → List Bytes
  | positional text => [text]
  | spaced text => [Utf8.encode "--seed", text]
  | joined text => [Utf8.encode "--seed=" ++ text]

def given : Item → Given
  | positional text => .positional text
  | spaced text | joined text => .seed text

end Item

namespace Scan

/-! ## Steps by the form of the argument -/

section Steps
variable {s : Scan} {text : Bytes}

theorem step_ended (h : s.ended = true) : s.step text = s.positional text := by
  rw [step, if_pos h]

/-- A step by the form of the argument, while the options have not ended. -/
def stepForm (s : Scan) : Token → Except Halt Scan
  | .dashes => .ok { s with ended := true }
  | .long name value => s.long name value
  | .short flags => s.short flags
  | .plain text =>
    if s.pending = some (.seed none) then .ok { s with pending := some (.seed (some text)) }
    else s.positional text

theorem step_eq_stepForm (h : s.ended = false) : s.step text = s.stepForm (Token.ofArgument text) := by
  rw [step, if_neg (by simp [h])]
  cases Token.ofArgument text with
  | dashes => rfl
  | long name value => rfl
  | short flags => rfl
  | plain text => rfl

theorem step_plain (h : s.ended = false) (hpending : s.pending ≠ some (.seed none))
    (htext : IsPlain text) : s.step text = s.positional text := by
  rw [step_eq_stepForm h, Token.ofArgument_eq_plain_iff.2 htext]
  exact if_neg hpending

theorem step_value (h : s.ended = false) (hpending : s.pending = some (.seed none))
    (htext : IsPlain text) : s.step text = .ok { s with pending := some (.seed (some text)) } := by
  rw [step_eq_stepForm h, Token.ofArgument_eq_plain_iff.2 htext]
  exact if_pos hpending

theorem step_dashes (h : s.ended = false) :
    s.step (Utf8.encode "--") = .ok { s with ended := true } := by
  rw [step_eq_stepForm h, Token.ofArgument_dashes, stepForm]

theorem step_seed (h : s.ended = false) : s.step (Utf8.encode "--seed") = s.seedFlag none := by
  rw [step_eq_stepForm h, Token.ofArgument_seed, stepForm, long, if_pos rfl]

theorem step_seedEquals (h : s.ended = false) :
    s.step (Utf8.encode "--seed=" ++ text) = s.seedFlag (some text) := by
  rw [step_eq_stepForm h, Token.ofArgument_seedEquals, stepForm, long, if_pos rfl]

/-! ## Accepted arguments -/

/-- What a scan accepts while the options have not ended. -/
inductive Accepts (s : Scan) : Bytes → Scan → Prop
  | positional {text : Bytes} {t : Scan} (plain : IsPlain text)
    (complete : s.pending ≠ some (.seed none)) (step : s.positional text = .ok t) :
    Accepts s text t
  | value {text : Bytes} (plain : IsPlain text) (pending : s.pending = some (.seed none)) :
    Accepts s text { s with pending := some (.seed (some text)) }
  | dashes : Accepts s (Utf8.encode "--") { s with ended := true }
  | seed {t : Scan} (step : s.seedFlag none = .ok t) : Accepts s (Utf8.encode "--seed") t
  | seedEquals {text : Bytes} {t : Scan} (step : s.seedFlag (some text) = .ok t) :
    Accepts s (Utf8.encode "--seed=" ++ text) t

theorem help_ne_ok {t : Scan} : s.help ≠ .ok t := by
  rw [help]
  cases s.check with
  | error e => nofun
  | ok u => nofun

theorem short_ne_ok {flags : Bytes} {t : Scan} : s.short flags ≠ .ok t := by
  fun_cases short s flags with
  | case1 => exact help_ne_ok
  | case2 => nofun
  | case3 => nofun

theorem name_of_long {name : Bytes} {value : Option Bytes} {t : Scan}
    (h : s.long name value = .ok t) : name = Utf8.encode "seed" ∧ s.seedFlag value = .ok t := by
  revert h
  fun_cases long s name value with
  | case1 value hname => exact fun h => ⟨hname, h⟩
  | case2 => exact fun h => absurd h help_ne_ok
  | case3 => nofun
  | case4 => nofun

/-- There are no other arguments, for a form gives back how it is spelled. -/
theorem accepts_of_step {t : Scan} (hended : s.ended = false) (h : s.step text = .ok t) :
    s.Accepts text t := by
  rw [step_eq_stepForm hended] at h
  have hspelled := Token.spelled_ofArgument text
  cases hform : Token.ofArgument text with
  | dashes =>
    rw [hform] at h hspelled
    cases h
    exact hspelled ▸ .dashes
  | long name value =>
    rw [hform] at h hspelled
    obtain ⟨rfl, hstep⟩ := name_of_long h
    cases value with
    | none => exact hspelled ▸ .seed hstep
    | some value => exact hspelled ▸ .seedEquals hstep
  | short flags =>
    rw [hform] at h
    exact absurd h short_ne_ok
  | plain value =>
    obtain rfl : value = text := by rwa [hform] at hspelled
    rw [hform, stepForm] at h
    have hplain := Token.ofArgument_eq_plain_iff.1 hform
    by_cases hpending : s.pending = some (.seed none)
    · rw [if_pos hpending] at h
      cases h
      exact .value hplain hpending
    · rw [if_neg hpending] at h
      exact .positional hplain hpending h

end Steps

/-! ## Between items -/

/-- The scan stands between two items. -/
structure Ready (s : Scan) : Prop where
  sound : s.Sound
  complete : s.pending ≠ some (.seed none)
  running : s.ended = false

variable {s t : Scan} {text : Bytes}

theorem bind_check_ok {f : Scan → Except Halt Scan} (h : (s.check >>= f) = .ok t) :
    ∃ u, s.settle = .ok u ∧ f u = .ok t := by
  cases hcheck : s.check with
  | error e =>
    rw [hcheck] at h
    cases h
  | ok u =>
    rw [hcheck] at h
    exact ⟨u, settle_of_check hcheck, h⟩

theorem positional_ok (hs : s.Sound) (h : s.positional text = .ok t) :
    t.Sound ∧ t.pending ≠ some (.seed none) ∧ t.ended = s.ended := by
  revert h
  fun_cases positional s text with
  | case1 hk =>
    intro h
    obtain ⟨u, hsettle, ⟨⟩⟩ := bind_check_ok h
    obtain ⟨-, -, hended, hsound⟩ := settle_ok hsettle hs
    exact ⟨hsound, by simp, hended⟩
  | case2 hk =>
    intro h
    obtain ⟨u, hsettle, ⟨⟩⟩ := bind_check_ok h
    obtain ⟨-, -, hended, hsound⟩ := settle_ok hsettle hs
    exact ⟨hsound, by simp, hended⟩
  | case3 hk =>
    intro h
    cases h

theorem seedFlag_some_ok (hs : s.Sound) (h : s.seedFlag (some text) = .ok t) :
    t.Sound ∧ t.pending ≠ some (.seed none) ∧ t.ended = s.ended := by
  obtain ⟨u, hsettle, hcheck⟩ := bind_check_ok h
  obtain ⟨-, -, hended, hsound⟩ := settle_ok hsettle hs
  obtain ⟨hpending, -, hended', hsound'⟩ := settle_ok (settle_of_check hcheck) hsound
  exact ⟨hsound', by rw [hpending]; nofun, hended'.trans hended⟩

/-- A seed flag without a value waits for it. -/
theorem seedFlag_none_ok (hs : s.Sound) (h : s.seedFlag none = .ok t) :
    ∃ u, s.settle = .ok u ∧ u.Sound ∧ u.ended = s.ended ∧ t = { u with pending := some (.seed none) } := by
  obtain ⟨u, hsettle, ⟨⟩⟩ := bind_check_ok h
  obtain ⟨-, -, hended, hsound⟩ := settle_ok hsettle hs
  exact ⟨u, hsettle, hsound, hended, rfl⟩

/-- A scan that waits for a value accepts only that, or two dashes. -/
theorem step_of_waiting (h : s.step text = .ok t) (hwaiting : s.pending = some (.seed none))
    (hended : s.ended = false) :
    IsPlain text ∧ t = { s with pending := some (.seed (some text)) } ∨
      t = { s with ended := true } := by
  have hunsettled {u : Scan} : s.settle ≠ .ok u := by
    rw [settle_of_waiting hwaiting]
    nofun
  cases accepts_of_step hended h with
  | positional plain complete step => exact absurd hwaiting complete
  | value plain pending => exact .inl ⟨plain, rfl⟩
  | dashes => exact .inr rfl
  | seed step =>
    obtain ⟨u, hsettle, -⟩ := bind_check_ok step
    exact absurd hsettle hunsettled
  | seedEquals step =>
    obtain ⟨u, hsettle, -⟩ := bind_check_ok step
    exact absurd hsettle hunsettled

end Scan

namespace Item

open Scan

variable {s t : Scan}

theorem foldlM_step_singleton {text : Bytes} : [text].foldlM step s = s.step text := by
  rw [List.foldlM_cons]
  cases s.step text with
  | error e => rfl
  | ok u => rfl

theorem foldlM_spaced_of_error {text : Bytes} {r : Refusal} (hs : s.Ready)
    (h : s.settle = .error r) : (spaced text).arguments.foldlM step s = .error (.refused r) := by
  rw [arguments, List.foldlM_cons, step_seed hs.running, seedFlag, check_of_error h]
  rfl

theorem foldlM_spaced_of_ok {text : Bytes} {u : Scan} (hs : s.Ready) (htext : IsPlain text)
    (h : s.settle = .ok u) :
    (spaced text).arguments.foldlM step s = .ok { u with pending := some (.seed (some text)) } := by
  obtain ⟨-, -, hended, -⟩ := settle_ok h hs.sound
  rw [arguments, List.foldlM_cons, step_seed hs.running, seedFlag, check_of_ok h]
  change [text].foldlM step { u with pending := some (.seed none) } = _
  rw [foldlM_step_singleton]
  exact step_value (hended.trans hs.running) rfl htext

/-- A scan reads an item as one value given. -/
theorem outcome_run (item : Item) (hs : s.Ready) (hitem : item.WellFormed) :
    outcome (item.arguments.foldlM step s) = s.reading?.bind (·.supply item.given) := by
  cases item with
  | positional text =>
    rw [arguments, foldlM_step_singleton, step_plain hs.running hs.complete hitem]
    exact outcome_positional text
  | joined text =>
    rw [arguments, foldlM_step_singleton, step_seedEquals hs.running]
    exact outcome_seedFlag hs.sound text
  -- the scan between the two arguments shows nothing, so they are taken together
  | spaced text =>
    cases h : s.settle with
    | error r =>
      rw [foldlM_spaced_of_error hs h, reading?_of_error h]
      rfl
    | ok u =>
      rw [foldlM_spaced_of_ok hs hitem h]
      exact reading?_pending_seed h hs.sound text

theorem ready_run (item : Item) (hs : s.Ready) (hitem : item.WellFormed)
    (h : item.arguments.foldlM step s = .ok t) : t.Ready := by
  cases item with
  | positional text =>
    rw [arguments, foldlM_step_singleton, step_plain hs.running hs.complete hitem] at h
    obtain ⟨hsound, hcomplete, hended⟩ := positional_ok hs.sound h
    exact ⟨hsound, hcomplete, hended.trans hs.running⟩
  | joined text =>
    rw [arguments, foldlM_step_singleton, step_seedEquals hs.running] at h
    obtain ⟨hsound, hcomplete, hended⟩ := seedFlag_some_ok hs.sound h
    exact ⟨hsound, hcomplete, hended.trans hs.running⟩
  | spaced text =>
    cases hsettle : s.settle with
    | error r =>
      rw [foldlM_spaced_of_error hs hsettle] at h
      cases h
    | ok u =>
      rw [foldlM_spaced_of_ok hs hitem hsettle] at h
      cases h
      obtain ⟨-, -, hended, hsound⟩ := settle_ok hsettle hs.sound
      exact ⟨hsound, nofun, hended.trans hs.running⟩

end Item

end SyntheticLog.CommandLine
