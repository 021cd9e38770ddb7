import Mathlib.Data.List.Induction
import SyntheticLog.Proofs.CommandLine.Items

/-!
# Layouts of command lines

A layout cuts a command line into items and, behind two dashes, texts.

* `Layout.arguments`: how a layout is spelled.
* `Layout.positionals`, `Layout.seeds`: the values that it gives.
* `Gives`: the configuration of these values.
* `parse_eq_ok_iff`: the command lines that are accepted, and their configurations.
-/

set_option autoImplicit false

namespace SyntheticLog.CommandLine

/-! ## Layouts -/

structure Layout where
  items : List Item
  /-- The texts behind two dashes, if those are there. -/
  rest : Option (List Bytes)

def Given.positional? : Given → Option Bytes
  | .positional text => some text
  | .seed _ => none

def Given.seed? : Given → Option Bytes
  | .positional _ => none
  | .seed text => some text

namespace Layout

def WellFormed (l : Layout) : Prop := ∀ item ∈ l.items, item.WellFormed

def arguments (l : Layout) : List Bytes :=
  l.items.flatMap Item.arguments ++ l.rest.elim [] (Utf8.encode "--" :: ·)

/-- The values in order; behind two dashes all are positional. -/
def givens (l : Layout) : List Given :=
  l.items.map Item.given ++ (l.rest.getD []).map .positional

def positionals (l : Layout) : List Bytes := l.givens.filterMap Given.positional?

def seeds (l : Layout) : List Bytes := l.givens.filterMap Given.seed?

def cons (item : Item) (l : Layout) : Layout := ⟨item :: l.items, l.rest⟩

theorem wellFormed_cons {item : Item} {l : Layout} (hitem : item.WellFormed) (hl : l.WellFormed) :
    (cons item l).WellFormed :=
  List.forall_mem_cons.2 ⟨hitem, hl⟩

theorem arguments_cons (item : Item) (l : Layout) :
    (cons item l).arguments = item.arguments ++ l.arguments := by
  rw [arguments, cons, List.flatMap_cons, List.append_assoc, arguments]

end Layout

/-! ## Configurations of values -/

def GivesRowCount : List Bytes → Nat → Prop
  | [], n => n = Config.defaultRowCount
  | text :: _, n => Number.Denotes text n

def GivesFilePath : List Bytes → Bytes → Prop
  | _ :: text :: _, path => text ≠ [] ∧ path = text
  | _, path => path = Utf8.encode Config.defaultFilePath

def GivesSeed : List Bytes → Option UInt64 → Prop
  | [], seed => seed = none
  | text :: _, seed => ∃ v, seed = some v ∧ Number.Denotes text v.toNat

/-- The configuration of at most two positional arguments and at most one seed. -/
structure Gives (positionals seeds : List Bytes) (c : Config) : Prop where
  length_positionals : positionals.length ≤ 2
  length_seeds : seeds.length ≤ 1
  rowCount : GivesRowCount positionals c.rowCount
  filePath : GivesFilePath positionals c.filePath
  seed : GivesSeed seeds c.seed

section Concat
variable {positionals seeds : List Bytes} {text : Bytes} {k : Nat} {c : Config}

theorem exists_gives_positional_iff :
    (∃ d, Gives positionals seeds d ∧
        Reading.supply (positionals.length, d) (.positional text) = some (k, c)) ↔
      k = positionals.length + 1 ∧ Gives (positionals ++ [text]) seeds c := by
  match positionals with
  | [] =>
    constructor
    · rintro ⟨d, hd, hsupply⟩
      obtain ⟨n, hn, ⟨⟩⟩ := Reading.supply_rowCount_iff.1 hsupply
      exact ⟨rfl, by simp, hd.length_seeds, hn, hd.filePath, hd.seed⟩
    · rintro ⟨rfl, hc⟩
      refine ⟨{ c with rowCount := Config.defaultRowCount }, ⟨by simp, hc.length_seeds, rfl,
        hc.filePath, hc.seed⟩, Reading.supply_rowCount_iff.2 ⟨c.rowCount, hc.rowCount, rfl⟩⟩
  | [first] =>
    constructor
    · rintro ⟨d, hd, hsupply⟩
      obtain ⟨htext, ⟨⟩⟩ := Reading.supply_filePath_iff.1 hsupply
      exact ⟨rfl, by simp, hd.length_seeds, hd.rowCount, ⟨htext, rfl⟩, hd.seed⟩
    · rintro ⟨rfl, hc⟩
      obtain ⟨htext, hpath⟩ := hc.filePath
      refine ⟨{ c with filePath := Utf8.encode Config.defaultFilePath }, ⟨by simp, hc.length_seeds,
        hc.rowCount, rfl, hc.seed⟩, Reading.supply_filePath_iff.2 ⟨htext, ?_⟩⟩
      rw [← hpath]
      rfl
  | first :: second :: more =>
    constructor
    · rintro ⟨d, hd, hsupply⟩
      cases hsupply
    · rintro ⟨rfl, hc⟩
      have hlength := hc.length_positionals
      rw [List.length_append, List.length_cons, List.length_cons, List.length_singleton] at hlength
      omega

theorem exists_gives_seed_iff :
    (∃ d, Gives positionals seeds d ∧
        Reading.supply (positionals.length, d) (.seed text) = some (k, c)) ↔
      k = positionals.length ∧ Gives positionals (seeds ++ [text]) c := by
  match seeds with
  | [] =>
    constructor
    · rintro ⟨d, hd, hsupply⟩
      obtain ⟨-, n, hn, ⟨⟩⟩ := Reading.supply_seed_iff.1 hsupply
      refine ⟨rfl, hd.length_positionals, by simp, hd.rowCount, hd.filePath, _, rfl, ?_⟩
      rw [UInt64.toNat_ofNat_of_lt' hn.lt_limit]
      exact hn
    · rintro ⟨rfl, hc⟩
      obtain ⟨v, hv, hn⟩ := hc.seed
      refine ⟨{ c with seed := none }, ⟨hc.length_positionals, by simp, hc.rowCount, hc.filePath, rfl⟩,
        Reading.supply_seed_iff.2 ⟨rfl, v.toNat, hn, ?_⟩⟩
      rw [UInt64.ofNat_toNat, ← hv]
  | first :: more =>
    constructor
    · rintro ⟨d, hd, hsupply⟩
      obtain ⟨v, hv, -⟩ := hd.seed
      obtain ⟨hnone, -⟩ := Reading.supply_seed_iff.1 hsupply
      rw [hv] at hnone
      cases hnone
    · rintro ⟨rfl, hc⟩
      have hlength := hc.length_seeds
      rw [List.length_append, List.length_cons, List.length_singleton] at hlength
      omega

end Concat

theorem gives_nil_iff {c : Config} : Gives [] [] c ↔ c = Config.standard := by
  constructor
  · rintro ⟨-, -, hrowCount, hfilePath, hseed⟩
    obtain ⟨rowCount, filePath, seed⟩ := c
    cases hrowCount
    cases hfilePath
    cases hseed
    rfl
  · rintro rfl
    exact ⟨by simp, by simp, rfl, rfl, rfl⟩

/-- Readings of values one after the other give their configuration. -/
theorem foldlM_supply_eq_some_iff {givens : List Given} {k : Nat} {c : Config} :
    givens.foldlM Reading.supply (0, Config.standard) = some (k, c) ↔
      k = (givens.filterMap Given.positional?).length ∧
        Gives (givens.filterMap Given.positional?) (givens.filterMap Given.seed?) c := by
  -- from the right: the last value is supplied to the reading of all before it
  induction givens using List.reverseRecOn generalizing k c with
  | nil =>
    simp only [List.foldlM_nil, List.filterMap_nil, List.length_nil, gives_nil_iff]
    constructor
    · rintro ⟨⟩
      exact ⟨rfl, rfl⟩
    · rintro ⟨rfl, rfl⟩
      rfl
  | append_singleton givens last ih =>
    have hstep : (givens ++ [last]).foldlM Reading.supply (0, Config.standard) = some (k, c) ↔
        ∃ d, Gives (givens.filterMap Given.positional?) (givens.filterMap Given.seed?) d ∧
          Reading.supply ((givens.filterMap Given.positional?).length, d) last = some (k, c) := by
      simp only [List.foldlM_append, List.foldlM_cons, List.foldlM_nil, bind_pure]
      constructor
      · intro h
        obtain ⟨⟨j, d⟩, hinit, hlast⟩ := Option.bind_eq_some_iff.1 h
        obtain ⟨rfl, hd⟩ := ih.1 hinit
        exact ⟨d, hd, hlast⟩
      · rintro ⟨d, hd, hlast⟩
        exact Option.bind_eq_some_iff.2 ⟨_, ih.2 ⟨rfl, hd⟩, hlast⟩
    rw [hstep, List.filterMap_append, List.filterMap_append]
    cases last with
    | positional text =>
      rw [exists_gives_positional_iff, List.length_append]
      simp only [List.filterMap_cons, List.filterMap_nil, Given.positional?, Given.seed?,
        List.append_nil, List.length_singleton]
    | seed text =>
      rw [exists_gives_seed_iff]
      simp only [List.filterMap_cons, List.filterMap_nil, Given.positional?, Given.seed?,
        List.append_nil]

/-! ## Reading a layout -/

namespace Scan

variable {s : Scan}

theorem outcome_bind {x : Except Halt Scan} {r? : Option Reading} {f : Scan → Except Halt Scan}
    {g : Reading → Option Reading} (hx : outcome x = r?)
    (hf : ∀ t, x = .ok t → outcome (f t) = t.reading?.bind g) : outcome (x >>= f) = r?.bind g := by
  cases x with
  | error e =>
    rw [← hx]
    rfl
  | ok t =>
    rw [← hx]
    exact hf t rfl

/-- A run shows as a run of readings, if its first part and the rest do. -/
theorem outcome_append {arguments rest : List Bytes} {given : Reading → Option Reading}
    {givens : List Given} (hfirst : outcome (arguments.foldlM step s) = s.reading?.bind given)
    (hrest : ∀ t, arguments.foldlM step s = .ok t →
      outcome (rest.foldlM step t) = t.reading?.bind (givens.foldlM Reading.supply ·)) :
    outcome ((arguments ++ rest).foldlM step s) =
      s.reading?.bind fun r => (given r).bind (givens.foldlM Reading.supply ·) := by
  rw [List.foldlM_append, ← Option.bind_assoc]
  exact outcome_bind hfirst hrest

theorem outcome_nil : outcome ([].foldlM step s) = s.reading?.bind ([].foldlM Reading.supply ·) :=
  (Option.bind_fun_some s.reading?).symm

/-- Behind two dashes every argument is positional. -/
theorem outcome_texts (hs : s.Sound) (hended : s.ended = true) (texts : List Bytes) :
    outcome (texts.foldlM step s) =
      s.reading?.bind ((texts.map Given.positional).foldlM Reading.supply ·) := by
  induction texts generalizing s with
  | nil => exact outcome_nil
  | cons text texts ih =>
    have hstep : [text].foldlM step s = s.positional text := by
      rw [Item.foldlM_step_singleton, step_ended hended]
    have hfirst := outcome_positional (s := s) text
    rw [← hstep] at hfirst
    refine outcome_append hfirst fun t ht => ?_
    rw [hstep] at ht
    obtain ⟨hsound, -, hended'⟩ := positional_ok hs ht
    exact ih hsound (hended'.trans hended)

theorem outcome_layout {l : Layout} (hl : l.WellFormed) (hs : s.Ready) :
    outcome (l.arguments.foldlM step s) = s.reading?.bind (l.givens.foldlM Reading.supply ·) := by
  obtain ⟨items, rest⟩ := l
  induction items generalizing s with
  | nil =>
    cases rest with
    | none => exact outcome_nil
    | some texts =>
      change outcome ((Utf8.encode "--" :: texts).foldlM step s) =
        s.reading?.bind ((texts.map Given.positional).foldlM Reading.supply ·)
      rw [List.foldlM_cons, step_dashes hs.running, ← reading?_ended hs.sound true]
      exact outcome_texts (s := { s with ended := true }) hs.sound rfl texts
  | cons item items ih =>
    obtain ⟨hitem, hitems⟩ := List.forall_mem_cons.1 hl
    change outcome ((Layout.cons item ⟨items, rest⟩).arguments.foldlM step s) = _
    rw [Layout.arguments_cons]
    exact outcome_append (item.outcome_run hs hitem) fun t ht =>
      ih (item.ready_run hs hitem ht) hitems

theorem ready_start : start.Ready := ⟨by simp [Sound, start], nofun, rfl⟩

end Scan

theorem parse_eq_ok_iff_outcome {argv : List Bytes} {c : Config} :
    parse argv = .ok c ↔ ∃ k, Scan.outcome (argv.foldlM Scan.step Scan.start) = some (k, c) := by
  rw [parse]
  cases argv.foldlM Scan.step Scan.start with
  | error e =>
    constructor
    · nofun
    · nofun
  | ok s => exact Scan.finish_eq_ok_iff

/-! ## Cutting a command line -/

theorem exists_layout_cons (item : Item) {argv : List Bytes} (hitem : item.WellFormed)
    (h : ∃ l : Layout, l.WellFormed ∧ l.arguments = argv) :
    ∃ l : Layout, l.WellFormed ∧ l.arguments = item.arguments ++ argv := by
  obtain ⟨l, hl, rfl⟩ := h
  exact ⟨l.cons item, Layout.wellFormed_cons hitem hl, Layout.arguments_cons item l⟩

theorem foldlM_cons_ok {argument : Bytes} {rest : List Bytes} {s t : Scan}
    (h : (argument :: rest).foldlM Scan.step s = .ok t) :
    ∃ u, s.step argument = .ok u ∧ rest.foldlM Scan.step u = .ok t := by
  rw [List.foldlM_cons] at h
  cases hstep : s.step argument with
  | error e =>
    rw [hstep] at h
    cases h
  | ok u =>
    rw [hstep] at h
    exact ⟨u, rfl, h⟩

-- A flag that waits for its value takes two arguments off, so the recursion is on what is left.
theorem exists_layout {t : Scan} (ht : t.reading? ≠ none) :
    ∀ {argv : List Bytes} {s : Scan}, s.Ready → argv.foldlM Scan.step s = .ok t →
      ∃ l : Layout, l.WellFormed ∧ l.arguments = argv
  | [], _, _, _ => ⟨⟨[], none⟩, nofun, rfl⟩
  | argument :: rest, s, hs, h => by
    obtain ⟨u, hstep, hrest⟩ := foldlM_cons_ok h
    cases Scan.accepts_of_step hs.running hstep with
    | positional plain complete step =>
      have hu := Item.ready_run (.positional argument) hs plain
        (Item.foldlM_step_singleton.trans hstep)
      exact exists_layout_cons (.positional argument) plain (exists_layout ht hu hrest)
    | value plain pending => exact absurd pending hs.complete
    | dashes => exact ⟨⟨[], some rest⟩, nofun, rfl⟩
    | @seedEquals text _ step =>
      have hu := Item.ready_run (.joined text) hs trivial (Item.foldlM_step_singleton.trans hstep)
      exact exists_layout_cons (.joined text) trivial (exists_layout ht hu hrest)
    | seed step =>
      obtain ⟨v, hsettle, hsound, hended, rfl⟩ := Scan.seedFlag_none_ok hs.sound step
      match rest with
      | [] =>
        cases hrest
        exact absurd (Scan.reading?_of_error (Scan.settle_of_waiting rfl)) ht
      | value :: rest =>
        obtain ⟨w, hvalue, hrest⟩ := foldlM_cons_ok hrest
        obtain ⟨plain, rfl⟩ | rfl := Scan.step_of_waiting hvalue rfl (hended.trans hs.running)
        · have hw := Item.ready_run (.spaced value) hs plain
            (Item.foldlM_spaced_of_ok hs plain hsettle)
          exact exists_layout_cons (.spaced value) plain (exists_layout ht hw hrest)
        -- two dashes instead of the value: the flag waits for good
        · have houtcome := Scan.outcome_texts
            (s := { v with pending := some (.seed none), ended := true }) hsound rfl rest
          rw [hrest, Scan.reading?_of_error (Scan.settle_of_waiting rfl)] at houtcome
          exact absurd houtcome ht

theorem exists_layout_of_outcome {argv : List Bytes} {r : Reading}
    (h : Scan.outcome (argv.foldlM Scan.step Scan.start) = some r) :
    ∃ l : Layout, l.WellFormed ∧ l.arguments = argv := by
  cases ht : argv.foldlM Scan.step Scan.start with
  | error e =>
    rw [ht] at h
    cases h
  | ok t =>
    rw [ht] at h
    refine exists_layout (t := t) ?_ Scan.ready_start ht
    intro hnone
    rw [Scan.outcome, Except.toOption, Option.bind_some, hnone] at h
    cases h

/-! ## Command lines -/

theorem parse_arguments_iff {l : Layout} {c : Config} (hl : l.WellFormed) :
    parse l.arguments = .ok c ↔ Gives l.positionals l.seeds c := by
  rw [parse_eq_ok_iff_outcome, Scan.outcome_layout hl Scan.ready_start]
  constructor
  · rintro ⟨k, hk⟩
    exact (foldlM_supply_eq_some_iff.1 hk).2
  · exact fun hc => ⟨l.positionals.length, foldlM_supply_eq_some_iff.2 ⟨rfl, hc⟩⟩

/-- A command line is accepted if it has a layout whose values give a configuration, and then with
this one; all layouts that it has agree on that. -/
theorem parse_eq_ok_iff (argv : List Bytes) (c : Config) :
    (parse argv = .ok c ↔
      ∃ l : Layout, l.WellFormed ∧ l.arguments = argv ∧ Gives l.positionals l.seeds c) ∧
    ∀ l : Layout, l.WellFormed → l.arguments = argv →
      (parse argv = .ok c ↔ Gives l.positionals l.seeds c) := by
  refine ⟨⟨fun h => ?_, ?_⟩, ?_⟩
  · obtain ⟨k, hk⟩ := parse_eq_ok_iff_outcome.1 h
    obtain ⟨l, hl, rfl⟩ := exists_layout_of_outcome hk
    exact ⟨l, hl, rfl, (parse_arguments_iff hl).1 h⟩
  · rintro ⟨l, hl, rfl, hc⟩
    exact (parse_arguments_iff hl).2 hc
  · rintro l hl rfl
    exact parse_arguments_iff hl

example :
    parse [Utf8.encode "5", Utf8.encode "--seed=+7", Utf8.encode "--", Utf8.encode "--seed"] =
      .ok ⟨5, Utf8.encode "--seed", some 7⟩ := by cbv

end SyntheticLog.CommandLine
