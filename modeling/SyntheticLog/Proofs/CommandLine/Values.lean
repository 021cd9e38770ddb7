import SyntheticLog.Proofs.CommandLine.Digits
import SyntheticLog.Proofs.CommandLine.Halts
import SyntheticLog.Proofs.CommandLine.Layouts

/-!
# Numbers in their places

A number is checked when the next argument comes, or at the end. If all other values are right then
nothing else is refused before that, so the verdict on the number is the verdict on the command
line.

* `Scan.refused_rest`: a scan that holds back a wrong value refuses it, whatever follows.
* `Gives.exists_prefix`: what stands before a value is right if the whole is.
* `numbers_read`: the verdict on a text that is given as a number.
-/

set_option autoImplicit false

namespace SyntheticLog.CommandLine

/-! ## Wrong values held back -/

namespace Scan

variable {s : Scan} {r : Refusal}

theorem refused_positional (h : s.settle = .error r) (hk : s.positionals < 2) (text : Bytes) :
    s.positional text = .error (.refused r) := by
  rcases positional_of_error h text with hrefused | ⟨hextra, -⟩
  · exact hrefused
  · omega

theorem settle_ended_of_error (h : s.settle = .error r) (ended : Bool) :
    settle { s with ended := ended } = .error r := by
  rw [settle_ended, h]
  rfl

theorem settle_rowCount_of_error {text : Bytes} (h : s.pending = some (.rowCount text))
    (hnumber : number .rowCount text = .error r) : s.settle = .error r := by
  rw [settle, h]
  simp only [hnumber]
  rfl

theorem settle_seed_of_error {text : Bytes} (h : s.pending = some (.seed (some text)))
    (hs : Argument.seed ∉ s.started) (hnumber : number .seed text = .error r) :
    s.settle = .error r := by
  rw [settle, h]
  simp only [hnumber, if_neg hs]
  rfl

theorem foldlM_bind_of_error {first rest : List Bytes} {h : Halt}
    (hfirst : first.foldlM step s = .error h) :
    ((first ++ rest).foldlM step s >>= finish) = .error h := by
  rw [List.foldlM_append, hfirst]
  rfl

theorem refused_texts (h : s.settle = .error r) (hended : s.ended = true) {texts : List Bytes}
    (hk : s.positionals + texts.length ≤ 2) :
    (texts.foldlM step s >>= finish) = .error (.refused r) := by
  cases texts with
  | nil => exact finish_of_error h
  | cons text texts =>
    rw [List.length_cons] at hk
    rw [List.foldlM_cons, step_ended hended, refused_positional h (by omega)]
    rfl

end Scan

namespace Item

open Scan

theorem foldlM_of_error (item : Item) {s : Scan} {r : Refusal} (hs : s.Ready)
    (hitem : item.WellFormed) (h : s.settle = .error r)
    (hk : s.positionals + (item.given.positional?.toList).length ≤ 2) :
    item.arguments.foldlM step s = .error (.refused r) := by
  cases item with
  | positional text =>
    rw [arguments, foldlM_step_singleton, step_plain hs.running hs.complete hitem]
    exact refused_positional h (Nat.lt_of_succ_le hk) text
  | spaced text => exact foldlM_spaced_of_error hs h
  | joined text =>
    rw [arguments, foldlM_step_singleton, step_seedEquals hs.running]
    exact seedFlag_of_error h (some text)

end Item

namespace Layout

theorem positionals_eq (l : Layout) :
    l.positionals = l.items.filterMap (·.given.positional?) ++ l.rest.getD [] := by
  rw [positionals, givens, List.filterMap_append, List.filterMap_map, List.filterMap_map]
  congr 1
  exact List.filterMap_some

theorem seeds_eq (l : Layout) : l.seeds = l.items.filterMap (·.given.seed?) := by
  rw [seeds, givens, List.filterMap_append, List.filterMap_map, List.filterMap_map]
  have hnone : (l.rest.getD []).filterMap (Given.seed? ∘ Given.positional) = [] :=
    List.filterMap_eq_nil_iff.2 fun text htext => rfl
  rw [hnone, List.append_nil]
  rfl

end Layout

/-- Whatever follows, if it is not too much, the value that is held back is refused. -/
theorem Scan.refused_rest {s : Scan} {r : Refusal} {l : Layout} (hl : l.WellFormed) (hs : s.Ready)
    (h : s.settle = .error r) (hk : s.positionals + l.positionals.length ≤ 2) :
    (l.arguments.foldlM step s >>= finish) = .error (.refused r) := by
  rw [Layout.positionals_eq, List.length_append] at hk
  obtain ⟨items, rest⟩ := l
  cases items with
  | nil =>
    cases rest with
    | none => exact finish_of_error h
    | some texts =>
      change ((Utf8.encode "--" :: texts).foldlM step s >>= finish) = _
      rw [List.foldlM_cons, step_dashes hs.running]
      refine refused_texts (settle_ended_of_error h true) rfl ?_
      simpa using hk
  | cons item items =>
    have hitem := (List.forall_mem_cons.1 hl).1
    change ((Layout.cons item ⟨items, rest⟩).arguments.foldlM step s >>= finish) = _
    rw [Layout.arguments_cons]
    refine foldlM_bind_of_error (item.foldlM_of_error hs hitem h ?_)
    rw [List.filterMap_cons] at hk
    cases hgiven : item.given.positional? with
    | none =>
      show s.positionals + 0 ≤ 2
      omega
    | some text =>
      simp only [hgiven, List.length_cons] at hk
      show s.positionals + 1 ≤ 2
      omega

/-! ## Right values before -/

theorem Gives.exists_prefix {positionals seeds ps ss : List Bytes} {c : Config}
    (h : Gives positionals seeds c) (hps : ps <+: positionals) (hss : ss <+: seeds) :
    ∃ d, Gives ps ss d := by
  obtain ⟨hpositionals, hseeds, hrow, hpath, hseed⟩ := h
  obtain ⟨ps', rfl⟩ := hps
  obtain ⟨ss', rfl⟩ := hss
  rw [List.length_append] at hpositionals hseeds
  have hrow' : ∃ n, GivesRowCount ps n := by
    cases ps with
    | nil => exact ⟨_, rfl⟩
    | cons text ps => exact ⟨_, hrow⟩
  have hpath' : ∃ path, GivesFilePath ps path := by
    match ps with
    | [] => exact ⟨_, rfl⟩
    | [_] => exact ⟨_, rfl⟩
    | _ :: _ :: _ => exact ⟨_, hpath⟩
  have hseed' : ∃ seed, GivesSeed ss seed := by
    cases ss with
    | nil => exact ⟨_, rfl⟩
    | cons text ss => exact ⟨_, hseed⟩
  obtain ⟨n, hn⟩ := hrow'
  obtain ⟨path, hpath'⟩ := hpath'
  obtain ⟨seed, hseed'⟩ := hseed'
  exact ⟨⟨n, path, seed⟩, by omega, by omega, hn, hpath', hseed'⟩

namespace Scan

theorem ready_items {items : List Item} {s t : Scan} (hitems : ∀ item ∈ items, item.WellFormed)
    (hs : s.Ready) (h : (items.flatMap Item.arguments).foldlM step s = .ok t) : t.Ready := by
  induction items generalizing s with
  | nil =>
    cases h
    exact hs
  | cons item items ih =>
    obtain ⟨hitem, hitems⟩ := List.forall_mem_cons.1 hitems
    rw [List.flatMap_cons, List.foldlM_append] at h
    cases hrun : item.arguments.foldlM step s with
    | error e =>
      rw [hrun] at h
      cases h
    | ok u =>
      rw [hrun] at h
      exact ih hitems (item.ready_run hs hitem hrun) h

/-- Items with right values are read, and their values settle. -/
theorem exists_settled {items : List Item} {d : Config} (hitems : ∀ item ∈ items, item.WellFormed)
    (hd : Gives (items.filterMap (·.given.positional?)) (items.filterMap (·.given.seed?)) d) :
    ∃ s t, (items.flatMap Item.arguments).foldlM step start = .ok s ∧ s.Ready ∧ s.settle = .ok t ∧
      s.positionals = (items.filterMap (·.given.positional?)).length ∧ t.config = d := by
  have hpositionals : Layout.positionals ⟨items, none⟩ = items.filterMap (·.given.positional?) := by
    rw [Layout.positionals_eq]
    exact List.append_nil _
  have hgives : Gives (Layout.positionals ⟨items, none⟩) (Layout.seeds ⟨items, none⟩) d := by
    rw [hpositionals, Layout.seeds_eq]
    exact hd
  have harguments : Layout.arguments ⟨items, none⟩ = items.flatMap Item.arguments :=
    List.append_nil _
  have houtcome : outcome ((items.flatMap Item.arguments).foldlM step start) =
      some ((items.filterMap (·.given.positional?)).length, d) := by
    rw [← harguments, outcome_layout (l := ⟨items, none⟩) hitems ready_start]
    exact foldlM_supply_eq_some_iff.2 ⟨congrArg List.length hpositionals.symm, hgives⟩
  cases hrun : (items.flatMap Item.arguments).foldlM step start with
  | error e =>
    rw [hrun] at houtcome
    cases houtcome
  | ok s =>
    rw [hrun] at houtcome
    change s.reading? = _ at houtcome
    cases hsettle : s.settle with
    | error r =>
      rw [reading?_of_error hsettle] at houtcome
      cases houtcome
    | ok t =>
      rw [reading?_of_ok hsettle, Option.some.injEq, Prod.mk.injEq] at houtcome
      exact ⟨s, t, rfl, ready_items hitems ready_start hrun, hsettle, houtcome⟩

theorem positional_first {s t : Scan} (h : s.settle = .ok t) (hk : s.positionals = 0) (text : Bytes) :
    s.positional text = .ok { t with pending := some (.rowCount text), positionals := 1 } := by
  rw [positional, hk, check_of_ok h]
  rfl

end Scan

/-! ## Wrong numbers -/

section Wrong
variable {l : Layout} {text : Bytes} {c : Config} {r : Refusal}

open Scan

theorem parse_middle {before after : List Item} {rest : Option (List Bytes)} {s : Scan} (item : Item)
    (hrun : (before.flatMap Item.arguments).foldlM step start = .ok s) :
    parse (Layout.arguments ⟨before ++ item :: after, rest⟩) =
      ((item.arguments ++ Layout.arguments ⟨after, rest⟩).foldlM step s >>= finish) := by
  have hsplit : Layout.arguments ⟨before ++ item :: after, rest⟩ =
      before.flatMap Item.arguments ++ (item.arguments ++ Layout.arguments ⟨after, rest⟩) := by
    simp only [Layout.arguments, List.flatMap_append, List.flatMap_cons, List.append_assoc]
  rw [hsplit, parse, List.foldlM_append, hrun]
  rfl

theorem refused_item {item : Item} {s u : Scan} (hitem : item.WellFormed) (hl : l.WellFormed)
    (hs : s.Ready) (hrun : item.arguments.foldlM step s = .ok u) (h : u.settle = .error r)
    (hk : u.positionals + l.positionals.length ≤ 2) :
    ((item.arguments ++ l.arguments).foldlM step s >>= finish) = .error (.refused r) := by
  rw [List.foldlM_append, hrun]
  exact refused_rest hl (item.ready_run hs hitem hrun) h hk

theorem parse_of_rowCount_behind {items : List Item} {more : List Bytes}
    (hl : ∀ item ∈ items, item.WellFormed) (hnone : items.filterMap (·.given.positional?) = [])
    (hc : Gives (Utf8.encode "0" :: more) (items.filterMap (·.given.seed?)) c)
    (hr : number .rowCount text = .error r) :
    parse (Layout.arguments ⟨items, some (text :: more)⟩) = .error (.refused r) := by
  have hlength := hc.length_positionals
  rw [List.length_cons] at hlength
  obtain ⟨d, hd⟩ := hc.exists_prefix List.nil_prefix (List.prefix_refl _)
  rw [← hnone] at hd
  obtain ⟨s, t, hrun, hs, hsettle, hk, -⟩ := exists_settled hl hd
  rw [hnone] at hk
  have hended : settle { s with ended := true } = .ok { t with ended := true } := by
    rw [settle_ended, hsettle]
    rfl
  rw [parse, Layout.arguments, List.foldlM_append, hrun]
  change ((Utf8.encode "--" :: text :: more).foldlM step s >>= finish) = _
  rw [List.foldlM_cons, step_dashes hs.running]
  change ((text :: more).foldlM step { s with ended := true } >>= finish) = _
  rw [List.foldlM_cons, step_ended rfl, positional_first hended hk]
  refine refused_texts (settle_rowCount_of_error rfl hr) rfl ?_
  show 1 + more.length ≤ 2
  omega

theorem parse_of_rowCount_item {items : List Item} {rest : Option (List Bytes)}
    {others : List Bytes} (hl : ∀ item ∈ items, item.WellFormed)
    (hfirst : items.filterMap (·.given.positional?) = text :: others)
    (hc : Gives (Utf8.encode "0" :: (others ++ rest.getD [])) (items.filterMap (·.given.seed?)) c)
    (hr : number .rowCount text = .error r) :
    parse (Layout.arguments ⟨items, rest⟩) = .error (.refused r) := by
  have hlength := hc.length_positionals
  rw [List.length_cons] at hlength
  obtain ⟨before, item, after, rfl, hbefore, hitem, hafter⟩ := List.filterMap_eq_cons_iff.1 hfirst
  obtain ⟨hwell, hwell'⟩ := List.forall_mem_append.1 hl
  obtain ⟨hplain, hafter'⟩ := List.forall_mem_cons.1 hwell'
  have hnone : before.filterMap (·.given.positional?) = [] := List.filterMap_eq_nil_iff.2 hbefore
  have hbegins := (List.prefix_append before (item :: after)).filterMap (·.given.seed?)
  obtain ⟨d, hd⟩ := hc.exists_prefix List.nil_prefix hbegins
  rw [← hnone] at hd
  obtain ⟨s, t, hrun, hs, hsettle, hk, -⟩ := exists_settled hwell hd
  rw [hnone] at hk
  rw [parse_middle item hrun]
  cases item with
  | spaced value => cases hitem
  | joined value => cases hitem
  | positional value =>
    cases hitem
    have hstep : (Item.positional text).arguments.foldlM step s =
        .ok { t with pending := some (.rowCount text), positionals := 1 } := by
      rw [Item.arguments, Item.foldlM_step_singleton, step_plain hs.running hs.complete hplain]
      exact positional_first hsettle hk text
    refine refused_item (l := ⟨after, rest⟩) hplain hafter' hs hstep
      (settle_rowCount_of_error rfl hr) ?_
    rw [Layout.positionals_eq, hafter]
    show 1 + _ ≤ 2
    rw [Nat.add_comm]
    exact hlength

/-- The row count is the first positional argument, before two dashes or behind them. -/
theorem parse_of_rowCount_error {more : List Bytes} (hl : l.WellFormed)
    (hmore : l.positionals = text :: more) (hc : Gives (Utf8.encode "0" :: more) l.seeds c)
    (hr : number .rowCount text = .error r) : parse l.arguments = .error (.refused r) := by
  rw [l.seeds_eq] at hc
  rw [l.positionals_eq] at hmore
  obtain ⟨items, rest⟩ := l
  cases hfirst : items.filterMap (·.given.positional?) with
  | nil =>
    rw [hfirst] at hmore
    cases rest with
    | none => cases hmore
    | some texts =>
      obtain rfl : texts = text :: more := hmore
      exact parse_of_rowCount_behind hl hfirst hc hr
  | cons first others =>
    rw [hfirst] at hmore
    obtain ⟨rfl, rfl⟩ := List.cons.inj hmore
    exact parse_of_rowCount_item hl hfirst hc hr

theorem parse_of_seed_error (hl : l.WellFormed) (hseeds : l.seeds = [text])
    (hc : Gives l.positionals [Utf8.encode "0"] c) (hr : number .seed text = .error r) :
    parse l.arguments = .error (.refused r) := by
  have hlength := hc.length_positionals
  rw [l.positionals_eq] at hc hlength
  rw [l.seeds_eq] at hseeds
  obtain ⟨items, rest⟩ := l
  obtain ⟨before, item, after, rfl, hbefore, hitem, hafter⟩ := List.filterMap_eq_cons_iff.1 hseeds
  obtain ⟨hwell, hwell'⟩ := List.forall_mem_append.1 hl
  obtain ⟨hitem', hafter'⟩ := List.forall_mem_cons.1 hwell'
  have hnil : before.filterMap (·.given.seed?) = [] := List.filterMap_eq_nil_iff.2 hbefore
  have hbegins := (List.prefix_append before (item :: after)).filterMap (·.given.positional?)
  obtain ⟨d, hd⟩ := hc.exists_prefix (hbegins.trans (List.prefix_append _ _)) List.nil_prefix
  have hnone : d.seed = none := hd.seed
  rw [← hnil] at hd
  obtain ⟨s, t, hrun, hs, hsettle, hk, rfl⟩ := exists_settled hwell hd
  obtain ⟨-, hpositionals, -, hsound⟩ := settle_ok hsettle hs.sound
  have hnew : Argument.seed ∉ t.started := by
    intro hmem
    have hsome : t.seed.isSome = true := hsound.1 hmem
    rw [show t.seed = none from hnone] at hsome
    cases hsome
  rw [parse_middle item hrun]
  cases item with
  | positional value => cases hitem
  | spaced value =>
    cases hitem
    refine refused_item (l := ⟨after, rest⟩) hitem' hafter' hs
      (Item.foldlM_spaced_of_ok hs hitem' hsettle) (settle_seed_of_error rfl hnew hr) ?_
    show t.positionals + _ ≤ 2
    rw [hpositionals, hk, Layout.positionals_eq]
    simp only [List.filterMap_append, List.length_append] at hlength ⊢
    rw [← Nat.add_assoc]
    exact hlength
  | joined value =>
    cases hitem
    refine foldlM_bind_of_error ?_
    rw [Item.arguments, Item.foldlM_step_singleton, step_seedEquals hs.running, seedFlag,
      check_of_ok hsettle]
    exact check_of_error (settle_seed_of_error rfl hnew hr)

end Wrong

/-! ## Numbers on command lines -/

/-- A text that is given as a number gets its verdict from its first digits and their value, and the
texts of a number are read as that number. If zero in its place would give a configuration, then the
verdict is that on the command line. -/
theorem numbers_read (text : Bytes) :
    (∀ argument, Scan.number argument text = Number.verdict argument text) ∧
    (∀ argument n,
      Scan.number argument text = .ok n ↔ n < Number.limit ∧ Number.Spells text n) ∧
    (∀ (l : Layout) (more : List Bytes) (c : Config), l.WellFormed → l.positionals = text :: more →
      Gives (Utf8.encode "0" :: more) l.seeds c →
        parse l.arguments =
          match Number.verdict .rowCount text with
          | .ok n => .ok { c with rowCount := n }
          | .error r => .error (.refused r)) ∧
    ∀ (l : Layout) (c : Config), l.WellFormed → l.seeds = [text] →
      Gives l.positionals [Utf8.encode "0"] c →
        parse l.arguments =
          match Number.verdict .seed text with
          | .ok n => .ok { c with seed := some (UInt64.ofNat n) }
          | .error r => .error (.refused r) := by
  refine ⟨fun argument => Number.number_eq_verdict argument text, ?_, ?_, ?_⟩
  · intro argument n
    rw [Scan.number_eq_ok_iff, Number.denotes_iff]
  · intro l more c hl hmore hc
    cases hverdict : Number.verdict .rowCount text with
    | error r =>
      rw [← Number.number_eq_verdict] at hverdict
      exact parse_of_rowCount_error hl hmore hc hverdict
    | ok n =>
      rw [← Number.number_eq_verdict, Scan.number_eq_ok_iff] at hverdict
      rw [parse_arguments_iff hl, hmore]
      have hpath : GivesFilePath (text :: more) c.filePath := by
        cases more with
        | nil => exact hc.filePath
        | cons path more => exact hc.filePath
      exact ⟨hc.length_positionals, hc.length_seeds, hverdict, hpath, hc.seed⟩
  · intro l c hl hseeds hc
    cases hverdict : Number.verdict .seed text with
    | error r =>
      rw [← Number.number_eq_verdict] at hverdict
      exact parse_of_seed_error hl hseeds hc hverdict
    | ok n =>
      rw [← Number.number_eq_verdict, Scan.number_eq_ok_iff] at hverdict
      rw [parse_arguments_iff hl, hseeds]
      refine ⟨hc.length_positionals, Nat.le_refl 1, hc.rowCount, hc.filePath, _, rfl, ?_⟩
      rw [UInt64.toNat_ofNat_of_lt' hverdict.lt_limit]
      exact hverdict

example :
    parse [Utf8.encode "--seed=18446744073709551616x"] =
      .error (.refused (.invalidNumber .seed (Utf8.encode "18446744073709551616x") .overflow)) := by
  cbv

end SyntheticLog.CommandLine
