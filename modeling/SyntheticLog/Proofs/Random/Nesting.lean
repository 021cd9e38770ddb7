import SyntheticLog.Random.Recipe
import SyntheticLog.Proofs.Random.Loops

/-!
# Nested recipes

A recipe is some `maybe`s around a base. Its coins are flipped first, from the outside in, and the
base draws only behind a row of heads; so a base that is bound to stop leaves the source right
behind the coins.

* `Flips`: the words that a source hands out are those of some coins.
* `Recipe.outcome`: what comes of a recipe when a stop is caught.
* `Recipe.depth`, `Recipe.base`: the `maybe`s of a recipe, and what they stand around.
* `outcome_nested_of_tails`, `outcome_nested_of_heads`: the outcome by the coins.
* `outcome_eq_error_iff`: where a recipe stops before the end of the source.
* `drawAll_nested`: all of this for a recipe anywhere in a row.
-/

set_option autoImplicit false

namespace SyntheticLog.Random

/-! ## Coins -/

/-- The coins that words make, two words a coin. -/
def coins : List UInt32 → List Bool
  | low :: high :: ws =>
    decide (2 * (low.toNat + Size.word32.card * high.toNat) < Size.word64.card) :: coins ws
  | _ => []

variable {σ : Type} [WordSource σ]

/-- The source hands out the words of these coins and is then the second one. -/
def Flips (s : σ) (bs : List Bool) (t : σ) : Prop :=
  ∃ ws, ws.length = 2 * bs.length ∧ coins ws = bs ∧ Hands s ws t

theorem flips_nil_iff {s t : σ} : Flips s [] t ↔ t = s := by
  constructor
  · intro h
    obtain ⟨ws, hlength, -, hwords⟩ := h
    obtain rfl := List.length_eq_zero_iff.1 hlength
    exact hands_nil_iff.1 hwords
  · intro h
    rw [h]
    exact ⟨[], rfl, rfl, .nil s⟩

theorem coinFlip_eq_ok_iff_hands {s t : σ} {b : Bool} :
    coinFlip s = .ok b t ↔ ∃ low high, Hands s [low, high] t ∧ coins [low, high] = [b] := by
  simp only [coinFlip, bits, bind_eq_ok_iff, pure_eq_ok_iff, word_eq_ok_iff]
  constructor
  · intro h
    obtain ⟨v, r, ⟨low, s₁, hlow, high, s₂, hhigh, rfl, rfl⟩, rfl, rfl⟩ := h
    exact ⟨low, high, hands_append_iff.2 ⟨s₁, hlow, hhigh⟩, rfl⟩
  · intro h
    obtain ⟨low, high, hwords, hcoin⟩ := h
    rw [← List.singleton_append] at hwords
    obtain ⟨s₁, hlow, hhigh⟩ := hands_append_iff.1 hwords
    exact ⟨_, t, ⟨low, s₁, hlow, high, t, hhigh, rfl, rfl⟩, (List.cons.inj hcoin).1, rfl⟩

theorem flips_cons_iff {s u : σ} {b : Bool} {bs : List Bool} :
    Flips s (b :: bs) u ↔ ∃ t, coinFlip s = .ok b t ∧ Flips t bs u := by
  simp only [coinFlip_eq_ok_iff_hands]
  constructor
  · intro h
    obtain ⟨ws, hlength, hcoins, hwords⟩ := h
    match ws with
    | low :: high :: ws =>
      obtain ⟨hfirst, hrest⟩ := List.cons.inj hcoins
      have hsplit : Hands s ([low, high] ++ ws) u := hwords
      obtain ⟨t, hcoin, htail⟩ := hands_append_iff.1 hsplit
      refine ⟨t, ⟨low, high, hcoin, congrArg (fun b => [b]) hfirst⟩, ws, ?_, hrest, htail⟩
      simp only [List.length_cons] at hlength
      omega
    | [] => cases hcoins
    | [w] => cases hcoins
  · intro h
    obtain ⟨t, ⟨low, high, hcoin, hfirst⟩, ws, hlength, rfl, htail⟩ := h
    refine ⟨low :: high :: ws, ?_, ?_, hands_append_iff.2 ⟨t, hcoin, htail⟩⟩
    · simp only [List.length_cons]
      omega
    · rw [coins, (List.cons.inj hfirst).1]

/-! ## Ranges -/

/-- Bounds in order are enough for a draw to go on to the end of the source, in any type. -/
theorem gives_intRange_of_le {t : IntType} {low high : Int} (hle : low ≤ high) :
    Gives (intRange t low high : Draw σ Int) fun _ => True := by
  rw [intRange, if_neg (by omega)]
  split
  · exact (gives_bits t.width.size).bind fun v _ => gives_pure trivial
  · have hplaced : Gives (firstPlaced t.width.size (place? t.width (t.span low high)) : Draw σ Nat)
        fun _ => True := gives_firstPlaced fun v k hv hk => trivial
    exact hplaced.bind fun k _ => gives_pure trivial

/-! ## Outcomes -/

/-- The value that came through that many heads. -/
def Value.wrapped : Nat → Value → Value
  | 0, v => v
  | d + 1, v => .present (wrapped d v)

namespace Recipe

/-- What comes of a recipe when a stop is caught, and the source behind it. -/
def outcome (r : Recipe) (s : σ) : Except Stop Value × σ :=
  match r.draw s with
  | .ok v t => (.ok v, t)
  | .error e t => (.error e, t)

theorem drawAll_cons (r : Recipe) (rs : List Recipe) (s : σ) :
    drawAll (r :: rs) s =
      ((r.outcome s).1 :: (drawAll rs (r.outcome s).2).1, (drawAll rs (r.outcome s).2).2) := by
  rw [drawAll, outcome]
  cases r.draw s <;> rfl

theorem drawAll_append (rs rs' : List Recipe) (s : σ) :
    drawAll (rs ++ rs') s =
      ((drawAll rs s).1 ++ (drawAll rs' (drawAll rs s).2).1, (drawAll rs' (drawAll rs s).2).2) := by
  induction rs generalizing s with
  | nil => rfl
  | cons r rs ih => rw [List.cons_append, drawAll_cons, drawAll_cons, ih, List.cons_append]

theorem map_eq_error_iff {o : Except Stop Value} {f : Value → Value} {e : Stop} :
    o.map f = .error e ↔ o = .error e := by
  cases o <;> simp [Except.map]

section Coin
variable {s t : σ} {b : Bool} {e : Stop}

theorem outcome_coinFlip (h : Random.coinFlip s = .ok b t) :
    outcome .coinFlip s = (.ok (.flag b), t) := by
  simp only [outcome, draw, bind, EStateM.bind, h]
  rfl

theorem outcome_maybe_of_tails (h : Random.coinFlip s = .ok false t) (inner : Recipe) :
    outcome (.maybe inner) s = (.ok .absent, t) := by
  simp only [outcome, draw, Random.maybe, bind, EStateM.bind, h]
  rfl

theorem outcome_maybe_of_heads (h : Random.coinFlip s = .ok true t) (inner : Recipe) :
    outcome (.maybe inner) s = ((inner.outcome t).1.map .present, (inner.outcome t).2) := by
  simp only [outcome, draw, Random.maybe, bind, EStateM.bind, h, if_pos]
  cases inner.draw t <;> rfl

theorem outcome_maybe_of_error (h : Random.coinFlip s = .error e t) (inner : Recipe) :
    outcome (.maybe inner) s = (.error e, t) := by
  simp only [outcome, draw, Random.maybe, bind, EStateM.bind, h]

end Coin

/-- Recipes that flip coins give the coins. -/
theorem drawAll_replicate_coinFlip {s t : σ} {bs : List Bool} (h : Flips s bs t) :
    drawAll (List.replicate bs.length .coinFlip) s = (bs.map fun b => .ok (.flag b), t) := by
  induction bs generalizing s with
  | nil =>
    obtain rfl := flips_nil_iff.1 h
    rfl
  | cons b bs ih =>
    obtain ⟨u, hcoin, hrest⟩ := flips_cons_iff.1 h
    rw [List.length_cons, List.replicate_succ, drawAll_cons, outcome_coinFlip hcoin, ih hrest,
      List.map_cons]

/-! ## Nesting -/

/-- The number of `maybe`s around the base. -/
def depth : Recipe → Nat
  | .maybe inner => inner.depth + 1
  | _ => 0

/-- The recipe inside of all `maybe`s. -/
def base : Recipe → Recipe
  | .maybe inner => inner.base
  | r => r

/-- The recipe inside of that many `maybe`s. -/
def nested : Nat → Recipe → Recipe
  | 0, r => r
  | d + 1, r => .maybe (nested d r)

theorem nested_depth_base (r : Recipe) : nested r.depth r.base = r := by
  induction r with
  | coinFlip => rfl
  | intRange t low high => rfl
  | oneOf pool => rfl
  | maybe inner ih => rw [depth, base, nested, ih]

/-- The stop of a base that cannot draw: its bounds are in the wrong order, or its pool is empty. -/
def fault? : Recipe → Option Stop
  | .intRange _ low high => if high < low then some .emptyRange else none
  | .oneOf pool => if pool = [] then some .emptyPool else none
  | .coinFlip | .maybe _ => none

/-- Coins that end in tails settle the outcome, whatever stands inside. -/
theorem outcome_nested_of_tails {d j : Nat} (hj : j < d) {s t : σ}
    (h : Flips s (List.replicate j true ++ [false]) t) (inner : Recipe) :
    (nested d inner).outcome s = (.ok (.wrapped j .absent), t) := by
  -- The first coin is that of the outermost `maybe`; the others are left to what stands in it.
  induction j generalizing d s with
  | zero =>
    obtain ⟨d, rfl⟩ : ∃ d', d = d' + 1 := ⟨d - 1, by omega⟩
    obtain ⟨u, hcoin, hrest⟩ := flips_cons_iff.1 h
    obtain rfl := flips_nil_iff.1 hrest
    exact outcome_maybe_of_tails hcoin _
  | succ j ih =>
    obtain ⟨d, rfl⟩ : ∃ d', d = d' + 1 := ⟨d - 1, by omega⟩
    rw [List.replicate_succ, List.cons_append] at h
    obtain ⟨u, hcoin, hrest⟩ := flips_cons_iff.1 h
    rw [nested, outcome_maybe_of_heads hcoin, ih (by omega) hrest]
    rfl

/-- Behind as many heads as there are `maybe`s the recipe inside draws. -/
theorem outcome_nested_of_heads {d : Nat} {s t : σ} (h : Flips s (List.replicate d true) t)
    (inner : Recipe) :
    (nested d inner).outcome s = ((inner.outcome t).1.map (.wrapped d), (inner.outcome t).2) := by
  induction d generalizing s with
  | zero =>
    obtain rfl := flips_nil_iff.1 h
    rw [nested]
    cases inner.outcome t with
    | mk o u => cases o <;> rfl
  | succ d ih =>
    rw [List.replicate_succ] at h
    obtain ⟨u, hcoin, hrest⟩ := flips_cons_iff.1 h
    rw [nested, outcome_maybe_of_heads hcoin, ih hrest]
    cases (inner.outcome t).1 <;> rfl

/-- The coins come to tails, or are heads all along, or the source comes to its end in between. -/
theorem exists_flips (d : Nat) (inner : Recipe) (s : σ) :
    (∃ j t, j < d ∧ Flips s (List.replicate j true ++ [false]) t) ∨
      (∃ t, Flips s (List.replicate d true) t) ∨
      ∃ j t u, j < d ∧ Flips s (List.replicate j true) t ∧
        Random.coinFlip t = .error .outOfWords u ∧
        (nested d inner).outcome s = (.error .outOfWords, u) := by
  induction d generalizing s with
  | zero => exact .inr (.inl ⟨s, flips_nil_iff.2 rfl⟩)
  | succ d ih =>
    cases hcoin : Random.coinFlip s with
    | error e u =>
      obtain rfl := gives_coinFlip.error hcoin
      exact .inr (.inr ⟨0, s, u, Nat.succ_pos d, flips_nil_iff.2 rfl, hcoin,
        outcome_maybe_of_error hcoin _⟩)
    | ok b u =>
      cases b with
      | false => exact .inl ⟨0, u, Nat.succ_pos d, flips_cons_iff.2 ⟨u, hcoin, flips_nil_iff.2 rfl⟩⟩
      | true =>
        obtain ⟨j, t, hj, htails⟩ | ⟨t, hheads⟩ | ⟨j, t, t', hj, hheads, hend, hout⟩ := ih u
        · exact .inl ⟨j + 1, t, by omega, flips_cons_iff.2 ⟨u, hcoin, htails⟩⟩
        · exact .inr (.inl ⟨t, flips_cons_iff.2 ⟨u, hcoin, hheads⟩⟩)
        · refine .inr (.inr ⟨j + 1, t, t', by omega, flips_cons_iff.2 ⟨u, hcoin, hheads⟩, hend, ?_⟩)
          rw [nested, outcome_maybe_of_heads hcoin, hout]
          rfl

/-! ## Bases -/

theorem outcome_of_fault {r : Recipe} {e : Stop} (h : r.fault? = some e) (s : σ) :
    r.outcome s = (.error e, s) := by
  cases r with
  | coinFlip => cases h
  | maybe inner => cases h
  | intRange t low high =>
    rw [fault?] at h
    split at h
    · rename_i hempty
      cases h
      simp only [outcome, draw, Random.intRange, if_pos hempty]
      rfl
    · cases h
  | oneOf pool =>
    rw [fault?] at h
    split at h
    · rename_i hempty
      cases h
      rw [hempty]
      rfl
    · cases h

theorem gives_base (r : Recipe) (h : r.base.fault? = none) :
    Gives (r.base.draw : Draw σ Value) fun _ => True := by
  induction r with
  | coinFlip => exact gives_coinFlip.bind fun b _ => gives_pure trivial
  | intRange t low high =>
    change (if high < low then some Stop.emptyRange else none) = none at h
    have hle : low ≤ high := by
      split at h
      · cases h
      · omega
    exact (gives_intRange_of_le hle).bind fun x _ => gives_pure trivial
  | oneOf pool =>
    change (if pool = [] then some Stop.emptyPool else none) = none at h
    have hpool : pool ≠ [] := by
      split at h
      · cases h
      · assumption
    exact (gives_oneOf (List.length_pos_iff.2 hpool)).bind fun x _ => gives_pure trivial
  | maybe inner ih => exact ih h

/-- Before the end of the source a base stops at its first word only, and for its fault. -/
theorem outcome_base_eq_error_iff {r : Recipe} {s t : σ} {e : Stop} (he : e ≠ .outOfWords) :
    r.base.outcome s = (.error e, t) ↔ r.base.fault? = some e ∧ t = s := by
  constructor
  · intro h
    cases hfault : r.base.fault? with
    | some f =>
      rw [outcome_of_fault hfault] at h
      cases h
      exact ⟨rfl, rfl⟩
    | none =>
      rw [outcome] at h
      cases hdraw : r.base.draw s with
      | ok v u =>
        rw [hdraw] at h
        cases h
      | error f u =>
        rw [hdraw] at h
        cases h
        exact absurd ((gives_base r hfault).error hdraw) he
  · intro h
    obtain ⟨hfault, rfl⟩ := h
    exact outcome_of_fault hfault t

/-- A recipe stops before the end of the source where its coins are all heads and its base has a
fault, and right behind the coins. -/
theorem outcome_eq_error_iff {r : Recipe} {s t : σ} {e : Stop} (he : e ≠ .outOfWords) :
    r.outcome s = (.error e, t) ↔
      Flips s (List.replicate r.depth true) t ∧ r.base.fault? = some e := by
  constructor
  · intro h
    rw [← nested_depth_base r] at h
    obtain ⟨j, u, hj, htails⟩ | ⟨u, hheads⟩ | ⟨j, u, u', hj, hheads, hend, hout⟩ :=
      exists_flips r.depth r.base s
    · rw [outcome_nested_of_tails hj htails] at h
      cases h
    · rw [outcome_nested_of_heads hheads] at h
      obtain ⟨ho, ht⟩ := Prod.mk.inj h
      have hbase : r.base.outcome u = (.error e, t) := Prod.ext (map_eq_error_iff.1 ho) ht
      obtain ⟨hfault, rfl⟩ := (outcome_base_eq_error_iff he).1 hbase
      exact ⟨hheads, hfault⟩
    · rw [hout] at h
      cases h
      exact absurd rfl he
  · intro h
    obtain ⟨hheads, hfault⟩ := h
    rw [← nested_depth_base r, outcome_nested_of_heads hheads, outcome_of_fault hfault]
    rfl

/-! ## Rows of recipes -/

/-- The `maybe`s of a recipe flip their coins from the outside in. Tails end it with an absent
value, whatever the base is; behind heads all along the base draws. Before the end of the source a
recipe stops exactly where the coins are heads and the base has a fault, right behind the coins. In
a row of recipes such a stop leaves to those behind it what the coins alone would have left. -/
theorem drawAll_nested (r : Recipe) :
    nested r.depth r.base = r ∧
    (∀ (j : Nat) (s t : σ), j < r.depth → Flips s (List.replicate j true ++ [false]) t →
      r.outcome s = (.ok (.wrapped j .absent), t) ∧
      ∀ inner, (nested r.depth inner).outcome s = r.outcome s) ∧
    (∀ s t : σ, Flips s (List.replicate r.depth true) t →
      r.outcome s = ((r.base.outcome t).1.map (.wrapped r.depth), (r.base.outcome t).2)) ∧
    (∀ s : σ, (∃ j t, j < r.depth ∧ Flips s (List.replicate j true ++ [false]) t) ∨
      (∃ t, Flips s (List.replicate r.depth true) t) ∨
      ∃ j t u, j < r.depth ∧ Flips s (List.replicate j true) t ∧
        Random.coinFlip t = .error .outOfWords u ∧ r.outcome s = (.error .outOfWords, u)) ∧
    (∀ (s t : σ) (e : Stop), e ≠ .outOfWords → (r.outcome s = (.error e, t) ↔
      Flips s (List.replicate r.depth true) t ∧ r.base.fault? = some e)) ∧
    ∀ (before after : List Recipe) (s u t t' : σ) (os os' : List (Except Stop Value))
      (o : Except Stop Value), drawAll before s = (os, u) → r.outcome u = (o, t) →
        drawAll after t = (os', t') →
        drawAll (before ++ r :: after) s = (os ++ o :: os', t') ∧
        ∀ e, o = .error e → e ≠ .outOfWords →
          drawAll (before ++ (List.replicate r.depth .coinFlip ++ after)) s =
            (os ++ (List.replicate r.depth (.ok (.flag true)) ++ os'), t') := by
  refine ⟨nested_depth_base r, ?_, ?_, ?_, fun s t e he => outcome_eq_error_iff he, ?_⟩
  · intro j s t hj htails
    have hout : r.outcome s = (.ok (.wrapped j .absent), t) := by
      simpa only [nested_depth_base] using outcome_nested_of_tails hj htails r.base
    refine ⟨hout, fun inner => ?_⟩
    rw [hout, outcome_nested_of_tails hj htails]
  · intro s t hheads
    simpa only [nested_depth_base] using outcome_nested_of_heads hheads r.base
  · intro s
    simpa only [nested_depth_base] using exists_flips r.depth r.base s
  · intro before after s u t t' os os' o hbefore hout hafter
    constructor
    · rw [drawAll_append, hbefore, drawAll_cons, hout, hafter]
    · intro e ho he
      rw [ho] at hout
      -- such a stop tells that all coins were heads, which is what the coins in its place give
      obtain ⟨hheads, -⟩ := (outcome_eq_error_iff he).1 hout
      have hcoins := drawAll_replicate_coinFlip hheads
      rw [List.length_replicate, List.map_replicate] at hcoins
      rw [drawAll_append, hbefore, drawAll_append, hcoins, hafter]

/-- Behind one head the pool is empty, and the next coin is tails. -/
example :
    drawAll [.maybe (.oneOf []), .maybe (.oneOf [])] ([0, 0, 5, 4294967295, 7] : List UInt32) =
      ([.error .emptyPool, .ok .absent], [7]) := by
  cbv

end Recipe

end SyntheticLog.Random
