import SyntheticLog.Proofs.Generator.Fairness
import SyntheticLog.Proofs.Generator.Uses
import SyntheticLog.Proofs.Random.Offsets

/-!
# The words that records take

The way to a record is a row of rolls: numbers tried by loops, and coins. Records take the words of
their rolls and nothing else.

* `Roll`, `Loop`: what is drawn, and which loop tries it.
* `RecordRolls`: the rolls of one record.
* `draw_eq_ok_iff`: a record is drawn where the words of its rolls are handed out.
* `builds_eq_ok_iff`: the same for records that are built one after the other.
-/

set_option autoImplicit false

namespace SyntheticLog

open SyntheticLog.Random

/-! ## Rolls -/

/-- The loops on the way to a record. -/
inductive Loop
  | time
  | event
  | message
  | count
  deriving DecidableEq, Repr

namespace Loop

def width : Loop → Width
  | .time | .event | .message => .w64
  | .count => .w32

/-- The number of places of a loop. -/
def places : Loop → Nat
  | .time => Record.times
  | .event => Record.events.length
  | .message => Record.messages.length
  | .count => Record.counts

def place? (l : Loop) (v : Nat) : Option Nat := Random.place? l.width l.places v

/-- The loop draws `v` again. -/
def Drops (l : Loop) (v : Nat) : Prop := v < l.width.size.card ∧ l.place? v = none

/-- The loop tries these numbers and keeps the last, which has place `k`. -/
def Keeps (l : Loop) (vs : List Nat) (k : Nat) : Prop := Tries l.width.size l.place? vs k

end Loop

/-- A number that is drawn on the way to a record. -/
inductive Roll
  | coin (v : Nat)
  | attempt (l : Loop) (v : Nat)
  deriving DecidableEq, Repr

namespace Roll

def words : Roll → List UInt32
  | .coin v => Size.word64.words v
  | .attempt l v => l.width.size.words v

/-- The number of attempts of a loop. -/
def attempts (l : Loop) : List Roll → Nat
  | [] => 0
  | .coin _ :: es => attempts l es
  | .attempt l' _ :: es => (if l' = l then 1 else 0) + attempts l es

theorem attempts_append (l : Loop) (es fs : List Roll) :
    attempts l (es ++ fs) = attempts l es + attempts l fs := by
  induction es with
  | nil => simp [attempts]
  | cons e es ih =>
    cases e with
    | coin v => simp [attempts, ih]
    | attempt l' v =>
      simp only [List.cons_append, attempts, ih]
      omega

theorem attempts_map (l l' : Loop) (vs : List Nat) :
    attempts l (vs.map (attempt l')) = if l' = l then vs.length else 0 := by
  induction vs with
  | nil => simp [attempts]
  | cons v vs ih =>
    simp only [List.map_cons, attempts, ih, List.length_cons]
    split <;> omega

theorem flatMap_words_map (l : Loop) (vs : List Nat) :
    (vs.map (attempt l)).flatMap words = vs.flatMap l.width.size.words := by
  rw [List.flatMap_map]
  rfl

end Roll

/-! ## The rolls of a record -/

/-- The rolls of a coin and, on heads, of a loop. -/
inductive MaybeRolls (l : Loop) : List Roll → Option Nat → Prop
  | tails {v : Nat} (bound : v < Size.word64.card) (tails : ¬2 * v < Size.word64.card) :
    MaybeRolls l [.coin v] none
  | heads {v k : Nat} {vs : List Nat} (bound : v < Size.word64.card)
    (heads : 2 * v < Size.word64.card) (keeps : l.Keeps vs k) :
    MaybeRolls l (.coin v :: vs.map (.attempt l)) (some k)

inductive RecordRolls : List Roll → Record → Prop
  | mk {ts es : List Nat} {ms cs : List Roll} {time event : Nat} {message count : Option Nat}
    (times : Loop.time.Keeps ts time) (events : Loop.event.Keeps es event)
    (messages : MaybeRolls .message ms message) (counts : MaybeRolls .count cs count) :
    RecordRolls (ts.map (.attempt .time) ++ (es.map (.attempt .event) ++ (ms ++ cs)))
      (Record.ofPlaces time event message count)

section Draws
variable {σ : Type} [WordSource σ] {s s' : σ}

theorem keeps_iff {l : Loop} {k : Nat} :
    firstPlaced l.width.size (Random.place? l.width l.places) s = .ok k s' ↔
      ∃ vs, l.Keeps vs k ∧ Hands s ((vs.map (Roll.attempt l)).flatMap Roll.words) s' := by
  rw [firstPlaced_eq_ok_iff]
  simp only [Roll.flatMap_words_map]
  rfl

theorem coinFlip_eq_ok_iff {heads : Bool} :
    coinFlip s = .ok heads s' ↔ ∃ v, v < Size.word64.card ∧
      heads = decide (2 * v < Size.word64.card) ∧ Hands s (Size.word64.words v) s' := by
  simp only [coinFlip, bind_eq_ok_iff, pure_eq_ok_iff, bits_eq_ok_iff]
  constructor
  · intro h
    obtain ⟨v, r, ⟨hv, hwords⟩, rfl, rfl⟩ := h
    exact ⟨v, hv, rfl, hwords⟩
  · intro h
    obtain ⟨v, hv, rfl, hwords⟩ := h
    exact ⟨v, s', ⟨hv, hwords⟩, rfl, rfl⟩

theorem maybe_eq_ok_iff {α : Type} {d : Draw σ α} {o : Option α} :
    maybe d s = .ok o s' ↔ ∃ v t, v < Size.word64.card ∧ Hands s (Size.word64.words v) t ∧
      ((2 * v < Size.word64.card ∧ ∃ x, d t = .ok x s' ∧ o = some x) ∨
        (¬2 * v < Size.word64.card ∧ o = none ∧ s' = t)) := by
  simp only [maybe, bind_eq_ok_iff, coinFlip_eq_ok_iff]
  constructor
  · intro h
    obtain ⟨heads, t, ⟨v, hv, rfl, hwords⟩, hrest⟩ := h
    refine ⟨v, t, hv, hwords, ?_⟩
    by_cases hheads : 2 * v < Size.word64.card
    · rw [decide_eq_true hheads, if_pos rfl, bind_eq_ok_iff] at hrest
      obtain ⟨x, r, hx, hpure⟩ := hrest
      obtain ⟨rfl, rfl⟩ := pure_eq_ok_iff.1 hpure
      exact .inl ⟨hheads, x, hx, rfl⟩
    · rw [decide_eq_false hheads, if_neg Bool.false_ne_true] at hrest
      obtain ⟨rfl, rfl⟩ := pure_eq_ok_iff.1 hrest
      exact .inr ⟨hheads, rfl, rfl⟩
  · intro h
    obtain ⟨v, t, hv, hwords, hrest⟩ := h
    refine ⟨_, t, ⟨v, hv, rfl, hwords⟩, ?_⟩
    obtain ⟨hheads, x, hx, rfl⟩ | ⟨hheads, rfl, rfl⟩ := hrest
    · rw [decide_eq_true hheads, if_pos rfl, bind_eq_ok_iff]
      exact ⟨x, s', hx, rfl⟩
    · rw [decide_eq_false hheads, if_neg Bool.false_ne_true]
      rfl

theorem maybeRolls_iff {α : Type} {d : Draw σ α} {l : Loop} {value : Nat → α}
    (hd : d = value <$> firstPlaced l.width.size (Random.place? l.width l.places)) {o : Option α} :
    maybe d s = .ok o s' ↔ ∃ es k?, MaybeRolls l es k? ∧ o = k?.map value ∧
      Hands s (es.flatMap Roll.words) s' := by
  simp only [maybe_eq_ok_iff, hd, map_eq_ok_iff, keeps_iff]
  constructor
  · intro h
    obtain ⟨v, t, hv, hcoin, hrest⟩ := h
    obtain ⟨hheads, x, ⟨k, ⟨vs, hvs, hwords⟩, rfl⟩, rfl⟩ | ⟨htails, rfl, rfl⟩ := hrest
    · exact ⟨_, some k, .heads hv hheads hvs, rfl, hands_append_iff.2 ⟨t, hcoin, hwords⟩⟩
    · refine ⟨_, none, .tails hv htails, rfl, ?_⟩
      rw [List.flatMap_singleton]
      exact hcoin
  · intro h
    obtain ⟨es, k?, hrolls, rfl, hwords⟩ := h
    cases hrolls with
    | @tails v hv htails =>
      rw [List.flatMap_singleton] at hwords
      exact ⟨v, s', hv, hwords, .inr ⟨htails, rfl, rfl⟩⟩
    | @heads v k vs hv hheads hvs =>
      rw [List.flatMap_cons] at hwords
      obtain ⟨t, hcoin, hrest⟩ := hands_append_iff.1 hwords
      exact ⟨v, t, hv, hcoin, .inl ⟨hheads, _, ⟨k, ⟨vs, hvs, hrest⟩, rfl⟩, rfl⟩⟩

theorem offset_eq_map : (intRange Record.offsetType 0 Record.tsMaxOffset : Draw σ Int) =
    (fun k : Nat => 0 + (k : Int)) <$>
      firstPlaced Loop.time.width.size (Random.place? Loop.time.width Loop.time.places) :=
  intRange_of_lt (by decide) (by decide) (by decide) (by decide)

theorem count_eq_map : (intRange Record.countType 0 Record.countMax : Draw σ Int) =
    (fun k : Nat => 0 + (k : Int)) <$>
      firstPlaced Loop.count.width.size (Random.place? Loop.count.width Loop.count.places) :=
  intRange_of_lt (by decide) (by decide) (by decide) (by decide)

theorem event_eq_map : (oneOf Record.events : Draw σ String) = (Record.events.getD · "") <$>
    firstPlaced Loop.event.width.size (Random.place? Loop.event.width Loop.event.places) :=
  oneOf_eq_map (by decide) ""

theorem message_eq_map : (oneOf Record.messages : Draw σ String) = (Record.messages.getD · "") <$>
    firstPlaced Loop.message.width.size (Random.place? Loop.message.width Loop.message.places) :=
  oneOf_eq_map (by decide) ""

theorem ofPlaces_eq (time event : Nat) (message count : Option Nat) :
    (⟨⟨Record.tsBase + (0 + (time : Int)), (count.map fun k : Nat => 0 + (k : Int)).map Int.toNat⟩,
      ⟨Record.events.getD event "", message.map (Record.messages.getD · "")⟩⟩ : Record) =
        Record.ofPlaces time event message count := by
  rw [Record.ofPlaces, Int.zero_add, Option.map_map]
  congr 2
  cases count with
  | none => rfl
  | some k => simp

/-- A record is drawn where the words of its rolls are handed out. -/
theorem draw_eq_ok_iff {r : Record} :
    Record.draw s = .ok r s' ↔ ∃ es, RecordRolls es r ∧ Hands s (es.flatMap Roll.words) s' := by
  simp only [Record.draw, bind_eq_ok_iff, pure_eq_ok_iff, maybeRolls_iff message_eq_map,
    maybeRolls_iff count_eq_map]
  rw [offset_eq_map, event_eq_map]
  simp only [map_eq_ok_iff, keeps_iff]
  constructor
  · intro h
    obtain ⟨_, s₁, ⟨time, ⟨ts, htime, hts⟩, rfl⟩, _, s₂, ⟨event, ⟨es, hevent, hes⟩, rfl⟩, _, s₃,
      ⟨ms, message, hmessage, rfl, hms⟩, _, s₄, ⟨cs, count, hcount, rfl, hcs⟩, rfl, rfl⟩ := h
    rw [ofPlaces_eq]
    refine ⟨_, .mk htime hevent hmessage hcount, ?_⟩
    simp only [List.flatMap_append, hands_append_iff]
    exact ⟨s₁, hts, s₂, hes, s₃, hms, hcs⟩
  · intro h
    obtain ⟨rolls, hrolls, hwords⟩ := h
    cases hrolls with
    | @mk ts es ms cs time event message count htime hevent hmessage hcount =>
      simp only [List.flatMap_append, hands_append_iff] at hwords
      obtain ⟨s₁, hts, s₂, hes, s₃, hms, hcs⟩ := hwords
      exact ⟨_, s₁, ⟨time, ⟨ts, htime, hts⟩, rfl⟩, _, s₂, ⟨event, ⟨es, hevent, hes⟩, rfl⟩, _, s₃,
        ⟨ms, message, hmessage, rfl, hms⟩, _, s', ⟨cs, count, hcount, rfl, hcs⟩,
        ofPlaces_eq time event message count, rfl⟩

end Draws

/-! ## The rolls of many records -/

section Builds
variable {σ : Type} [WordSource σ] {g g' : Generator σ}

theorem build_eq_ok_iff {r : Record} :
    Generator.build g = .ok r g' ↔
      Record.draw g.source = .ok r g'.source ∧ g'.built = g.built + 1 := by
  obtain ⟨s', n'⟩ := g'
  rw [Generator.build]
  cases Record.draw g.source with
  | error e s => simp
  | ok r' s =>
    simp only [EStateM.Result.ok.injEq, Generator.mk.injEq, and_assoc]
    constructor
    · intro h
      exact ⟨h.1, h.2.1, h.2.2.symm⟩
    · intro h
      exact ⟨h.1, h.2.1, h.2.2.symm⟩

/-- Records are built where the words of their rolls are handed out. -/
theorem builds_eq_ok_iff {k : Nat} {rs : List Record} :
    Generator.builds k g = .ok rs g' ↔ ∃ rolls, List.Forall₂ RecordRolls rolls rs ∧ rs.length = k ∧
      Hands g.source (rolls.flatten.flatMap Roll.words) g'.source ∧ g'.built = g.built + k := by
  -- The words are cut behind the first record, where the generator has counted one.
  induction k generalizing g rs with
  | zero =>
    rw [Generator.builds, pure_eq_ok_iff]
    constructor
    · intro h
      obtain ⟨rfl, rfl⟩ := h
      exact ⟨[], .nil, rfl, .nil _, rfl⟩
    · intro h
      obtain ⟨rolls, hrolls, hlength, hwords, hbuilt⟩ := h
      obtain rfl := List.length_eq_zero_iff.1 hlength
      cases hrolls
      obtain ⟨s, n⟩ := g
      obtain ⟨s', n'⟩ := g'
      obtain rfl : s' = s := hands_nil_iff.1 hwords
      obtain rfl : n' = n := hbuilt
      exact ⟨rfl, rfl⟩
  | succ k ih =>
    simp only [Generator.builds_succ, bind_eq_ok_iff, map_eq_ok_iff, build_eq_ok_iff, draw_eq_ok_iff,
      ih]
    constructor
    · intro h
      obtain ⟨r, g₁, ⟨⟨es, hes, hfirst⟩, hone⟩, rs, ⟨rolls, hrolls, rfl, hrest, hbuilt⟩, rfl⟩ := h
      refine ⟨es :: rolls, .cons hes hrolls, rfl, ?_, by omega⟩
      rw [List.flatten_cons, List.flatMap_append]
      exact hands_append_iff.2 ⟨_, hfirst, hrest⟩
    · intro h
      obtain ⟨rolls, hrolls, hlength, hwords, hbuilt⟩ := h
      cases hrolls with
      | nil => cases hlength
      | @cons es r rolls rs hes hrolls =>
        rw [List.flatten_cons, List.flatMap_append] at hwords
        obtain ⟨t, hfirst, hrest⟩ := hands_append_iff.1 hwords
        refine ⟨r, ⟨t, g.built + 1⟩, ⟨⟨es, hes, hfirst⟩, rfl⟩, rs, ⟨rolls, hrolls, ?_, hrest, ?_⟩, rfl⟩
        · exact Nat.succ.inj hlength
        · show g'.built = g.built + 1 + k
          omega

end Builds

end SyntheticLog
