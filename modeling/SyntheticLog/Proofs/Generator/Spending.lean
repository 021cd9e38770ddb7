import SyntheticLog.Proofs.Generator.Rolls

/-!
# What records cost

* `RecordRolls.length`: the number of words of a record, from the numbers of attempts.
* `RecordRolls.unique`: the words in front of a source tell the rolls.
* `RecordRolls.inserted`: a number that a loop drops may be added in front of any of its attempts.
* `builds_spending`: all of this for records that are built one after the other.
-/

set_option autoImplicit false

namespace SyntheticLog

open SyntheticLog.Random

/-! ## Numbers of words -/

theorem length_words_map (l : Loop) (vs : List Nat) :
    ((vs.map (Roll.attempt l)).flatMap Roll.words).length =
      (if l = .count then 1 else 2) * vs.length := by
  induction vs with
  | nil => rfl
  | cons v vs ih =>
    have hone : (Roll.words (.attempt l v)).length = if l = .count then 1 else 2 := by
      cases l <;> rfl
    rw [List.map_cons, List.flatMap_cons, List.length_append, ih, hone, List.length_cons,
      Nat.mul_succ, Nat.add_comm]

/-- The number of words of a record: two for each attempt and each coin, but one for each attempt of
a count. -/
def Roll.cost (es : List Roll) (r : Record) : Nat :=
  2 * attempts .time es + 2 * attempts .event es +
    2 + (if r.texts.message.isSome then 2 * attempts .message es else 0) +
    2 + (if r.numbers.count.isSome then attempts .count es else 0)

/-- There is an attempt for each field that is there. -/
structure Roll.Tried (es : List Roll) (r : Record) : Prop where
  time : 1 ≤ attempts .time es
  event : 1 ≤ attempts .event es
  message : r.texts.message.isSome = true → 1 ≤ attempts .message es
  count : r.numbers.count.isSome = true → 1 ≤ attempts .count es

theorem MaybeRolls.attempts_of_ne {l l' : Loop} {es : List Roll} {k : Option Nat}
    (h : MaybeRolls l es k) (hne : l ≠ l') : Roll.attempts l' es = 0 := by
  cases h with
  | tails bound tails => rfl
  | heads bound heads keeps => rw [Roll.attempts, Roll.attempts_map, if_neg hne]

theorem MaybeRolls.length {l : Loop} {es : List Roll} {k : Option Nat} (h : MaybeRolls l es k) :
    (es.flatMap Roll.words).length =
        2 + (if k.isSome then (if l = .count then 1 else 2) * Roll.attempts l es else 0) ∧
      (k.isSome = true → 1 ≤ Roll.attempts l es) := by
  cases h with
  | tails bound tails => exact ⟨rfl, nofun⟩
  | @heads v k vs bound heads keeps =>
    have hpos := Tries.length_pos keeps
    rw [List.flatMap_cons, List.length_append, length_words_map, Roll.attempts, Roll.attempts_map,
      if_pos rfl]
    exact ⟨rfl, fun _ => hpos⟩

theorem attempts_record {ts es : List Nat} {ms cs : List Roll} {message count : Option Nat}
    (hms : MaybeRolls .message ms message) (hcs : MaybeRolls .count cs count) (l : Loop) :
    Roll.attempts l (ts.map (.attempt .time) ++ (es.map (.attempt .event) ++ (ms ++ cs))) =
      match l with
      | .time => ts.length
      | .event => es.length
      | .message => Roll.attempts .message ms
      | .count => Roll.attempts .count cs := by
  cases l <;> simp [Roll.attempts_append, Roll.attempts_map, hms.attempts_of_ne, hcs.attempts_of_ne]

theorem RecordRolls.length {es : List Roll} {r : Record} (h : RecordRolls es r) :
    (es.flatMap Roll.words).length = Roll.cost es r ∧ Roll.Tried es r := by
  cases h with
  | @mk ts es ms cs time event message count htime hevent hmessage hcount =>
    obtain ⟨hms, hmpos⟩ := hmessage.length
    obtain ⟨hcs, hcpos⟩ := hcount.length
    have htried := @attempts_record ts es ms cs message count hmessage hcount
    have hmsome : (Record.ofPlaces time event message count).texts.message.isSome =
        message.isSome := Option.isSome_map
    have hcsome : (Record.ofPlaces time event message count).numbers.count.isSome =
        count.isSome := rfl
    constructor
    · rw [Roll.cost, htried, htried, htried, htried, hmsome, hcsome]
      simp only [List.flatMap_append, List.length_append, length_words_map, hms, hcs,
        reduceCtorEq, if_true, if_false, Nat.one_mul]
      omega
    · constructor
      · rw [htried]
        exact Tries.length_pos htime
      · rw [htried]
        exact Tries.length_pos hevent
      · intro hsome
        rw [htried]
        exact hmpos (hmsome ▸ hsome)
      · intro hsome
        rw [htried]
        exact hcpos (hcsome ▸ hsome)

theorem Roll.Tried.le_cost {es : List Roll} {r : Record} (h : Roll.Tried es r) :
    8 ≤ Roll.cost es r := by
  have htime := h.time
  have hevent := h.event
  rw [Roll.cost]
  omega

theorem length_words_flatten {rolls : List (List Roll)} {rs : List Record}
    (h : List.Forall₂ RecordRolls rolls rs) :
    (rolls.flatten.flatMap Roll.words).length = (List.zipWith Roll.cost rolls rs).sum := by
  induction h with
  | nil => rfl
  | cons first rest ih =>
    rw [List.flatten_cons, List.flatMap_append, List.length_append, ih, first.length.1,
      List.zipWith_cons_cons, List.sum_cons]

/-! ## Words tell the rolls -/

theorem MaybeRolls.unique {l : Loop} {es es' : List Roll} {k? k?' : Option Nat}
    {ws ws' : List UInt32} (h : MaybeRolls l es k?) (h' : MaybeRolls l es' k?')
    (hwords : es.flatMap Roll.words ++ ws = es'.flatMap Roll.words ++ ws') :
    es = es' ∧ k? = k?' ∧ ws = ws' := by
  cases h with
  | @tails v bound tails =>
    cases h' with
    | @tails v' bound' tails' =>
      rw [List.flatMap_singleton, List.flatMap_singleton] at hwords
      obtain ⟨rfl, rfl⟩ := words_append_inj bound bound' hwords
      exact ⟨rfl, rfl, rfl⟩
    | @heads v' k' vs' bound' heads' keeps' =>
      rw [List.flatMap_singleton, List.flatMap_cons, List.append_assoc] at hwords
      obtain ⟨rfl, -⟩ := words_append_inj bound bound' hwords
      exact absurd heads' tails
  | @heads v k vs bound heads keeps =>
    cases h' with
    | @tails v' bound' tails' =>
      rw [List.flatMap_singleton, List.flatMap_cons, List.append_assoc] at hwords
      obtain ⟨rfl, -⟩ := words_append_inj bound bound' hwords
      exact absurd heads tails'
    | @heads v' k' vs' bound' heads' keeps' =>
      rw [List.flatMap_cons, List.flatMap_cons, List.append_assoc, List.append_assoc] at hwords
      obtain ⟨rfl, hrest⟩ := words_append_inj bound bound' hwords
      rw [Roll.flatMap_words_map, Roll.flatMap_words_map] at hrest
      obtain ⟨rfl, rfl, rfl⟩ := Tries.unique keeps keeps' hrest
      exact ⟨rfl, rfl, rfl⟩

theorem RecordRolls.unique {es es' : List Roll} {r r' : Record} {ws ws' : List UInt32}
    (h : RecordRolls es r) (h' : RecordRolls es' r')
    (hwords : es.flatMap Roll.words ++ ws = es'.flatMap Roll.words ++ ws') :
    es = es' ∧ r = r' ∧ ws = ws' := by
  cases h with
  | mk times events messages counts =>
    cases h' with
    | mk times' events' messages' counts' =>
      simp only [List.flatMap_append, Roll.flatMap_words_map, List.append_assoc] at hwords
      obtain ⟨rfl, rfl, hwords⟩ := Tries.unique times times' hwords
      obtain ⟨rfl, rfl, hwords⟩ := Tries.unique events events' hwords
      obtain ⟨rfl, rfl, hwords⟩ := messages.unique messages' hwords
      obtain ⟨rfl, rfl, rfl⟩ := counts.unique counts' hwords
      exact ⟨rfl, rfl, rfl⟩

/-- The words in front of a source tell the rolls of as many records as one asks for. -/
theorem rolls_unique {rolls rolls' : List (List Roll)} {rs rs' : List Record}
    {ws ws' : List UInt32} (h : List.Forall₂ RecordRolls rolls rs)
    (h' : List.Forall₂ RecordRolls rolls' rs') (hlength : rs.length = rs'.length)
    (hwords : rolls.flatten.flatMap Roll.words ++ ws = rolls'.flatten.flatMap Roll.words ++ ws') :
    rolls = rolls' ∧ rs = rs' ∧ ws = ws' := by
  induction h generalizing rolls' rs' with
  | nil =>
    cases h' with
    | nil => exact ⟨rfl, rfl, hwords⟩
    | cons first' rest' => cases hlength
  | cons first rest ih =>
    cases h' with
    | nil => cases hlength
    | cons first' rest' =>
      simp only [List.flatten_cons, List.flatMap_append, List.append_assoc] at hwords
      obtain ⟨rfl, rfl, hrest⟩ := first.unique first' hwords
      obtain ⟨rfl, rfl, rfl⟩ := ih rest' (Nat.succ.inj hlength) hrest
      exact ⟨rfl, rfl, rfl⟩

/-! ## Numbers that a loop drops -/

/-- The number `u` is added in front of one of the attempts of the loop. -/
inductive Inserted (l : Loop) (u : Nat) : List Roll → List Roll → Prop
  | here {v : Nat} {es : List Roll} :
    Inserted l u (.attempt l v :: es) (.attempt l u :: .attempt l v :: es)
  | there {e : Roll} {es fs : List Roll} (rest : Inserted l u es fs) :
    Inserted l u (e :: es) (e :: fs)

variable {l l' : Loop} {u : Nat} {es fs : List Roll}

theorem inserted_append (before after : List Roll) (v : Nat) :
    Inserted l u (before ++ .attempt l v :: after)
      (before ++ .attempt l u :: .attempt l v :: after) := by
  induction before with
  | nil => exact .here
  | cons e before ih => exact .there ih

theorem Inserted.of_append {xs ys : List Roll} (h : Inserted l u (xs ++ ys) fs) :
    (∃ xs', Inserted l u xs xs' ∧ fs = xs' ++ ys) ∨ ∃ ys', Inserted l u ys ys' ∧ fs = xs ++ ys' := by
  induction xs generalizing fs with
  | nil => exact .inr ⟨fs, h, rfl⟩
  | cons x xs ih =>
    cases h with
    | here => exact .inl ⟨_, .here, rfl⟩
    | there rest =>
      obtain ⟨xs', hxs, rfl⟩ | ⟨ys', hys, rfl⟩ := ih rest
      · exact .inl ⟨_, .there hxs, rfl⟩
      · exact .inr ⟨ys', hys, rfl⟩

theorem Loop.Keeps.inserted {vs : List Nat} {k : Nat} (hdrops : l.Drops u) (hkeeps : l'.Keeps vs k)
    (h : Inserted l u (vs.map (.attempt l')) fs) :
    ∃ vs', fs = vs'.map (.attempt l') ∧ l'.Keeps vs' k := by
  induction hkeeps generalizing fs with
  | @keep v x bound kept =>
    cases h with
    | here => exact ⟨[u, v], rfl, .drop hdrops.1 hdrops.2 (.keep bound kept)⟩
    | there rest => cases rest
  | @drop v vs x bound dropped rest ih =>
    cases h with
    | here => exact ⟨u :: v :: vs, rfl, .drop hdrops.1 hdrops.2 (.drop bound dropped rest)⟩
    | there hrest =>
      obtain ⟨vs', rfl, hvs⟩ := ih hrest
      exact ⟨v :: vs', rfl, .drop bound dropped hvs⟩

theorem MaybeRolls.inserted {k? : Option Nat} (hdrops : l.Drops u) (hrolls : MaybeRolls l' es k?)
    (h : Inserted l u es fs) : MaybeRolls l' fs k? := by
  cases hrolls with
  | tails bound tails =>
    cases h with
    | there rest => cases rest
  | heads bound heads keeps =>
    cases h with
    | there rest =>
      obtain ⟨vs', rfl, hvs⟩ := Loop.Keeps.inserted hdrops keeps rest
      exact .heads bound heads hvs

theorem RecordRolls.inserted {r : Record} (hdrops : l.Drops u) (hrolls : RecordRolls es r)
    (h : Inserted l u es fs) : RecordRolls fs r := by
  -- The number goes into one of the four parts, whose value stays; a coin is not tried again.
  cases hrolls with
  | mk times events messages counts =>
    obtain ⟨_, hts, rfl⟩ | ⟨_, hrest, rfl⟩ := h.of_append
    · obtain ⟨_, rfl, htimes⟩ := Loop.Keeps.inserted hdrops times hts
      exact .mk htimes events messages counts
    obtain ⟨_, hes, rfl⟩ | ⟨_, hlast, rfl⟩ := hrest.of_append
    · obtain ⟨_, rfl, hevents⟩ := Loop.Keeps.inserted hdrops events hes
      exact .mk times hevents messages counts
    obtain ⟨_, hms, rfl⟩ | ⟨_, hcs, rfl⟩ := hlast.of_append
    · exact .mk times events (messages.inserted hdrops hms) counts
    · exact .mk times events messages (counts.inserted hdrops hcs)

/-- Where a loop drops a number, the number may be added in front of an attempt of the loop, and the
records stay the same. -/
theorem rolls_inserted {rolls : List (List Roll)} {rs : List Record} (hdrops : l.Drops u)
    (hrolls : List.Forall₂ RecordRolls rolls rs) (h : Inserted l u rolls.flatten fs) :
    ∃ rolls', fs = rolls'.flatten ∧ List.Forall₂ RecordRolls rolls' rs := by
  induction hrolls generalizing fs with
  | nil => cases h
  | cons first rest ih =>
    rw [List.flatten_cons] at h
    obtain ⟨es', hes, rfl⟩ | ⟨_, hlater, rfl⟩ := h.of_append
    · exact ⟨es' :: _, rfl, .cons (first.inserted hdrops hes) rest⟩
    · obtain ⟨rolls', rfl, hrest⟩ := ih hlater
      exact ⟨_ :: rolls', rfl, .cons first hrest⟩

/-! ## Building -/

section Builds
variable {σ : Type} [WordSource σ]

/-- Two rows of words that a source hands out begin alike. -/
theorem exists_append_of_hands {s t t' : σ} {vs ws : List UInt32} (h : Hands s vs t)
    (h' : Hands s ws t') : ∃ vs' ws', vs ++ vs' = ws ++ ws' := by
  induction h generalizing ws with
  | nil s => exact ⟨ws, [], by simp⟩
  | @cons s t u w vs head tail ih =>
    cases h' with
    | nil => exact ⟨[], w :: vs, by simp⟩
    | @cons _ t₁ _ w₁ ws head' tail' =>
      rw [head] at head'
      cases head'
      obtain ⟨vs', ws', hsame⟩ := ih tail'
      exact ⟨vs', ws', congrArg (w :: ·) hsame⟩

/-- Records are built from any source that hands out the words of their rolls. -/
theorem builds_of_hands {rolls : List (List Roll)} {rs : List Record}
    (hrolls : List.Forall₂ RecordRolls rolls rs) (f : Generator σ) {t : σ}
    (hwords : Hands f.source (rolls.flatten.flatMap Roll.words) t) :
    Generator.builds rs.length f = .ok rs ⟨t, f.built + rs.length⟩ :=
  builds_eq_ok_iff.2 ⟨rolls, hrolls, rfl, hwords, rfl⟩

end Builds

/-- What building takes from a source, told by its rolls, of which there is one choice only. Their
words are all that is taken, and their number is the sum of what the records cost. Another source
that hands out the same words gives the same records, whatever it holds behind them. So does one
that has, in front of an attempt of a loop, the words of a number that the loop drops as well. -/
theorem builds_spending {σ : Type} [WordSource σ] {k : Nat} {g g' : Generator σ}
    {rs : List Record} (h : Generator.builds k g = .ok rs g') :
    ∃! rolls : List (List Roll),
      List.Forall₂ RecordRolls rolls rs ∧
      Hands g.source (rolls.flatten.flatMap Roll.words) g'.source ∧
      (rolls.flatten.flatMap Roll.words).length = (List.zipWith Roll.cost rolls rs).sum ∧
      List.Forall₂ (fun es r => (es.flatMap Roll.words).length = Roll.cost es r ∧
        Roll.Tried es r ∧ 8 ≤ Roll.cost es r) rolls rs ∧
      (∀ {τ : Type} [WordSource τ] (f : Generator τ) (t : τ),
        Hands f.source (rolls.flatten.flatMap Roll.words) t →
          Generator.builds k f = .ok rs ⟨t, f.built + k⟩) ∧
      ∀ (l : Loop) (before after : List Roll) (v u : Nat),
        rolls.flatten = before ++ .attempt l v :: after → l.Drops u →
          ∀ {τ : Type} [WordSource τ] (f : Generator τ) (t : τ),
            Hands f.source (before.flatMap Roll.words ++ l.width.size.words u ++
              (Roll.attempt l v :: after).flatMap Roll.words) t →
              Generator.builds k f = .ok rs ⟨t, f.built + k⟩ := by
  obtain ⟨rolls, hrolls, rfl, hwords, -⟩ := builds_eq_ok_iff.1 h
  refine ⟨rolls, ⟨hrolls, hwords, length_words_flatten hrolls, ?_, ?_, ?_⟩, ?_⟩
  · apply hrolls.imp
    intro es r hes
    exact ⟨hes.length.1, hes.length.2, hes.length.2.le_cost⟩
  · intro τ _ f t hsame
    exact builds_of_hands hrolls f hsame
  · intro l before after v u hflatten hdrops τ _ f t hmore
    obtain ⟨rolls', hflatten', hrolls'⟩ :=
      rolls_inserted hdrops hrolls (hflatten ▸ inserted_append before after v)
    apply builds_of_hands hrolls' f
    rw [← hflatten', List.flatMap_append, List.flatMap_cons, ← List.append_assoc]
    exact hmore
  -- Two rows of rolls for the same source have words that begin alike, and these tell the rolls.
  · intro rolls' hother
    obtain ⟨hrolls', hwords', -⟩ := hother
    obtain ⟨ws, ws', hsame⟩ := exists_append_of_hands hwords' hwords
    exact (rolls_unique hrolls' hrolls rfl hsame).1

theorem recordRolls_zeros :
    RecordRolls [.attempt .time 0, .attempt .event 0, .coin 0, .attempt .message 0, .coin 0,
      .attempt .count 0] (Record.ofPlaces 0 0 (some 0) (some 0)) :=
  .mk (.keep (by decide) rfl) (.keep (by decide) rfl)
    (.heads (by decide) (by decide) (.keep (by decide) rfl))
    (.heads (by decide) (by decide) (.keep (by decide) rfl))

/-- Eleven zeros are a record. Words behind them stay, and a number that the loop of the event drops
changes nothing. -/
theorem builds_spending_zeros :
    Generator.builds 1 (.ofSource (List.replicate 11 (0 : UInt32))) =
        .ok [Record.ofPlaces 0 0 (some 0) (some 0)] ⟨[], 1⟩ ∧
      Generator.builds 1 (.ofSource (List.replicate 11 (0 : UInt32) ++ [7, 8])) =
        .ok [Record.ofPlaces 0 0 (some 0) (some 0)] ⟨[7, 8], 1⟩ ∧
      Generator.builds 1 (.ofSource ([0, 0, 0, 1073741824, 0, 0, 0, 0, 0, 0, 0, 0, 0] : List UInt32)) =
        .ok [Record.ofPlaces 0 0 (some 0) (some 0)] ⟨[], 1⟩ := by
  have hzeros := List.Forall₂.cons recordRolls_zeros .nil
  have hbuilds := builds_of_hands (t := []) hzeros (.ofSource (List.replicate 11 (0 : UInt32)))
    (hands_list_iff.2 rfl)
  obtain ⟨rolls, ⟨hrolls, hwords, -, -, hsame, hmore⟩, -⟩ := builds_spending hbuilds
  obtain ⟨rfl, -⟩ := rolls_unique hzeros hrolls rfl (hands_list_iff.1 hwords)
  refine ⟨hbuilds, hsame _ _ (hands_list_iff.2 rfl), ?_⟩
  exact hmore .event [.attempt .time 0] _ 0 4611686018427387904 rfl ⟨by decide, by decide⟩ _ _
    (hands_list_iff.2 rfl)

end SyntheticLog
