import Mathlib.Algebra.BigOperators.Option
import Mathlib.Algebra.BigOperators.Ring.Finset
import Mathlib.Algebra.BigOperators.Group.Finset.Sigma
import Mathlib.Data.List.GetD
import Mathlib.Tactic.Ring
import SyntheticLog.Proofs.Generator.Domain
import SyntheticLog.Proofs.Random.Shares

/-!
# Fairness of generated records

A sample is one choice of numbers for all draws of a record. Its words hold only the numbers that
are drawn: a field that is absent costs no words but those of its coin.

* `Sample.record?_of_mem`: the record of a sample, told by the places of its numbers.
* `Sample.giving_eq`, `Sample.exists_shareIs`: the samples that give a record, and their number.
* `Sample.equal_shares`: equal shares for all records, up to the values of the fields they lack.
-/

set_option autoImplicit false

namespace SyntheticLog

open Finset SyntheticLog.Random

/-! ## Records by places -/

namespace Record

def ofPlaces (time event : Nat) (message count : Option Nat) : Record :=
  ⟨⟨tsBase + time, count⟩, ⟨events.getD event "", message.map (messages.getD · "")⟩⟩

/-- The number of times. -/
def times : Nat := offsetType.span 0 tsMaxOffset

def counts : Nat := countType.span 0 countMax

theorem exists_places {r : Record} (h : r.InDomain) :
    ∃ time < times, ∃ event < events.length, ∃ message count,
      (∀ k, message = some k → k < messages.length) ∧ (∀ k, count = some k → k < counts) ∧
        r = ofPlaces time event message count := by
  obtain ⟨⟨ts, count⟩, event, message⟩ := r
  obtain ⟨⟨hlow, hhigh⟩, hcount, hevent, hmessage⟩ := h
  dsimp only at *
  have htimes : (times : Int) = tsMaxOffset + 1 := by decide
  have hcounts : counts = countMax + 1 := by decide
  obtain ⟨j, hj, rfl⟩ := List.getElem_of_mem hevent
  have hpick : ∃ o : Option Nat, (∀ k, o = some k → k < messages.length) ∧
      message = o.map (messages.getD · "") := by
    cases message with
    | none => exact ⟨none, by simp, rfl⟩
    | some m =>
      obtain ⟨k, hk, rfl⟩ := List.getElem_of_mem (hmessage m rfl)
      exact ⟨some k, by simpa using hk, by simp [hk]⟩
  obtain ⟨o, ho, rfl⟩ := hpick
  refine ⟨(ts - tsBase).toNat, by omega, j, hj, o, count, ho, fun k hk => ?_, ?_⟩
  · have := hcount k hk
    omega
  · rw [ofPlaces, List.getD_eq_getElem _ _ hj, Int.toNat_of_nonneg (by omega)]
    congr 2
    omega

theorem getD_inj {pool : List String} (hpool : pool.Nodup) {j k : Nat} (hj : j < pool.length)
    (hk : k < pool.length) (h : pool.getD j "" = pool.getD k "") : j = k := by
  rw [List.getD_eq_getElem _ _ hj, List.getD_eq_getElem _ _ hk] at h
  exact (hpool.getElem_inj_iff).1 h

theorem ofPlaces_inj {time time' event event' : Nat} {message message' count count' : Option Nat}
    (hevent : event < events.length) (hevent' : event' < events.length)
    (hmessage : ∀ k, message = some k → k < messages.length)
    (hmessage' : ∀ k, message' = some k → k < messages.length) :
    ofPlaces time event message count = ofPlaces time' event' message' count' ↔
      (time = time' ∧ event = event') ∧ message = message' ∧ count = count' := by
  constructor
  · intro h
    simp only [ofPlaces, Record.mk.injEq, Numbers.mk.injEq, Texts.mk.injEq] at h
    obtain ⟨⟨htime, hcount⟩, hpick, hmap⟩ := h
    refine ⟨⟨by omega, getD_inj (by decide) hevent hevent' hpick⟩, ?_, hcount⟩
    cases message with
    | none => cases message' with
      | none => rfl
      | some k => cases hmap
    | some j => cases message' with
      | none => cases hmap
      | some k =>
        rw [getD_inj (by decide) (hmessage j rfl) (hmessage' k rfl) (Option.some.inj hmap)]
  · rintro ⟨⟨rfl, rfl⟩, rfl, rfl⟩
    rfl

theorem offset_words {v k : Nat} (hv : v < Size.word64.card) (hk : place? .w64 times v = some k)
    (ws : List UInt32) :
    intRange offsetType 0 tsMaxOffset (Size.word64.words v ++ ws) = .ok (0 + k) ws :=
  intRange_words (by decide) (by decide) (by decide) (by decide) hv hk ws

theorem pick_words {pool : List String} (hpool : 0 < pool.length) {v k : Nat}
    (hv : v < Size.word64.card) (hk : place? .w64 pool.length v = some k) (ws : List UInt32) :
    oneOf pool (Size.word64.words v ++ ws) = .ok (pool.getD k "") ws := by
  have hlt := place?_lt hpool hv hk
  rw [List.getD_eq_getElem _ _ hlt]
  exact oneOf_words hv hk (List.getElem?_eq_getElem hlt) ws

theorem message_words {p : Nat × Nat} (hp : p ∈ maybes .w64 messages.length) (ws : List UInt32) :
    maybe (oneOf messages) (maybeWords .word64 p ++ ws) =
      .ok ((maybePlace? .w64 messages.length p).map (messages.getD · "")) ws := by
  obtain ⟨hcoin, hv, hcounts⟩ := mem_maybes.1 hp
  exact maybe_words hcoin hcounts (fun k ws hk => pick_words (by decide) hv hk ws) ws

theorem count_words {p : Nat × Nat} (hp : p ∈ maybes .w32 counts) (ws : List UInt32) :
    maybe (intRange countType 0 countMax) (maybeWords .word32 p ++ ws) =
      .ok ((maybePlace? .w32 counts p).map fun k : Nat => 0 + (k : Int)) ws := by
  obtain ⟨hcoin, hv, hcounts⟩ := mem_maybes.1 hp
  exact maybe_words hcoin hcounts (fun k ws hk =>
    intRange_words (by decide) (by decide) (by decide) (by decide) hv hk ws) ws

end Record

/-! ## Samples -/

/-- A number for the time and one for the event, then for the message and for the count a coin with
a number. -/
abbrev Sample : Type := (Nat × Nat) × (Nat × Nat) × (Nat × Nat)

namespace Sample

open Record

/-- The samples of numbers that count. -/
def all : Finset Sample :=
  (counting .w64 times ×ˢ counting .w64 events.length) ×ˢ
    maybes .w64 messages.length ×ˢ maybes .w32 counts

def words (s : Sample) : List UInt32 :=
  Size.word64.words s.1.1 ++ (Size.word64.words s.1.2 ++
    (maybeWords .word64 s.2.1 ++ maybeWords .word32 s.2.2))

/-- The record that a new generator builds from the words of the sample, if it takes all of them. -/
def record? (s : Sample) : Option Record :=
  match Generator.build (Generator.ofSource s.words) with
  | .ok r ⟨[], _⟩ => some r
  | _ => none

theorem mem_all {s : Sample} :
    s ∈ all ↔ (s.1.1 ∈ counting .w64 times ∧ s.1.2 ∈ counting .w64 events.length) ∧
      s.2.1 ∈ maybes .w64 messages.length ∧ s.2.2 ∈ maybes .w32 counts := by
  simp only [all, mem_product]

theorem draw_words {s : Sample} {time event : Nat} (hs : s ∈ all)
    (htime : place? .w64 times s.1.1 = some time)
    (hevent : place? .w64 events.length s.1.2 = some event) :
    Record.draw s.words = .ok (ofPlaces time event (maybePlace? .w64 messages.length s.2.1)
      (maybePlace? .w32 counts s.2.2)) [] := by
  obtain ⟨⟨htimes, hevents⟩, hmessages, hcounts⟩ := mem_all.1 hs
  have hoffset := offset_words (mem_counting.1 htimes).1 htime
  have hpick := pick_words (by decide) (mem_counting.1 hevents).1 hevent
  rw [Record.draw, words, bind_of_ok (hoffset _), bind_of_ok (hpick _),
    -- nothing stands behind the words of the count
    bind_of_ok (message_words hmessages _), ← List.append_nil (maybeWords .word32 s.2.2),
    bind_of_ok (count_words hcounts _), ofPlaces]
  simp only [Int.zero_add, Option.map_map, Function.comp_def, Int.toNat_natCast, Option.map_id_fun']
  rfl

theorem record?_of_mem {s : Sample} (hs : s ∈ all) :
    ∃ time event, place? .w64 times s.1.1 = some time ∧
      place? .w64 events.length s.1.2 = some event ∧
      s.record? = some (ofPlaces time event (maybePlace? .w64 messages.length s.2.1)
        (maybePlace? .w32 counts s.2.2)) := by
  obtain ⟨⟨htimes, hevents⟩, -⟩ := mem_all.1 hs
  obtain ⟨time, htime⟩ := Option.isSome_iff_exists.1 (mem_counting.1 htimes).2
  obtain ⟨event, hevent⟩ := Option.isSome_iff_exists.1 (mem_counting.1 hevents).2
  refine ⟨time, event, htime, hevent, ?_⟩
  simp only [record?, Generator.build, Generator.ofSource, draw_words hs htime hevent]

theorem record?_eq_some_iff {s : Sample} (hs : s ∈ all) {time event : Nat}
    {message count : Option Nat} (hevent : event < events.length)
    (hmessage : ∀ k, message = some k → k < messages.length) :
    s.record? = some (ofPlaces time event message count) ↔
      (place? .w64 times s.1.1 = some time ∧ place? .w64 events.length s.1.2 = some event) ∧
        maybePlace? .w64 messages.length s.2.1 = message ∧
          maybePlace? .w32 counts s.2.2 = count := by
  obtain ⟨time', event', htime, hplace, hrecord⟩ := record?_of_mem hs
  obtain ⟨⟨-, hevents⟩, hmessages, -⟩ := mem_all.1 hs
  have hlt : event' < events.length := place?_lt (by decide) (mem_counting.1 hevents).1 hplace
  have hpicks (k : Nat) := maybePlace?_lt (k := k) (by decide) hmessages
  rw [hrecord, Option.some.injEq, ofPlaces_inj hlt hevent hpicks hmessage, htime, hplace,
    Option.some.injEq, Option.some.injEq]

/-- The numbers for the fields of a record are free of each other. -/
theorem giving_eq {time event : Nat} {message count : Option Nat} (hevent : event < events.length)
    (hmessage : ∀ k, message = some k → k < messages.length) :
    {s ∈ all | s.record? = some (ofPlaces time event message count)} =
      (placed .w64 times time ×ˢ placed .w64 events.length event) ×ˢ
        {p ∈ maybes .w64 messages.length | maybePlace? .w64 messages.length p = message} ×ˢ
        {p ∈ maybes .w32 counts | maybePlace? .w32 counts p = count} := by
  rw [filter_congr fun s hs => record?_eq_some_iff hs hevent hmessage]
  ext s
  simp only [← filter_counting, mem_filter, mem_product, mem_all]
  tauto

/-- Each record has `K` samples for each choice of values for the fields that it lacks. -/
def ShareIs (K : Nat) : Prop := ∀ r : Record, r.InDomain →
  #{s ∈ all | s.record? = some r} =
    K * (if r.texts.message = none then messages.length else 1) *
      (if r.numbers.count = none then countMax + 1 else 1)

theorem exists_shareIs : ∃ K, 0 < K ∧ ShareIs K := by
  obtain ⟨a, ha, htimes⟩ := exists_card_placed .w64 (n := times) (by decide) (by decide)
  obtain ⟨b, hb, hevents⟩ := exists_card_placed .w64 (n := events.length) (by decide) (by decide)
  obtain ⟨c, hc, hmessages⟩ :=
    exists_card_maybes .w64 (n := messages.length) (by decide) (by decide)
  obtain ⟨d, hd, hcounts⟩ := exists_card_maybes .w32 (n := counts) (by decide) (by decide)
  have hK := Nat.mul_pos (Nat.mul_pos ha hb) (Nat.mul_pos hc hd)
  refine ⟨a * b * (c * d), hK, fun r hr => ?_⟩
  obtain ⟨time, htime, event, hevent, message, count, hmessage, hcount, rfl⟩ := exists_places hr
  rw [giving_eq hevent hmessage, card_product, card_product, card_product, htimes time htime,
    hevents event hevent, hmessages message hmessage, hcounts count hcount]
  have hcount' : countMax + 1 = counts := by decide
  simp only [ofPlaces, Option.map_eq_none_iff, hcount']
  ring

theorem exists_record {s : Sample} (hs : s ∈ all) : ∃ r, r.InDomain ∧ s.record? = some r := by
  obtain ⟨time, event, htime, hevent, hrecord⟩ := record?_of_mem hs
  exact ⟨_, Record.gives_draw.ok (draw_words hs htime hevent), hrecord⟩

/-- Samples are counted record by record. -/
theorem card_map_record {α β : Type} [DecidableEq β] {g : Record → β} {b : β} (pool : Finset α)
    {f : α → Record} (hf : Function.Injective f)
    (hpool : ∀ r, r.InDomain → (g r = b ↔ ∃ x ∈ pool, f x = r)) :
    #{s ∈ all | s.record?.map g = some b} = ∑ x ∈ pool, #{s ∈ all | s.record? = some (f x)} := by
  rw [← card_biUnion]
  · congr 1
    ext s
    simp only [mem_filter, mem_biUnion]
    constructor
    · rintro ⟨hs, hmap⟩
      obtain ⟨r, hr, hrecord⟩ := exists_record hs
      rw [hrecord, Option.map_some, Option.some.injEq, hpool r hr] at hmap
      obtain ⟨x, hx, rfl⟩ := hmap
      exact ⟨x, hx, hs, hrecord⟩
    · rintro ⟨x, hx, hs, hrecord⟩
      obtain ⟨r, hr, hrecord'⟩ := exists_record hs
      rw [hrecord, Option.some.injEq] at hrecord'
      refine ⟨hs, ?_⟩
      rw [hrecord, Option.map_some, (hpool (f x) (hrecord' ▸ hr)).2 ⟨x, hx, rfl⟩]
  · intro x _ y _ hxy
    rw [Function.onFun, disjoint_left]
    intro s hx hy
    have hrecord := (mem_filter.1 hx).2
    rw [(mem_filter.1 hy).2] at hrecord
    exact hxy (hf (Option.some.inj hrecord).symm)

section Sums
variable {K : Nat} (h : ShareIs K)
include h

/-- A message is there as often as not. -/
theorem card_some_message {numbers : Numbers} {event : String}
    (hr : InDomain ⟨numbers, ⟨event, none⟩⟩) :
    #{s ∈ all | s.record?.map (fun r => (r.numbers, r.texts.event, r.texts.message.isSome)) =
        some (numbers, event, true)} =
      #{s ∈ all | s.record? = some ⟨numbers, ⟨event, none⟩⟩} := by
  have hsome (m : String) (hm : m ∈ messages.toFinset) :
      #{s ∈ all | s.record? = some ⟨numbers, ⟨event, some m⟩⟩} =
        K * 1 * if numbers.count = none then countMax + 1 else 1 :=
    h _ ⟨hr.1, hr.2.1, hr.2.2.1, by simpa using hm⟩
  have hinj : Function.Injective fun m : String => (⟨numbers, ⟨event, some m⟩⟩ : Record) :=
    fun m m' hm => by simpa using hm
  rw [card_map_record messages.toFinset hinj, sum_const_nat hsome, h _ hr, if_pos rfl]
  · have hcard : messages.toFinset.card = messages.length := by decide
    rw [hcard]
    ring
  · rintro ⟨numbers', event', message⟩ hr'
    constructor
    · intro heq
      simp only [Prod.mk.injEq, Option.isSome_iff_exists] at heq
      obtain ⟨rfl, rfl, m, rfl⟩ := heq
      exact ⟨m, List.mem_toFinset.2 (hr'.2.2.2 m rfl), rfl⟩
    · rintro ⟨m, -, heq⟩
      cases heq
      rfl

theorem card_some_count {ts : Int} {texts : Texts} (hr : InDomain ⟨⟨ts, none⟩, texts⟩) :
    #{s ∈ all | s.record?.map (fun r => (r.numbers.ts, r.texts, r.numbers.count.isSome)) =
        some (ts, texts, true)} =
      #{s ∈ all | s.record? = some ⟨⟨ts, none⟩, texts⟩} := by
  have hsome (n : Nat) (hn : n ∈ range (countMax + 1)) :
      #{s ∈ all | s.record? = some ⟨⟨ts, some n⟩, texts⟩} =
        K * (if texts.message = none then messages.length else 1) * 1 :=
    h _ ⟨hr.1, by simpa [Nat.lt_succ_iff] using hn, hr.2.2⟩
  have hinj : Function.Injective fun n : Nat => (⟨⟨ts, some n⟩, texts⟩ : Record) :=
    fun n n' hn => by simpa using hn
  rw [card_map_record (range (countMax + 1)) hinj, sum_const_nat hsome, h _ hr, card_range,
    if_pos rfl]
  · ring
  · rintro ⟨⟨ts', count⟩, texts'⟩ hr'
    constructor
    · intro heq
      simp only [Prod.mk.injEq, Option.isSome_iff_exists] at heq
      obtain ⟨rfl, rfl, n, rfl⟩ := heq
      exact ⟨n, mem_range.2 (Nat.lt_succ_of_le (hr'.2.1 n rfl)), rfl⟩
    · rintro ⟨n, -, heq⟩
      cases heq
      rfl

omit h in
theorem sum_absent {α : Type} (pool : Finset α) :
    ∑ o ∈ insertNone pool, (if o = none then pool.card else 1) = 2 * pool.card := by
  rw [sum_insertNone, if_pos rfl, sum_const_nat fun x _ => if_neg (Option.some_ne_none x)]
  omega

theorem card_time_event {ts : Int} {event : String}
    (hr : InDomain ⟨⟨ts, none⟩, ⟨event, none⟩⟩) :
    #{s ∈ all | s.record?.map (fun r => (r.numbers.ts, r.texts.event)) = some (ts, event)} =
      K * (2 * messages.length) * (2 * (countMax + 1)) := by
  have hcard : messages.toFinset.card = messages.length := by decide
  have hrange : (range (countMax + 1)).card = countMax + 1 := card_range _
  have hinj : Function.Injective fun p : Option String × Option Nat =>
      (⟨⟨ts, p.2⟩, ⟨event, p.1⟩⟩ : Record) := by
    rintro ⟨m, n⟩ ⟨m', n'⟩ heq
    cases heq
    rfl
  have hdomain (p : Option String × Option Nat)
      (hp : p ∈ insertNone messages.toFinset ×ˢ insertNone (range (countMax + 1))) :
      InDomain ⟨⟨ts, p.2⟩, ⟨event, p.1⟩⟩ := by
    rw [mem_product, mem_insertNone, mem_insertNone] at hp
    exact ⟨hr.1, fun n hn => by simpa [Nat.lt_succ_iff] using hp.2 n hn, hr.2.2.1,
      fun m hm => by simpa using hp.1 m hm⟩
  rw [card_map_record _ hinj, sum_congr rfl fun p hp => h _ (hdomain p hp), sum_product]
  -- the shares are products, so their sum is the product of the sums over both fields
  · have hmessages := sum_absent messages.toFinset
    have hcounts := sum_absent (range (countMax + 1))
    rw [hcard] at hmessages
    rw [hrange] at hcounts
    rw [← hmessages, ← hcounts, mul_sum (insertNone messages.toFinset), sum_mul_sum]
  · rintro ⟨⟨ts', count⟩, event', message⟩ hr'
    constructor
    · intro heq
      cases heq
      refine ⟨(message, count), ?_, rfl⟩
      rw [mem_product, mem_insertNone, mem_insertNone]
      exact ⟨fun m hm => List.mem_toFinset.2 (hr'.2.2.2 m hm),
        fun n hn => mem_range.2 (Nat.lt_succ_of_le (hr'.2.1 n hn))⟩
    · rintro ⟨p, -, heq⟩
      cases heq
      rfl

end Sums

/-! ## Equal shares -/

/-- All samples give records, and all records of the domain come from the same number of samples, up
to the values of the fields that they lack: all times and events come equally often, and each field
that may be absent is there as often as not, whatever the other values. -/
theorem equal_shares : ∃ K, 0 < K ∧
    (∀ r : Record, r.InDomain → #{s ∈ all | s.record? = some r} =
      K * (if r.texts.message = none then messages.length else 1) *
        (if r.numbers.count = none then countMax + 1 else 1)) ∧
    (∀ s ∈ all, ∃ r, r.InDomain ∧ s.record? = some r) ∧
    (∀ ts event, InDomain ⟨⟨ts, none⟩, ⟨event, none⟩⟩ →
      #{s ∈ all | s.record?.map (fun r => (r.numbers.ts, r.texts.event)) = some (ts, event)} =
        K * (2 * messages.length) * (2 * (countMax + 1))) ∧
    (∀ numbers event, InDomain ⟨numbers, ⟨event, none⟩⟩ →
      #{s ∈ all | s.record?.map (fun r => (r.numbers, r.texts.event, r.texts.message.isSome)) =
          some (numbers, event, true)} =
        #{s ∈ all | s.record? = some ⟨numbers, ⟨event, none⟩⟩}) ∧
    ∀ ts texts, InDomain ⟨⟨ts, none⟩, texts⟩ →
      #{s ∈ all | s.record?.map (fun r => (r.numbers.ts, r.texts, r.numbers.count.isSome)) =
          some (ts, texts, true)} =
        #{s ∈ all | s.record? = some ⟨⟨ts, none⟩, texts⟩} := by
  obtain ⟨K, hK, hshare⟩ := exists_shareIs
  exact ⟨K, hK, hshare, fun s hs => exists_record hs, fun ts event hr => card_time_event hshare hr,
    fun numbers event hr => card_some_message hshare hr, fun ts texts hr => card_some_count hshare hr⟩

end Sample

end SyntheticLog
