import SyntheticLog.Proofs.Random.Images

/-!
# Offsets in a range

Short of the whole type, how far a value is from the lower bound depends on the number of values
alone, and on the numbers that are drawn. A pick from a pool is a value of a range in this sense.

* `Width.Alike`: widths with the same numbers and the same zone.
* `place_iff`: the numbers that a loop tries before one has a place.
* `map_sub_intRange`: the offset of a value.
* `oneOf_of_intRange`: a pick is an index from a range.
* `intRange_offset`: all of this together.
-/

set_option autoImplicit false

namespace SyntheticLog.Random

/-! ## Widths that draw alike -/

def Width.narrow : Width → Bool
  | .w8 | .w16 => true
  | .w32 | .w64 => false

/-- The widths are the same, or both are narrow. -/
def Width.Alike (w w' : Width) : Prop := w = w' ∨ w.narrow = true ∧ w'.narrow = true

theorem Width.Alike.eq_of_narrow {w w' : Width} (h : w.Alike w') :
    w.size = w'.size ∧ ∀ n, place? w n = place? w' n := by
  obtain rfl | ⟨hw, hw'⟩ := h
  · exact ⟨rfl, fun n => rfl⟩
  · cases w <;> cases w' <;> simp [narrow] at hw hw' <;> exact ⟨rfl, fun n => rfl⟩

/-! ## Numbers that have a place -/

section Places
variable {w : Width} {n : Nat}

theorem place?_eq_none_iff {v : Nat} :
    place? w n v = none ↔ zone w n < v * n % w.size.card := by
  rw [place?]
  by_cases h : v * n % w.size.card ≤ zone w n
  · simp [h]
  · simp [h]
    omega

theorem place?_eq_some_iff_div {v k : Nat} :
    place? w n v = some k ↔ v * n % w.size.card ≤ zone w n ∧ v * n / w.size.card = k := by
  rw [place?]
  by_cases h : v * n % w.size.card ≤ zone w n
  · simp [h]
  · simp [h]

/-- A loop gives the place of the first number that counts. -/
theorem place_iff {σ : Type} [WordSource σ] {s s' : σ} {k : Nat} :
    firstPlaced w.size (place? w n) s = .ok k s' ↔
      ∃ us v, (∀ u ∈ us, u < w.size.card ∧ zone w n < u * n % w.size.card) ∧ v < w.size.card ∧
        v * n % w.size.card ≤ zone w n ∧ k = v * n / w.size.card ∧
        Hands s ((us ++ [v]).flatMap w.size.words) s' := by
  rw [firstPlaced_eq_ok_iff]
  constructor
  · intro h
    obtain ⟨vs, hvs, hwords⟩ := h
    obtain ⟨us, v, rfl, hus, hv, hk⟩ := tries_iff.1 hvs
    obtain ⟨hcounts, hplace⟩ := place?_eq_some_iff_div.1 hk
    exact ⟨us, v, fun u hu => ⟨(hus u hu).1, place?_eq_none_iff.1 (hus u hu).2⟩, hv, hcounts,
      hplace.symm, hwords⟩
  · intro h
    obtain ⟨us, v, hus, hv, hcounts, hplace, hwords⟩ := h
    exact ⟨us ++ [v], tries_iff.2 ⟨us, v, rfl, fun u hu => ⟨(hus u hu).1,
      place?_eq_none_iff.2 (hus u hu).2⟩, hv, place?_eq_some_iff_div.2 ⟨hcounts, hplace.symm⟩⟩, hwords⟩

end Places

/-! ## Offsets -/

variable {σ : Type} [WordSource σ] {t : IntType} {low high : Int}

omit [WordSource σ] in
theorem map_eq_ok_iff {α β : Type} {d : Draw σ α} {f : α → β} {s s' : σ} {y : β} :
    (f <$> d) s = .ok y s' ↔ ∃ x, d s = .ok x s' ∧ f x = y := by
  rw [map_eq_pure_bind, bind_eq_ok_iff]
  constructor
  · intro h
    obtain ⟨x, r, hx, hy⟩ := h
    obtain ⟨hxy, rfl⟩ := pure_eq_ok_iff.1 hy
    exact ⟨x, hx, hxy⟩
  · intro h
    obtain ⟨x, hx, hxy⟩ := h
    exact ⟨x, s', hx, pure_eq_ok_iff.2 ⟨hxy, rfl⟩⟩

/-- The offset of a value is the place of the first number that counts. -/
theorem map_sub_intRange (hle : low ≤ high) (hlow : t.least ≤ low) (hhigh : high ≤ t.greatest)
    (hlt : high - low + 1 < t.card) :
    (fun x => x - low) <$> (intRange t low high : Draw σ Int) =
      (fun k : Nat => (k : Int)) <$>
        firstPlaced t.width.size (place? t.width (high - low + 1).toNat) := by
  have hoffset : ((fun x => x - low) ∘ fun k : Nat => low + (k : Int)) = fun k : Nat => (k : Int) := by
    funext k
    show low + (k : Int) - low = k
    omega
  rw [intRange_of_lt hle hlow hhigh hlt, ← comp_map, hoffset]

/-! ## Picks -/

/-- The type of the indices of a pool. -/
def indexType : IntType := ⟨false, .w64⟩

theorem intRange_indexType {n : Nat} (hpos : 0 < n) (hn : n < indexType.card) :
    (intRange indexType 0 ((n : Int) - 1) : Draw σ Int) =
      (fun k : Nat => (k : Int)) <$> firstPlaced .word64 (place? .w64 n) := by
  have hgreatest := indexType.greatest_eq
  have hleast : indexType.least = 0 := rfl
  have hcount : ((n : Int) - 1 - 0 + 1).toNat = n := by omega
  have hzero : (fun k : Nat => (0 : Int) + k) = fun k : Nat => (k : Int) := by
    funext k
    exact Int.zero_add _
  rw [intRange_of_lt (by omega) (by omega) (by omega) (by omega), hcount, hzero]
  rfl

theorem oneOf_eq_map {α : Type} {pool : List α} (hpos : 0 < pool.length) (x : α) :
    (oneOf pool : Draw σ α) =
      (pool.getD · x) <$> firstPlaced .word64 (place? .w64 pool.length) := by
  funext s
  have hplaced := @gives_firstPlaced σ _ Nat .word64 (place? .w64 pool.length) (· < pool.length)
    fun v k hv hk => place?_lt hpos hv hk
  rw [oneOf, below, if_neg (by omega)]
  simp only [Functor.map, EStateM.map, bind, EStateM.bind]
  cases hk : firstPlaced .word64 (place? .w64 pool.length) s with
  | error e s' => rfl
  | ok k s' =>
    have hlt : k < pool.length := hplaced.ok hk
    simp only [List.getD_eq_getElem?_getD, List.getElem?_eq_getElem hlt, Option.getD_some]
    rfl

/-- A pick takes the words of a range of indices and gives the element at the index. -/
theorem oneOf_of_intRange {α : Type} {pool : List α} (hpos : 0 < pool.length)
    (hlen : pool.length < indexType.card) (s : σ) :
    match intRange indexType 0 ((pool.length : Int) - 1) s with
    | .ok i s' => 0 ≤ i ∧ ∃ h : i.toNat < pool.length, oneOf pool s = .ok pool[i.toNat] s'
    | .error e s' => oneOf pool s = .error e s' := by
  have hplaced := @gives_firstPlaced σ _ Nat .word64 (place? .w64 pool.length) (· < pool.length)
    fun v k hv hk => place?_lt hpos hv hk
  rw [intRange_indexType hpos hlen, oneOf_eq_map hpos pool[0]]
  simp only [Functor.map, EStateM.map]
  cases hk : firstPlaced .word64 (place? .w64 pool.length) s with
  | error e s' => rfl
  | ok k s' =>
    have hlt : k < pool.length := hplaced.ok hk
    refine ⟨by omega, hlt, ?_⟩
    simp only [List.getD_eq_getElem?_getD, List.getElem?_eq_getElem hlt, Option.getD_some]
    rfl

/-! ## Ranges -/

/-- A draw from a range of `n` values gives a value of the range, unless the source comes to its end.
Short of the whole type it is `low` and the place of the first number that counts, in machine words
as well; it depends on the type only so far as that says how numbers are drawn. A pick from a pool
is the element at an index that is drawn from a range. -/
theorem intRange_offset {n : Nat} (hle : low ≤ high) (hlow : t.least ≤ low)
    (hhigh : high ≤ t.greatest) (hn : high - low + 1 = n) :
    (∀ (s s' : σ) (x : Int), intRange t low high s = .ok x s' → low ≤ x ∧ x ≤ high) ∧
    (∀ (s s' : σ) (e : Stop), intRange t low high s = .error e s' → e = .outOfWords) ∧
    (n < t.card → ∀ (s s' : σ) (x : Int), intRange t low high s = .ok x s' ↔
      ∃ us v, (∀ u ∈ us, u < t.width.size.card ∧ zone t.width n < u * n % t.width.size.card) ∧
        v < t.width.size.card ∧ v * n % t.width.size.card ≤ zone t.width n ∧
        x = low + (v * n / t.width.size.card : Nat) ∧
        Hands s ((us ++ [v]).flatMap t.width.size.words) s') ∧
    (n < t.card → ∀ v : BitVec t.width.size.bits,
      (t.wordImage? (t.word low) (t.word high) v).map t.number =
        if v.toNat * n % t.width.size.card ≤ zone t.width n then
          some (low + (v.toNat * n / t.width.size.card : Nat))
        else none) ∧
    (∀ (t' : IntType) (low' high' : Int), t'.least ≤ low' → high' ≤ t'.greatest →
      t.width.Alike t'.width → high' - low' + 1 = n → n < t.card → n < t'.card →
      (fun x => x - low) <$> (intRange t low high : Draw σ Int) =
        (fun x => x - low') <$> intRange t' low' high') ∧
    ∀ {α : Type} (pool : List α), 0 < pool.length → pool.length < indexType.card → ∀ s : σ,
      match intRange indexType 0 ((pool.length : Int) - 1) s with
      | .ok i s' => 0 ≤ i ∧ ∃ h : i.toNat < pool.length, oneOf pool s = .ok pool[i.toNat] s'
      | .error e s' => oneOf pool s = .error e s' := by
  have hcount : (high - low + 1).toNat = n := by omega
  have hgives := @gives_intRange σ _ t low high hle hlow hhigh
  refine ⟨fun s s' x hx => hgives.ok hx, fun s s' e he => hgives.error he, ?_, ?_, ?_,
    fun pool hpos hlen s => oneOf_of_intRange hpos hlen s⟩
  · intro hlt s s' x
    rw [intRange_of_lt hle hlow hhigh (by omega), map_eq_ok_iff, hcount]
    constructor
    · intro h
      obtain ⟨k, hk, rfl⟩ := h
      obtain ⟨us, v, hus, hv, hcounts, rfl, hwords⟩ := place_iff.1 hk
      exact ⟨us, v, hus, hv, hcounts, rfl, hwords⟩
    · intro h
      obtain ⟨us, v, hus, hv, hcounts, hx, hwords⟩ := h
      exact ⟨_, place_iff.2 ⟨us, v, hus, hv, hcounts, rfl, hwords⟩, hx.symm⟩
  · intro hlt v
    have hv := v.isLt
    rw [← Size.card_eq] at hv
    rw [IntType.map_wordImage?, IntType.image?_of_lt hle hlow hhigh (by omega) hv, hcount, place?]
    by_cases hcounts : v.toNat * n % t.width.size.card ≤ zone t.width n
    · rw [if_pos hcounts, if_pos hcounts, Option.map_some]
    · rw [if_neg hcounts, if_neg hcounts, Option.map_none]
  · intro t' low' high' hlow' hhigh' halike hn' hlt hlt'
    obtain ⟨hsize, hplace⟩ := halike.eq_of_narrow
    have hcount' : (high' - low' + 1).toNat = n := by omega
    rw [map_sub_intRange hle hlow hhigh (by omega), map_sub_intRange (by omega) hlow' hhigh' (by omega),
      hcount, hcount', hsize, hplace]

/-- The numbers from -128 to 126, which are more than half of the signed type, on a source whose
first word is dropped. -/
theorem intRange_offset_signed :
    intRange ⟨true, .w8⟩ (-128) 126 ([16843009, 4294967295, 7] : List UInt32) = .ok 126 [7] ∧
      (fun x => x - -128) <$> (intRange ⟨true, .w8⟩ (-128) 126 : Draw (List UInt32) Int) =
        (fun x => x - 1000) <$> intRange ⟨false, .w16⟩ 1000 1254 := by
  obtain ⟨-, -, hplace, -, halike, -⟩ := @intRange_offset (List UInt32) _ ⟨true, .w8⟩ (-128) 126
    255 (by decide) (by decide) (by decide) (by decide)
  constructor
  · apply (hplace (by decide) _ _ _).2
    exact ⟨[16843009], 4294967295, by decide, by decide, by decide, by decide,
      hands_list_iff.2 (by decide)⟩
  · exact halike ⟨false, .w16⟩ 1000 1254 (by decide) (by decide) (.inr ⟨rfl, rfl⟩) (by decide)
      (by decide) (by decide)

end SyntheticLog.Random
