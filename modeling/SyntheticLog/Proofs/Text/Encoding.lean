import SyntheticLog.Text.Utf8

/-!
# Reading back what is encoded

* `Utf8.decode_encode`: the bytes of a text decode to its characters, with no gap.
* `Utf8.lossy_encode`, `Utf8.isValid_encode`: the text is read back, and the bytes are well-formed.
* `Utf8.le_of_mem_encode`: the bytes of a text without control characters.
* `Utf8.toNat_of_front`: ASCII characters come of single bytes.
-/

set_option autoImplicit false

namespace SyntheticLog.Utf8

theorem encode_eq (s : String) : encode s = s.toList.flatMap String.utf8EncodeChar := by
  rw [encode, String.toUTF8_eq_toByteArray, ← String.utf8Encode_toList, List.utf8Encode,
    List.toList_data_toByteArray]

theorem encode_append (s t : String) : encode (s ++ t) = encode s ++ encode t := by
  rw [encode_eq, encode_eq, encode_eq, String.toList_append, List.flatMap_append]

/-! ## Sequences of each length -/

section Sequences
variable {a b c d : UInt8}

theorem continues_iff : continues b = true ↔ 0x80 ≤ b.toNat ∧ b.toNat ≤ 0xBF := by
  simp [continues, UInt8.le_iff_toNat_le]

theorem tests_one (ha : a.toNat < 0x80) : tests a = some [] := by
  simp [tests, UInt8.lt_iff_toNat_lt, ha]

theorem tests_two (hlow : 0xC2 ≤ a.toNat) (hhigh : a.toNat ≤ 0xDF) :
    tests a = some [continues] := by
  have hone : ¬a.toNat < 128 := by omega
  simp [tests, UInt8.le_iff_toNat_le, UInt8.lt_iff_toNat_lt, hone, hlow, hhigh]

theorem tests_three (hlow : 0xE0 ≤ a.toNat) (hhigh : a.toNat ≤ 0xEF) :
    tests a = some [secondOfThree a, continues] := by
  have hone : ¬a.toNat < 128 := by omega
  have htwo : ¬a.toNat ≤ 223 := by omega
  simp [tests, UInt8.le_iff_toNat_le, UInt8.lt_iff_toNat_lt, hone, htwo, hlow, hhigh]

theorem tests_four (hlow : 0xF0 ≤ a.toNat) (hhigh : a.toNat ≤ 0xF4) :
    tests a = some [secondOfFour a, continues, continues] := by
  have hone : ¬a.toNat < 128 := by omega
  have htwo : ¬a.toNat ≤ 223 := by omega
  have hthree : ¬a.toNat ≤ 239 := by omega
  simp [tests, UInt8.le_iff_toNat_le, UInt8.lt_iff_toNat_lt, hone, htwo, hthree, hlow, hhigh]

theorem secondOfThree_of_bounds (hb : continues b = true) (hshort : a.toNat = 0xE0 → 0xA0 ≤ b.toNat)
    (hsurrogate : a.toNat = 0xED → b.toNat ≤ 0x9F) : secondOfThree a b = true := by
  obtain ⟨hlow, hhigh⟩ := continues_iff.1 hb
  unfold secondOfThree
  split
  · next h =>
    have h1 := hshort (by rw [h]; rfl)
    simp [UInt8.le_iff_toNat_le, h1, hhigh]
  · split
    · next h =>
      have h1 := hsurrogate (by rw [h]; rfl)
      simp [UInt8.le_iff_toNat_le, h1, hlow]
    · exact hb

theorem secondOfFour_of_bounds (hb : continues b = true) (hshort : a.toNat = 0xF0 → 0x90 ≤ b.toNat)
    (hlast : a.toNat = 0xF4 → b.toNat ≤ 0x8F) : secondOfFour a b = true := by
  obtain ⟨hlow, hhigh⟩ := continues_iff.1 hb
  unfold secondOfFour
  split
  · next h =>
    have h1 := hshort (by rw [h]; rfl)
    simp [UInt8.le_iff_toNat_le, h1, hhigh]
  · split
    · next h =>
      have h1 := hlast (by rw [h]; rfl)
      simp [UInt8.le_iff_toNat_le, h1, hlow]
    · exact hb

variable (bs : List UInt8)

theorem decode_one (ha : tests a = some []) :
    decode (a :: bs) = some (Char.ofNat a.toNat) :: decode bs := by
  rw [decode, front, ha]
  simp [passing, character]

theorem decode_two {p : UInt8 → Bool} (ha : tests a = some [p]) (hb : p b = true) :
    decode (a :: b :: bs) =
      some (Char.ofNat (64 * (a.toNat % 32) + b.toNat % 64)) :: decode bs := by
  rw [decode, front, ha]
  simp [passing, character, hb]

theorem decode_three {p q : UInt8 → Bool} (ha : tests a = some [p, q]) (hb : p b = true)
    (hc : q c = true) :
    decode (a :: b :: c :: bs) =
      some (Char.ofNat (64 * (64 * (a.toNat % 16) + b.toNat % 64) + c.toNat % 64)) ::
        decode bs := by
  rw [decode, front, ha]
  simp [passing, character, hb, hc]

theorem decode_four {p q r : UInt8 → Bool} (ha : tests a = some [p, q, r]) (hb : p b = true)
    (hc : q c = true) (hd : r d = true) :
    decode (a :: b :: c :: d :: bs) =
      some (Char.ofNat (64 * (64 * (64 * (a.toNat % 8) + b.toNat % 64) + c.toNat % 64) +
        d.toNat % 64)) :: decode bs := by
  rw [decode, front, ha]
  simp [passing, character, hb, hc, hd]

end Sequences

/-! ## Characters and texts -/

theorem toNat_ofNat {n : Nat} (h : n < 256) : (UInt8.ofNat n).toNat = n := by
  rw [UInt8.toNat_ofNat', Nat.mod_eq_of_lt h]

theorem continues_ofNat (n : Nat) : continues (UInt8.ofNat (n % 0x40 + 0x80)) = true := by
  rw [continues_iff, toNat_ofNat (by omega)]
  omega

theorem decode_utf8EncodeChar (c : Char) (bs : List UInt8) :
    decode (String.utf8EncodeChar c ++ bs) = some c :: decode bs := by
  have hvalid : c.toNat < 0xD800 ∨ 0xDFFF < c.toNat ∧ c.toNat < 0x110000 := c.valid
  have hchar {n : Nat} (h : n = c.toNat) : Char.ofNat n = c := by rw [h, Char.ofNat_toNat]
  have hval : c.val.toNat = c.toNat := rfl
  rw [String.utf8EncodeChar, hval]
  generalize c.toNat = v at hvalid hchar
  by_cases hone : v ≤ 0x7F
  · have ha := toNat_ofNat (n := v) (by omega)
    simp only [if_pos hone, List.cons_append, List.nil_append]
    rw [decode_one bs (tests_one (by omega)), hchar ha]
  by_cases htwo : v ≤ 0x7FF
  · have ha := toNat_ofNat (n := v / 64 % 0x20 + 0xC0) (by omega)
    have hb := toNat_ofNat (n := v % 0x40 + 0x80) (by omega)
    simp only [if_neg hone, if_pos htwo, List.cons_append, List.nil_append]
    rw [decode_two bs (tests_two (by omega) (by omega)) (continues_ofNat v), hchar (by omega)]
  by_cases hthree : v ≤ 0xFFFF
  · have ha := toNat_ofNat (n := v / 4096 % 0x10 + 0xE0) (by omega)
    have hb := toNat_ofNat (n := v / 64 % 0x40 + 0x80) (by omega)
    have hc := toNat_ofNat (n := v % 0x40 + 0x80) (by omega)
    simp only [if_neg hone, if_neg htwo, if_pos hthree, List.cons_append, List.nil_append]
    rw [decode_three bs (tests_three (by omega) (by omega))
      (secondOfThree_of_bounds (continues_ofNat _) (by omega) (by omega)) (continues_ofNat v),
      hchar (by omega)]
  · have ha := toNat_ofNat (n := v / 262144 % 0x08 + 0xF0) (by omega)
    have hb := toNat_ofNat (n := v / 4096 % 0x40 + 0x80) (by omega)
    have hc := toNat_ofNat (n := v / 64 % 0x40 + 0x80) (by omega)
    have hd := toNat_ofNat (n := v % 0x40 + 0x80) (by omega)
    simp only [if_neg hone, if_neg htwo, if_neg hthree, List.cons_append, List.nil_append]
    rw [decode_four bs (tests_four (by omega) (by omega))
      (secondOfFour_of_bounds (continues_ofNat _) (by omega) (by omega)) (continues_ofNat _)
      (continues_ofNat v), hchar (by omega)]

theorem decode_flatMap (cs : List Char) :
    decode (cs.flatMap String.utf8EncodeChar) = cs.map some := by
  induction cs with
  | nil => rw [List.flatMap_nil, decode, List.map_nil]
  | cons c cs ih => rw [List.flatMap_cons, decode_utf8EncodeChar, ih, List.map_cons]

theorem decode_encode (s : String) : decode (encode s) = s.toList.map some := by
  rw [encode_eq, decode_flatMap]

theorem lossy_encode (s : String) : lossy (encode s) = s.toList := by
  rw [lossy, decode_encode, List.map_map]
  exact List.map_id _

theorem isValid_encode (s : String) : isValid (encode s) = true := by
  rw [isValid, decode_encode, List.all_map, List.all_eq_true]
  intro c hc
  rfl

/-- A byte that is not the only one of its character has its highest bit set. -/
theorem le_ofNat {x y n : Nat} (hy : 0 < y) (hn : 0x80 ≤ n) (hsum : y + n ≤ 256) :
    32 ≤ (UInt8.ofNat (x % y + n)).toNat := by
  have hlt := Nat.mod_lt x hy
  rw [toNat_ofNat (by omega)]
  omega

theorem le_of_mem_utf8EncodeChar {c : Char} (hc : 32 ≤ c.toNat) {b : UInt8}
    (h : b ∈ String.utf8EncodeChar c) : 32 ≤ b.toNat := by
  have hval : c.val.toNat = c.toNat := rfl
  rw [String.utf8EncodeChar, hval] at h
  split at h
  · rw [List.mem_singleton.1 h, toNat_ofNat (by omega)]
    exact hc
  · split at h
    · simp only [List.mem_cons, List.not_mem_nil, or_false] at h
      rcases h with rfl | rfl <;> exact le_ofNat (by omega) (by omega) (by omega)
    · split at h
      · simp only [List.mem_cons, List.not_mem_nil, or_false] at h
        rcases h with rfl | rfl | rfl <;> exact le_ofNat (by omega) (by omega) (by omega)
      · simp only [List.mem_cons, List.not_mem_nil, or_false] at h
        rcases h with rfl | rfl | rfl | rfl <;> exact le_ofNat (by omega) (by omega) (by omega)

theorem le_of_mem_encode {s : String} (hs : ∀ c ∈ s.toList, 32 ≤ c.toNat) {b : UInt8}
    (h : b ∈ encode s) : 32 ≤ b.toNat := by
  rw [encode_eq, List.mem_flatMap] at h
  obtain ⟨c, hc, hb⟩ := h
  exact le_of_mem_utf8EncodeChar (hs c hc) hb

/-! ## First characters -/

theorem eq_toNat_of_ofNat_eq {v : Nat} {c : Char} (h : Char.ofNat v = c) (hc : 0 < c.toNat) :
    v = c.toNat := by
  by_cases hv : v.isValidChar
  · have hchar : Char.ofNat v = Char.ofNatAux v hv := dif_pos hv
    rw [← h, hchar]
    rfl
  · have hzero : (Char.ofNat v).toNat = 0 := by
      rw [show Char.ofNat v = _ from dif_neg hv]
      rfl
    rw [← h, hzero] at hc
    exact absurd hc (Nat.lt_irrefl 0)

theorem le_secondOfThree {a b : UInt8} (hlow : 0xE0 ≤ a.toNat) (hhigh : a.toNat ≤ 0xEF)
    (h : secondOfThree a b = true) : 0x20 ≤ 64 * (a.toNat % 16) + b.toNat % 64 := by
  unfold secondOfThree at h
  split at h
  · simp only [Bool.and_eq_true, decide_eq_true_eq, UInt8.le_iff_toNat_le] at h
    have hb : 0xA0 ≤ b.toNat ∧ b.toNat ≤ 0xBF := h
    omega
  · next hfirst =>
    have hne : a.toNat ≠ 0xE0 := fun heq => hfirst (UInt8.toNat_inj.1 heq)
    omega

theorem le_secondOfFour {a b : UInt8} (hlow : 0xF0 ≤ a.toNat) (hhigh : a.toNat ≤ 0xF4)
    (h : secondOfFour a b = true) : 0x10 ≤ 64 * (a.toNat % 8) + b.toNat % 64 := by
  unfold secondOfFour at h
  split at h
  · simp only [Bool.and_eq_true, decide_eq_true_eq, UInt8.le_iff_toNat_le] at h
    have hb : 0x90 ≤ b.toNat ∧ b.toNat ≤ 0xBF := h
    omega
  · next hfirst =>
    have hne : a.toNat ≠ 0xF0 := fun heq => hfirst (UInt8.toNat_inj.1 heq)
    omega

/-- Only the one-byte sequences give ASCII characters. -/
theorem toNat_of_front {a : UInt8} {rest : List UInt8} {c : Char} (h : (front a rest).1 = some c)
    (hpos : 0 < c.toNat) (hc : c.toNat < 0x80) : a.toNat = c.toNat := by
  revert h
  rw [front]
  fun_cases tests a with
  | case1 hone =>
    intro h
    exact eq_toNat_of_ofNat_eq (by simpa [passing, character] using h) hpos
  | case2 hone htwo =>
    simp only [Bool.and_eq_true, decide_eq_true_eq, UInt8.le_iff_toNat_le] at htwo
    have hfirst : 0xC2 ≤ a.toNat ∧ a.toNat ≤ 0xDF := htwo
    match rest with
    | [] => simp [passing]
    | b :: bs =>
      by_cases hb : continues b = true
      · intro h
        have hvalue : 64 * (a.toNat % 32) + b.toNat % 64 = c.toNat :=
          eq_toNat_of_ofNat_eq (by simpa [passing, character, hb] using h) hpos
        omega
      · simp [passing, hb]
  | case3 hone htwo hthree =>
    simp only [Bool.and_eq_true, decide_eq_true_eq, UInt8.le_iff_toNat_le] at hthree
    have hfirst : 0xE0 ≤ a.toNat ∧ a.toNat ≤ 0xEF := hthree
    match rest with
    | [] => simp [passing]
    | [b] => by_cases hb : secondOfThree a b = true <;> simp [passing, hb]
    | b :: d :: bs =>
      by_cases hb : secondOfThree a b = true
      · by_cases hd : continues d = true
        · intro h
          have hle := le_secondOfThree hfirst.1 hfirst.2 hb
          have hvalue : 64 * (64 * (a.toNat % 16) + b.toNat % 64) + d.toNat % 64 = c.toNat :=
            eq_toNat_of_ofNat_eq (by simpa [passing, character, hb, hd] using h) hpos
          omega
        · simp [passing, hb, hd]
      · simp [passing, hb]
  | case4 hone htwo hthree hfour =>
    simp only [Bool.and_eq_true, decide_eq_true_eq, UInt8.le_iff_toNat_le] at hfour
    have hfirst : 0xF0 ≤ a.toNat ∧ a.toNat ≤ 0xF4 := hfour
    match rest with
    | [] => simp [passing]
    | [b] => by_cases hb : secondOfFour a b = true <;> simp [passing, hb]
    | [b, d] =>
      by_cases hb : secondOfFour a b = true <;> by_cases hd : continues d = true <;>
        simp [passing, hb, hd]
    | b :: d :: e :: bs =>
      by_cases hb : secondOfFour a b = true
      · by_cases hd : continues d = true
        · by_cases he : continues e = true
          · intro h
            have hle := le_secondOfFour hfirst.1 hfirst.2 hb
            have hvalue : 64 * (64 * (64 * (a.toNat % 8) + b.toNat % 64) + d.toNat % 64) +
                e.toNat % 64 = c.toNat :=
              eq_toNat_of_ofNat_eq (by simpa [passing, character, hb, hd, he] using h) hpos
            omega
          · simp [passing, hb, hd, he]
        · simp [passing, hb, hd]
      · simp [passing, hb]
  | case5 => nofun

end SyntheticLog.Utf8
