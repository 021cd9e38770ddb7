import SyntheticLog.Proofs.Record.Framing

/-!
# The form of a line

The line of a record of the domain has one fixed form, with a canonical decimal for each number and a
word of the pool for each text, and its length varies little.

* `Decimal.Canonical`: decimal digits with no zero too many.
* `Record.form`, `Record.HasForm`: the form of a line without the newline behind it.
* `Record.hasForm_lineBytes`, `Record.length_lineBytes`: lines have the form, and 48 to 82 bytes.
* `Record.size_lines`: the size of a file of records.
-/

set_option autoImplicit false

namespace SyntheticLog

/-! ## Canonical decimals -/

namespace Decimal

structure Canonical (ds : List Char) (n : Nat) : Prop where
  digits : ∀ c ∈ ds, c.isDigit = true
  front : ds = ['0'] ∨ ∃ c cs, ds = c :: cs ∧ c ≠ '0'
  value : ds.foldl (fun v c => 10 * v + (c.toNat - '0'.toNat)) 0 = n

theorem canonical_ofNat (n : Nat) : Canonical (ofNat n) n where
  digits c hc := by
    have hall : ∀ d < 10, (digit d).isDigit = true := by decide
    obtain ⟨d, hd, rfl⟩ := exists_digit_of_mem n hc
    exact hall d hd
  front := by
    rcases Nat.eq_zero_or_pos n with rfl | hn
    · exact Or.inl (ofNat_of_lt (by omega))
    · obtain ⟨d, ds, hpos, hlt, hds⟩ := ofNat_pos n hn
      exact Or.inr ⟨digit d, ds, hds, digit_ne_zero hpos hlt⟩
  value := Json.decimalValue_ofNat n

/-! ### Lengths -/

theorem length_ofNat_of_lt {n : Nat} (h : n < 10) : (ofNat n).length = 1 := by
  rw [ofNat_of_lt h, List.length_singleton]

theorem length_ofNat_of_le {n : Nat} (h : 10 ≤ n) :
    (ofNat n).length = (ofNat (n / 10)).length + 1 := by
  rw [ofNat_of_le h, List.length_append, List.length_singleton]

theorem length_ofNat_pos (n : Nat) : 1 ≤ (ofNat n).length :=
  List.length_pos_iff.2 (ofNat_ne_nil n)

/-- A number below a power of ten has at most as many digits as the power has zeros. -/
theorem length_ofNat_le {n k : Nat} (hk : 0 < k) (h : n < 10 ^ k) : (ofNat n).length ≤ k := by
  induction k generalizing n with
  | zero => omega
  | succ k ih =>
    rcases Nat.lt_or_ge n 10 with hn | hn
    · rw [length_ofNat_of_lt hn]
      omega
    · have hk : 0 < k := by
        rcases Nat.eq_zero_or_pos k with rfl | hk
        · omega
        · exact hk
      have hdiv : n / 10 < 10 ^ k := Nat.div_lt_of_lt_mul (by rw [Nat.pow_succ] at h; omega)
      have hlength := ih hk hdiv
      rw [length_ofNat_of_le hn]
      omega

theorem le_length_ofNat {n k : Nat} (h : 10 ^ k ≤ n) : k + 1 ≤ (ofNat n).length := by
  induction k generalizing n with
  | zero => exact length_ofNat_pos n
  | succ k ih =>
    have hpos : 0 < 10 ^ k := Nat.pow_pos (by omega)
    rw [Nat.pow_succ] at h
    have hdiv : 10 ^ k ≤ n / 10 := (Nat.le_div_iff_mul_le (by omega)).2 h
    have hlength := ih hdiv
    rw [length_ofNat_of_le (by omega)]
    omega

theorem length_encode_ofNat (n : Nat) :
    (Utf8.encode (String.ofList (ofNat n))).length = (ofNat n).length := by
  have hone : ∀ d < 10, (String.utf8EncodeChar (digit d)).length = 1 := by decide
  have hall : ∀ c ∈ ofNat n, (String.utf8EncodeChar c).length = 1 := by
    intro c hc
    obtain ⟨d, hd, rfl⟩ := exists_digit_of_mem n hc
    exact hone d hd
  rw [Utf8.encode_eq, String.toList_ofList, List.length_flatMap, List.map_congr_left hall,
    List.map_const', List.sum_replicate_nat, Nat.mul_one]

end Decimal

/-! ## The form of a line -/

namespace Record

/-- The text of an object of two groups: the first with the number `ts` and perhaps the number
`count`, the second with the text `event` and perhaps the text `message`. -/
def form (ts : List Char) (count : Option (List Char)) (event : String) (message : Option String) :
    String :=
  "\x7b\"int\":\x7b\"ts\":" ++ String.ofList ts ++
    (count.elim "" fun c => ",\"count\":" ++ String.ofList c) ++
    "\x7d,\"str\":\x7b\"event\":\"" ++ event ++ "\"" ++
    (message.elim "" fun m => ",\"message\":\"" ++ m ++ "\"") ++ "\x7d\x7d"

/-- The bytes are those of a text of the form, with values of the domain. -/
def HasForm (line : List UInt8) : Prop :=
  ∃ (ts : List Char) (t : Nat) (count : Option (List Char)) (event : String)
      (message : Option String),
    Decimal.Canonical ts t ∧ tsBase ≤ t ∧ t ≤ tsBase + tsMaxOffset ∧
    (∀ ds, count = some ds → ∃ c ≤ countMax, Decimal.Canonical ds c) ∧
    event ∈ events ∧ (∀ m, message = some m → m ∈ messages) ∧
    line = Utf8.encode (form ts count event message)

theorem join_pair {α : Type} (first second : String) (text : List String)
    (texts : α → List String) (o : Option α) (hfirst : Json.escapeFree first = true)
    (hsecond : Json.escapeFree second = true) :
    String.join (object (member true first text ++ memberIfAny second texts o)) =
      "\x7b\"" ++ first ++ "\":" ++ String.join text ++
        (o.elim "" fun x => ",\"" ++ second ++ "\":" ++ String.join (texts x)) ++ "\x7d" := by
  have hopen : "\x7b\"" = "\x7b" ++ "\"" := rfl
  have hcolon : "\":" = "\"" ++ ":" := rfl
  have hcomma : ",\"" = "," ++ "\"" := rfl
  cases o <;>
    simp only [object, member, memberIfAny, Json.join_quoted hfirst, Json.join_quoted hsecond, hopen,
      hcolon, hcomma, Option.elim, if_true, if_false, Bool.false_eq_true, List.cons_append,
      List.nil_append, List.append_nil, List.append_assoc, String.join_cons, String.join_append,
      String.join_nil, String.append_assoc, String.append_empty]

theorem json_eq_form {r : Record} (h : r.InDomain) :
    r.json = form (Decimal.ofInt r.numbers.ts) (r.numbers.count.map Decimal.ofNat) r.texts.event
      r.texts.message := by
  obtain ⟨⟨ts, count⟩, ⟨event, message⟩⟩ := r
  obtain ⟨-, -, hevent, hmessage⟩ := h
  have hone (s : String) : String.join [s] = s := by
    rw [String.join_cons, String.join_nil, String.append_empty]
  have hnumbers := join_pair "ts" "count" [String.ofList (Decimal.ofInt ts)]
    (fun c => [Decimal.text c]) count (by decide) (by decide)
  have htexts := join_pair "event" "message" (Json.quoted event) Json.quoted message (by decide)
    (by decide)
  have hpair := join_pair "int" "str" (numberPieces ⟨ts, count⟩) textPieces (some ⟨event, message⟩)
    (by decide) (by decide)
  have hfree : ∀ s ∈ events ++ messages, Json.escapeFree s = true := by decide
  have hevents := Json.join_quoted (hfree event (List.mem_append_left _ hevent))
  have hmessages (m : String) (hm : message = some m) :=
    Json.join_quoted (hfree m (List.mem_append_right _ (hmessage m hm)))
  -- Both sides are compared as lists of characters: pieces of texts do not meet as strings.
  apply String.toList_injective
  refine (congrArg String.toList hpair).trans ?_
  rw [numberPieces, hnumbers, hone, Option.elim_some, textPieces, htexts, hevents]
  unfold form
  cases count <;> cases message <;>
    simp only [Option.elim, Option.map, hone, hmessages, Decimal.text, String.toList_append,
      List.append_assoc, -String.reduceAppend] <;> rfl

theorem ofInt_of_nonneg {x : Int} (h : 0 ≤ x) : Decimal.ofInt x = Decimal.ofNat x.toNat := by
  have hx : (x.toNat : Int) = x := Int.toNat_of_nonneg h
  rw [← ofInt_natCast, hx]

theorem hasForm_lineBytes {r : Record} (h : r.InDomain) : HasForm r.lineBytes := by
  have hjson := json_eq_form h
  obtain ⟨⟨hlow, hhigh⟩, hcount, hevent, hmessage⟩ := h
  have hbase : 0 ≤ tsBase := by decide
  have hts : (r.numbers.ts.toNat : Int) = r.numbers.ts := Int.toNat_of_nonneg (by omega)
  rw [ofInt_of_nonneg (by omega)] at hjson
  refine ⟨_, r.numbers.ts.toNat, _, _, _, Decimal.canonical_ofNat _, by omega, by omega, ?_, hevent,
    hmessage, congrArg Utf8.encode hjson⟩
  intro ds hds
  obtain ⟨c, hc, rfl⟩ := Option.map_eq_some_iff.1 hds
  exact ⟨c, hcount c hc, Decimal.canonical_ofNat c⟩

/-! ## Lengths of lines -/

theorem length_encode_form (ts : List Char) (count : Option (List Char)) (event : String)
    (message : Option String) :
    (Utf8.encode (form ts count event message)).length =
      34 + (Utf8.encode (String.ofList ts)).length +
        (count.elim 0 fun c => 9 + (Utf8.encode (String.ofList c)).length) +
        (Utf8.encode event).length +
        (message.elim 0 fun m => 13 + (Utf8.encode m).length) := by
  have hfirst : (Utf8.encode "\x7b\"int\":\x7b\"ts\":").length = 13 := by decide
  have hcount : (Utf8.encode ",\"count\":").length = 9 := by decide
  have hnext : (Utf8.encode "\x7d,\"str\":\x7b\"event\":\"").length = 18 := by decide
  have hmessage : (Utf8.encode ",\"message\":\"").length = 12 := by decide
  have hquote : (Utf8.encode "\"").length = 1 := by decide
  have hclose : (Utf8.encode "\x7d\x7d").length = 2 := by decide
  have hempty : (Utf8.encode "").length = 0 := by decide
  unfold form
  cases count <;> cases message <;>
    simp only [Option.elim, Utf8.encode_append, List.length_append, hfirst, hcount, hnext, hmessage,
      hquote, hclose, hempty, -String.reduceAppend] <;> omega

theorem length_lineBytes {r : Record} (h : r.InDomain) :
    48 ≤ r.lineBytes.length ∧ r.lineBytes.length ≤ 82 := by
  have hjson := json_eq_form h
  obtain ⟨⟨hlow, hhigh⟩, hcount, hevent, hmessage⟩ := h
  have hevents : ∀ s ∈ events, 4 ≤ (Utf8.encode s).length ∧ (Utf8.encode s).length ≤ 9 := by decide
  have hmessages : ∀ s ∈ messages, (Utf8.encode s).length ≤ 3 := by decide
  have hbase : tsBase = 1641672504 := rfl
  have hoffset : tsMaxOffset = 100000 := rfl
  have hcountMax : countMax = 1000 := rfl
  have hts : 10 ≤ (Decimal.ofNat r.numbers.ts.toNat).length :=
    Decimal.le_length_ofNat (k := 9) (by omega)
  have hts' : (Decimal.ofNat r.numbers.ts.toNat).length ≤ 10 :=
    Decimal.length_ofNat_le (by omega) (by omega)
  have he := hevents _ hevent
  have hcounts : ((r.numbers.count.map Decimal.ofNat).elim 0 fun c =>
      9 + (Utf8.encode (String.ofList c)).length) ≤ 13 := by
    cases hc : r.numbers.count with
    | none => exact Nat.zero_le 13
    | some c =>
      have hle := hcount c hc
      have hdigits : (Decimal.ofNat c).length ≤ 4 := Decimal.length_ofNat_le (by omega) (by omega)
      rw [Option.map_some, Option.elim_some, Decimal.length_encode_ofNat]
      omega
  have htexts : (r.texts.message.elim 0 fun m => 13 + (Utf8.encode m).length) ≤ 16 := by
    cases hm : r.texts.message with
    | none => exact Nat.zero_le 16
    | some m =>
      have hle := hmessages m (hmessage m hm)
      rw [Option.elim_some]
      omega
  rw [ofInt_of_nonneg (by omega)] at hjson
  rw [lineBytes, hjson, length_encode_form, Decimal.length_encode_ofNat]
  omega

theorem size_lines {rs : List Record} (h : ∀ r ∈ rs, r.InDomain) :
    49 * rs.length ≤ (lines rs).size ∧ (lines rs).size ≤ 83 * rs.length := by
  have hsize : (lines rs).size = (lines rs).data.toList.length := by
    rw [ByteArray.size, Array.length_toList]
  rw [hsize, toList_lines]
  clear hsize
  induction rs with
  | nil => exact ⟨Nat.le_refl 0, Nat.le_refl 0⟩
  | cons r rs ih =>
    obtain ⟨hlow, hhigh⟩ := length_lineBytes (h r List.mem_cons_self)
    obtain ⟨ihlow, ihhigh⟩ := ih fun r' hr' => h r' (List.mem_cons_of_mem r hr')
    rw [List.map_cons, List.flatMap_cons, List.length_append, List.length_append,
      List.length_singleton, List.length_cons]
    omega

end Record

end SyntheticLog
