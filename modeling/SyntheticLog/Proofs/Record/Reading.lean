import SyntheticLog.Proofs.Json.Objects
import SyntheticLog.Record.Json

/-!
# Reading back records

* `Record.spells_json`: the compact text of a record stands for an object of two groups.
* `Record.ofLine?_json`: the record is read back from it.
* `Record.le_of_mem_json`: the text has no control characters.
-/

set_option autoImplicit false

namespace SyntheticLog

open Json (Member Value objectChars Spells)

/-! ## Groups as objects -/

def Numbers.value (n : Numbers) : Value :=
  .object (("ts".toList, .int n.ts) :: (n.count.map fun c => ("count".toList, .int c)).toList)

def Texts.value (t : Texts) : Value :=
  .object (("event".toList, .string t.event.toList) ::
    (t.message.map fun m => ("message".toList, .string m.toList)).toList)

namespace Record

def value (r : Record) : Value :=
  .object [("int".toList, r.numbers.value), ("str".toList, r.texts.value)]

/-! ## Pieces put together -/

theorem toList_join_object (ms : List String) :
    (String.join (object ms)).toList = '\x7b' :: ((String.join ms).toList ++ ['\x7d']) := by
  rw [object, List.cons_append, String.join_cons, String.join_append, String.toList_append,
    String.toList_append]
  rfl

theorem toList_join_member (key : String) (text : List String) (v : Value) :
    (String.join (member true key text)).toList =
      Member.chars ⟨key, (String.join text).toList, v⟩ := by
  rw [member, if_pos rfl, List.nil_append, String.join_append, String.toList_append,
    Json.toList_join_quoted, String.join_cons, String.toList_append, Member.chars,
    List.cons_append, List.append_assoc]
  rfl

theorem toList_join_next (key : String) (text : List String) (v : Value) :
    (String.join (member false key text)).toList =
      ',' :: Member.chars ⟨key, (String.join text).toList, v⟩ := by
  have hnext : member false key text = "," :: member true key text := rfl
  rw [hnext, String.join_cons, String.toList_append, toList_join_member key text v]
  rfl

theorem spells_pair {α : Type} (first second : String) {text : List String} {v : Value}
    (h : Spells (String.join text).toList v) {texts : α → List String} {values : α → Value}
    (hs : ∀ x, Spells (String.join (texts x)).toList (values x)) (o : Option α) :
    Spells (String.join (object (member true first text ++ memberIfAny second texts o))).toList
      (.object ((first.toList, v) :: (o.map fun x => (second.toList, values x)).toList)) := by
  have hmember := toList_join_member first text v
  rw [toList_join_object, String.join_append, String.toList_append, hmember]
  cases o with
  | none =>
    have hobject := @Json.spells_object ⟨first, (String.join text).toList, v⟩ []
    rw [memberIfAny, String.join_nil, String.toList_empty, List.append_nil]
    refine hobject ?_
    intro m hm
    rw [List.mem_singleton.1 hm]
    exact h
  | some x =>
    have hobject := @Json.spells_object ⟨first, (String.join text).toList, v⟩
      [⟨second, (String.join (texts x)).toList, values x⟩]
    rw [memberIfAny, toList_join_next second (texts x) (values x)]
    refine hobject ?_
    intro m hm
    rw [List.mem_cons, List.mem_singleton] at hm
    rcases hm with rfl | rfl
    · exact h
    · exact hs x

/-! ## Records -/

theorem ofInt_natCast (n : Nat) : Decimal.ofInt n = Decimal.ofNat n := by
  rw [Decimal.ofInt, if_neg (by omega), Int.natAbs_natCast]

theorem toList_join_singleton (s : String) : (String.join [s]).toList = s.toList := by
  rw [String.join_cons, String.join_nil, String.append_empty]

theorem spells_numberPieces (n : Numbers) :
    Spells (String.join (numberPieces n)).toList n.value := by
  have hts : Spells (String.join [String.ofList (Decimal.ofInt n.ts)]).toList (.int n.ts) := by
    rw [toList_join_singleton, String.toList_ofList]
    exact Json.spells_int n.ts
  have hcount (c : Nat) : Spells (String.join [Decimal.text c]).toList (.int c) := by
    rw [toList_join_singleton, Decimal.text, String.toList_ofList, ← ofInt_natCast]
    exact Json.spells_int c
  exact spells_pair "ts" "count" hts hcount n.count

theorem spells_quoted (s : String) :
    Spells (String.join (Json.quoted s)).toList (.string s.toList) := by
  rw [Json.toList_join_quoted]
  exact Json.spells_string s.toList

theorem spells_textPieces (t : Texts) : Spells (String.join (textPieces t)).toList t.value :=
  spells_pair "event" "message" (spells_quoted t.event) spells_quoted t.message

theorem spells_json (r : Record) : Spells r.json.toList r.value :=
  spells_pair "int" "str" (spells_numberPieces r.numbers) spells_textPieces (some r.texts)

theorem ofJson?_value (r : Record) : ofJson? r.value = some r := by
  obtain ⟨⟨ts, count⟩, ⟨event, message⟩⟩ := r
  cases count <;> cases message <;>
    simp [value, Numbers.value, Texts.value, ofJson?, numbersOfJson?, textsOfJson?, fields, ifAny,
      countOfJson?, textOfJson?]

theorem ofLine?_json (r : Record) : ofLine? r.json.toList = some r := by
  rw [ofLine?, (spells_json r).read?, Option.bind_eq_bind, Option.bind_some, ofJson?_value]

/-! ## No control characters -/

/-- No character of the pieces is below the blank. -/
def Plain (texts : List String) : Prop := ∀ c ∈ (String.join texts).toList, 32 ≤ c.toNat

theorem Plain.cons {s : String} {texts : List String} (h : Plain texts) {c : Char}
    (hs : s.toList = [c]) (hc : 32 ≤ c.toNat) : Plain (s :: texts) := by
  intro d hd
  rw [String.join_cons, String.toList_append, hs, List.mem_append, List.mem_singleton] at hd
  rcases hd with rfl | hd
  · exact hc
  · exact h d hd

theorem Plain.append {texts texts' : List String} (h : Plain texts) (h' : Plain texts') :
    Plain (texts ++ texts') := by
  intro c hc
  rw [String.join_append, String.toList_append, List.mem_append] at hc
  exact hc.elim (h c) (h' c)

theorem plain_nil : Plain [] := by
  intro c hc
  rw [String.join_nil, String.toList_empty] at hc
  cases hc

theorem le_digit {d : Nat} (h : d < 16) : 32 ≤ (Decimal.digit d).toNat := by
  have hall : ∀ d < 16, 32 ≤ (Decimal.digit d).toNat := by decide
  exact hall d h

theorem le_of_mem_spelled {c d : Char} (h : d ∈ Json.spelled c) : 32 ≤ d.toNat := by
  have hbackslash : 32 ≤ '\\'.toNat := by decide
  rw [Json.spelled, Json.escape?] at h
  cases hletter : Json.letter? c with
  | some l =>
    have hl : 32 ≤ l.toNat := by
      unfold Json.letter? at hletter
      split at hletter <;> cases hletter <;> decide
    rw [hletter] at h
    simp only [Option.getD_some, List.mem_cons, List.not_mem_nil, or_false] at h
    rcases h with rfl | rfl
    · exact hbackslash
    · exact hl
  | none =>
    rw [hletter] at h
    by_cases hc : c.toNat < 32
    · have hu : 32 ≤ 'u'.toNat := by decide
      have hzero : 32 ≤ '0'.toNat := by decide
      simp only [if_pos hc, Option.getD_some, List.mem_cons, List.not_mem_nil, or_false] at h
      rcases h with rfl | rfl | rfl | rfl | rfl | rfl
      · exact hbackslash
      · exact hu
      · exact hzero
      · exact hzero
      · exact le_digit (by omega)
      · exact le_digit (by omega)
    · simp only [if_neg hc, Option.getD_none, List.mem_singleton] at h
      rw [h]
      omega

theorem plain_quoted (s : String) : Plain (Json.quoted s) := by
  have hquote : 32 ≤ '"'.toNat := by decide
  intro c hc
  rw [Json.toList_join_quoted, List.mem_cons, List.mem_append, List.mem_singleton,
    List.mem_flatMap] at hc
  rcases hc with rfl | ⟨d, -, hd⟩ | rfl
  · exact hquote
  · exact le_of_mem_spelled hd
  · exact hquote

theorem plain_member (first : Bool) (key : String) {texts : List String} (h : Plain texts) :
    Plain (member first key texts) := by
  have hcolon : Plain (":" :: texts) := h.cons (c := ':') rfl (by decide)
  have hcomma : Plain [","] := plain_nil.cons (c := ',') rfl (by decide)
  cases first with
  | false => exact (hcomma.append (plain_quoted key)).append hcolon
  | true => exact (plain_nil.append (plain_quoted key)).append hcolon

theorem plain_pair {α : Type} (first second : String) {texts : List String} (h : Plain texts)
    {rest : α → List String} (hs : ∀ x, Plain (rest x)) (o : Option α) :
    Plain (object (member true first texts ++ memberIfAny second rest o)) := by
  have hrest : Plain (memberIfAny second rest o) := by
    cases o with
    | none => exact plain_nil
    | some x => exact plain_member false second (hs x)
  have hclose : Plain ["\x7d"] := plain_nil.cons (c := '\x7d') rfl (by decide)
  have hmembers := (plain_member true first h).append hrest
  exact (hmembers.cons (c := '\x7b') rfl (by decide)).append hclose

theorem plain_ofNat (n : Nat) : Plain [Decimal.text n] := by
  intro c hc
  rw [toList_join_singleton, Decimal.text, String.toList_ofList] at hc
  obtain ⟨d, hd, rfl⟩ := Decimal.exists_digit_of_mem n hc
  exact le_digit (by omega)

theorem plain_ofInt (x : Int) : Plain [String.ofList (Decimal.ofInt x)] := by
  intro c hc
  rw [toList_join_singleton, String.toList_ofList, Decimal.ofInt] at hc
  have hdigits (h : c ∈ Decimal.ofNat x.natAbs) : 32 ≤ c.toNat := by
    obtain ⟨d, hd, rfl⟩ := Decimal.exists_digit_of_mem x.natAbs h
    exact le_digit (by omega)
  split at hc
  · have hminus : 32 ≤ '-'.toNat := by decide
    rw [List.mem_cons] at hc
    rcases hc with rfl | hc
    · exact hminus
    · exact hdigits hc
  · exact hdigits hc

theorem le_of_mem_json (r : Record) {c : Char} (h : c ∈ r.json.toList) : 32 ≤ c.toNat := by
  have hnumbers : Plain (numberPieces r.numbers) :=
    plain_pair "ts" "count" (plain_ofInt r.numbers.ts) plain_ofNat r.numbers.count
  have htexts (t : Texts) : Plain (textPieces t) :=
    plain_pair "event" "message" (plain_quoted t.event) plain_quoted t.message
  exact plain_pair "int" "str" hnumbers htexts (some r.texts) c h

end Record

end SyntheticLog
