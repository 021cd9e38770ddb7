import Mathlib.Tactic.IntervalCases
import SyntheticLog.Proofs.Json.Integers
import SyntheticLog.Proofs.Json.Strings

/-!
# Reading back objects

A compact object is put together from texts that each stand for a value.

* `Json.Spells`: a text stands for a value, whatever ends it.
* `Json.Member.joined`: the members of an object with commas between them.
* `Json.spells_object`: the text of an object is read back, if those of its members are.
-/

set_option autoImplicit false

namespace SyntheticLog.Json

/-- The text stands for the value: it is read as that in any text that goes on behind it. -/
structure Spells (text : List Char) (v : Value) : Prop where
  front : ∀ behind, dropBlanks (text ++ behind) = text ++ behind
  read : ∀ (fuel : Nat) (behind : List Char), text.length ≤ fuel → EndsNumber behind →
    value fuel (text ++ behind) = some (v, behind)

theorem endsNumber_nil : EndsNumber [] := by
  intro c cs h
  cases h

theorem endsNumber_comma (cs : List Char) : EndsNumber (',' :: cs) := by
  intro c cs' h
  cases h
  decide

theorem endsNumber_brace (cs : List Char) : EndsNumber ('\x7d' :: cs) := by
  intro c cs' h
  cases h
  decide

/-! ## Leaves -/

theorem value_quote (fuel : Nat) (cs : List Char) :
    value (fuel + 1) ('"' :: cs) = (string ('"' :: cs)).map fun p => (.string p.1, p.2) := rfl

theorem spells_string (s : List Char) :
    Spells ('"' :: (s.flatMap spelled ++ ['"'])) (.string s) := by
  refine ⟨fun behind => rfl, ?_⟩
  intro fuel behind hfuel hend
  rw [List.length_cons] at hfuel
  obtain ⟨fuel, rfl⟩ : ∃ k, fuel = k + 1 := ⟨fuel - 1, by omega⟩
  rw [List.cons_append, List.append_assoc, List.singleton_append, value_quote, string_spelled]
  rfl

theorem value_digit {d : Nat} (h : d < 10) (fuel : Nat) (cs : List Char) :
    value (fuel + 1) (Decimal.digit d :: cs) = number (Decimal.digit d :: cs) := by
  interval_cases d <;> rfl

theorem dropBlanks_digit {d : Nat} (h : d < 10) (cs : List Char) :
    dropBlanks (Decimal.digit d :: cs) = Decimal.digit d :: cs := by
  interval_cases d <;> rfl

theorem spells_int (x : Int) : Spells (Decimal.ofInt x) (.int x) := by
  have hfront : (∃ cs, Decimal.ofInt x = '-' :: cs) ∨
      ∃ d cs, d < 10 ∧ Decimal.ofInt x = Decimal.digit d :: cs := by
    rw [Decimal.ofInt]
    split
    · exact Or.inl ⟨_, rfl⟩
    · obtain ⟨c, cs, hcs⟩ := List.exists_cons_of_ne_nil (Decimal.ofNat_ne_nil x.natAbs)
      obtain ⟨d, hd, rfl⟩ := Decimal.exists_digit_of_mem x.natAbs (c := c) (by simp [hcs])
      exact Or.inr ⟨d, cs, hd, hcs⟩
  constructor
  · intro behind
    rcases hfront with ⟨cs, hcs⟩ | ⟨d, cs, hd, hcs⟩
    · rw [hcs]
      rfl
    · rw [hcs, List.cons_append, dropBlanks_digit hd]
  · intro fuel behind hfuel hend
    have hnumber := number_ofInt x hend
    rcases hfront with ⟨cs, hcs⟩ | ⟨d, cs, hd, hcs⟩
    · rw [hcs, List.length_cons] at hfuel
      obtain ⟨fuel, rfl⟩ : ∃ k, fuel = k + 1 := ⟨fuel - 1, by omega⟩
      rw [hcs, List.cons_append] at hnumber ⊢
      exact hnumber
    · rw [hcs, List.length_cons] at hfuel
      obtain ⟨fuel, rfl⟩ : ∃ k, fuel = k + 1 := ⟨fuel - 1, by omega⟩
      rw [hcs, List.cons_append] at hnumber ⊢
      rw [value_digit hd]
      exact hnumber

/-! ## Members -/

/-- A member of an object: its key, and a text for its value. -/
structure Member where
  key : String
  text : List Char
  value : Value

namespace Member

def chars (m : Member) : List Char :=
  '"' :: (m.key.toList.flatMap spelled ++ '"' :: ':' :: m.text)

def joined : Member → List Member → List Char
  | m, [] => m.chars
  | m, m' :: ms => m.chars ++ ',' :: joined m' ms

def entry (m : Member) : List Char × Value := (m.key.toList, m.value)

theorem chars_append (m : Member) (behind : List Char) :
    m.chars ++ behind =
      '"' :: (m.key.toList.flatMap spelled ++ '"' :: ':' :: (m.text ++ behind)) := by
  rw [chars, List.cons_append, List.append_assoc, List.cons_append, List.cons_append]

theorem length_text_lt (m : Member) : m.text.length + 3 ≤ m.chars.length := by
  rw [chars, List.length_cons, List.length_append, List.length_cons, List.length_cons]
  omega

theorem members_chars {m : Member} (h : Spells m.text m.value) {fuel : Nat}
    (hfuel : m.text.length ≤ fuel) (behind : List Char) (hend : EndsNumber behind) :
    members (fuel + 1) (m.chars ++ behind) =
      match dropBlanks behind with
      | ',' :: rest => do
        let (ms, rest) ← members fuel (dropBlanks rest)
        return (m.entry :: ms, rest)
      | '\x7d' :: rest => return ([m.entry], rest)
      | _ => none := by
  have hcolon : literal [':'] (dropBlanks (':' :: (m.text ++ behind))) =
      some (m.text ++ behind) := rfl
  rw [chars_append, members, string_spelled, Option.bind_eq_bind, Option.bind_some]
  show (literal [':'] (dropBlanks (':' :: (m.text ++ behind))) >>= _) = _
  rw [hcolon, Option.bind_eq_bind, Option.bind_some, h.front, h.read fuel behind hfuel hend]
  rfl

theorem front_joined (m : Member) (ms : List Member) (behind : List Char) :
    dropBlanks (joined m ms ++ behind) = joined m ms ++ behind := by
  cases ms <;> rfl

theorem members_joined (m : Member) (ms : List Member) (h : ∀ m' ∈ m :: ms, Spells m'.text m'.value)
    (fuel : Nat) (behind : List Char) (hfuel : (joined m ms).length < fuel) :
    members fuel (joined m ms ++ '\x7d' :: behind) = some ((m :: ms).map entry, behind) := by
  obtain ⟨fuel, rfl⟩ : ∃ k, fuel = k + 1 := ⟨fuel - 1, by omega⟩
  have hm := h m List.mem_cons_self
  have htext := length_text_lt m
  -- A member takes one unit of fuel and more characters than one, so the fuel lasts.
  induction ms generalizing m fuel with
  | nil =>
    rw [joined] at hfuel ⊢
    rw [members_chars hm (by omega) _ (endsNumber_brace behind)]
    rfl
  | cons m' ms ih =>
    rw [joined, List.length_append, List.length_cons] at hfuel
    obtain ⟨fuel, rfl⟩ : ∃ k, fuel = k + 1 := ⟨fuel - 1, by omega⟩
    have htail := ih m' (fun x hx => h x (List.mem_cons_of_mem m hx)) fuel (by omega)
      (h m' (List.mem_cons_of_mem m List.mem_cons_self)) (length_text_lt m')
    rw [joined, List.append_assoc, List.cons_append,
      members_chars hm (by omega) _ (endsNumber_comma _)]
    show (members (fuel + 1) (dropBlanks (joined m' ms ++ '\x7d' :: behind)) >>= _) = _
    rw [front_joined, htail]
    rfl

end Member

/-! ## Objects -/

def objectChars (m : Member) (ms : List Member) : List Char :=
  '\x7b' :: (m.joined ms ++ ['\x7d'])

theorem value_brace (m : Member) (ms : List Member) (fuel : Nat) (behind : List Char) :
    value (fuel + 1) ('\x7b' :: (m.joined ms ++ behind)) =
      (members fuel (m.joined ms ++ behind)).map fun p => (.object p.1, p.2) := by
  cases ms <;> rfl

theorem spells_object {m : Member} {ms : List Member}
    (h : ∀ m' ∈ m :: ms, Spells m'.text m'.value) :
    Spells (objectChars m ms) (.object ((m :: ms).map Member.entry)) := by
  refine ⟨fun behind => rfl, ?_⟩
  intro fuel behind hfuel hend
  rw [objectChars, List.length_cons, List.length_append, List.length_singleton] at hfuel
  obtain ⟨fuel, rfl⟩ : ∃ k, fuel = k + 1 := ⟨fuel - 1, by omega⟩
  rw [objectChars, List.cons_append, List.append_assoc, List.singleton_append, value_brace,
    Member.members_joined m ms h fuel behind (by omega)]
  rfl

theorem Spells.read? {text : List Char} {v : Value} (h : Spells text v) :
    Value.read? text = some v := by
  have hfront := h.front []
  have hread := h.read (text.length + 1) [] (Nat.le_succ _) endsNumber_nil
  rw [List.append_nil] at hfront hread
  rw [Value.read?, hfront, hread]
  rfl

end SyntheticLog.Json
