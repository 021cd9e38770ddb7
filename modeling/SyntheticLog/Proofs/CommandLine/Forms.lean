import SyntheticLog.CommandLine.Scan

/-!
# The forms of arguments by their spelling

* `Token.spelled`, `Token.spelled_ofArgument`: a form gives its argument back.
* `Token.ofArgument_eq_plain_iff`: the texts that are no flags.
* `Token.ofArgument_seed`, `Token.ofArgument_seedEquals`: the two ways to give a seed.
-/

set_option autoImplicit false

namespace SyntheticLog.CommandLine

/-- One dash alone, or a text that does not start with a dash. -/
def IsPlain (text : Bytes) : Prop := text = [Token.dash] ∨ text.head? ≠ some Token.dash

namespace Token

/-! ## Spelling -/

/-- The argument of a form. -/
def spelled : Token → Bytes
  | .dashes => [dash, dash]
  | .long name none => dash :: dash :: name
  | .long name (some value) => dash :: dash :: (name ++ equals :: value)
  | .short flags => dash :: flags
  | .plain text => text

theorem spelled_ofLong (body : Bytes) : (ofLong body).spelled = dash :: dash :: body := by
  have hsplit := List.takeWhile_append_dropWhile (p := (· != equals)) (l := body)
  have hhead := List.head?_dropWhile_not (· != equals) body
  have hdrop : body.drop (body.takeWhile (· != equals)).length = body.dropWhile (· != equals) := by
    generalize body.takeWhile (· != equals) = name, body.dropWhile (· != equals) = rest at hsplit ⊢
    rw [← hsplit, List.drop_left]
  simp only [ofLong, hdrop]
  cases hrest : body.dropWhile (· != equals) with
  | nil =>
    rw [hrest, List.append_nil] at hsplit
    rw [spelled, hsplit]
  | cons c value =>
    rw [hrest] at hsplit hhead
    have hc : c = equals := by simpa using hhead
    rw [hc] at hsplit
    rw [spelled, hsplit]

theorem spelled_ofArgument (argument : Bytes) : (ofArgument argument).spelled = argument := by
  fun_cases ofArgument argument with
  | case1 => rfl
  | case2 => rfl
  | case3 cs hcs =>
    rw [List.isEmpty_iff.1 hcs]
    rfl
  | case4 cs hcs => exact spelled_ofLong cs
  | case5 b cs hb => rfl
  | case6 a bs ha => rfl

/-! ## Plain texts -/

theorem not_isPlain {b : UInt8} {bs : Bytes} : ¬IsPlain (dash :: b :: bs) := by
  rintro (h | h)
  · cases h
  · exact h rfl

theorem ofLong_ne_plain (body text : Bytes) : ofLong body ≠ .plain text := by
  rw [ofLong]
  cases body.drop (body.takeWhile (· != equals)).length with
  | nil => nofun
  | cons c value => nofun

theorem ofArgument_eq_plain_iff {text : Bytes} : ofArgument text = .plain text ↔ IsPlain text := by
  fun_cases ofArgument text with
  | case1 => exact iff_of_true rfl (.inr nofun)
  | case2 => exact iff_of_true rfl (.inl rfl)
  | case3 cs hcs => exact iff_of_false nofun not_isPlain
  | case4 cs hcs => exact iff_of_false (ofLong_ne_plain cs _) not_isPlain
  | case5 b cs hb => exact iff_of_false nofun not_isPlain
  | case6 a bs ha => exact iff_of_true rfl (.inr fun h => ha (Option.some.inj h))

/-! ## Flags -/

theorem ofArgument_dashes : ofArgument (Utf8.encode "--") = .dashes := by decide

theorem ofArgument_seed :
    ofArgument (Utf8.encode "--seed") = .long (Utf8.encode "seed") none := by decide

theorem ofArgument_seedEquals (value : Bytes) :
    ofArgument (Utf8.encode "--seed=" ++ value) = .long (Utf8.encode "seed") (some value) := rfl

end Token

end SyntheticLog.CommandLine
