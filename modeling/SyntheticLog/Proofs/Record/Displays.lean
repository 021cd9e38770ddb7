import SyntheticLog.Proofs.Record.Quotation
import SyntheticLog.Proofs.Record.Reading

/-!
# Reading back displays

The two displays of a record have the same words and differ in what stands between them: blanks or
line breaks, and a comma behind the last field. One reader, which passes over all of this, reads
both.

* `Record.words`, `Record.close`: what is passed over.
* `Record.Reads`: a reader takes a text for a value, with gaps in front.
* `Record.reads_some`, `Record.reads_pair`: values that may be missing and groups are read, whatever
  the gaps in them are.
* `Record.displays_readable`: a record is read back from both displays.
-/

set_option autoImplicit false

namespace SyntheticLog

theorem Json.literal_append (w cs : List Char) : literal w (w ++ cs) = some cs := by
  induction w with
  | nil => rfl
  | cons c w ih => rw [List.cons_append, literal, if_pos rfl, ih]

namespace Record

open Json (Reader EndsNumber dropBlanks literal)

/-! ## Gaps -/

/-- What may stand between two words. -/
def Gap (gap : List Char) : Prop := ∀ c ∈ gap, c = ' ' ∨ c = '\n'

theorem gap_nil : Gap [] := by
  intro c hc
  cases hc

theorem gap_blank : Gap [' '] := by
  intro c hc
  exact Or.inl (List.mem_singleton.1 hc)

theorem gap_lineBreak (level : Nat) : Gap (lineBreak level) := by
  intro c hc
  rw [lineBreak, List.mem_cons] at hc
  rcases hc with rfl | hc
  · exact Or.inr rfl
  · exact Or.inl (List.eq_of_mem_replicate hc)

theorem dropBlanks_gap {gap : List Char} (h : Gap gap) (cs : List Char) :
    dropBlanks (gap ++ cs) = dropBlanks cs := by
  refine List.dropWhile_append_of_pos ?_
  intro c hc
  rcases h c hc with rfl | rfl <;> rfl

theorem endsNumber_gap {gap cs : List Char} (h : Gap gap) (hcs : EndsNumber cs) :
    EndsNumber (gap ++ cs) := by
  cases gap with
  | nil => exact hcs
  | cons c gap =>
    intro c' cs' hcons
    obtain ⟨rfl, -⟩ := List.cons.inj hcons
    rcases h c List.mem_cons_self with rfl | rfl <;> decide

/-! ## Words -/

/-- Passes over words and the gaps in front of them. -/
def words : List String → List Char → Option (List Char)
  | [], cs => some cs
  | w :: ws, cs => (literal w.toList (dropBlanks cs)).bind (words ws)

/-- No gap is part of the word at its front. -/
def Bare (w : String) : Prop := ∀ cs, dropBlanks (w.toList ++ cs) = w.toList ++ cs

theorem words_cons {gap : List Char} {w : String} (hgap : Gap gap) (hw : Bare w) (ws : List String)
    (cs : List Char) : words (w :: ws) (gap ++ (w.toList ++ cs)) = words ws cs := by
  rw [words, dropBlanks_gap hgap, hw, Json.literal_append, Option.bind_some]

theorem word_append {gap : List Char} {w : String} (hgap : Gap gap) (hw : Bare w)
    (cs : List Char) : words [w] (gap ++ (w.toList ++ cs)) = some cs := by
  rw [words_cons hgap hw, words]

/-- Passes over a word that may have a comma in front. -/
def close (w : String) (cs : List Char) : Option (List Char) :=
  words [w] ((words [","] cs).getD cs)

structure Closing (w : String) : Prop where
  bare : Bare w
  ends : ∀ cs, EndsNumber (w.toList ++ cs)
  noComma : ∀ cs, literal [','] (w.toList ++ cs) = none

theorem closing_brace : Closing "\x7d" := ⟨fun _ => rfl, Json.endsNumber_brace, fun _ => rfl⟩

theorem closing_parenthesis : Closing ")" where
  bare _ := rfl
  ends cs c cs' h := by
    cases h
    decide
  noComma _ := rfl

/-- The text of a closing word, with a gap and perhaps a comma in front. -/
def Closes (w : String) (text : List Char) : Prop :=
  ∃ gap, Gap gap ∧ (text = gap ++ w.toList ∨ text = ',' :: (gap ++ w.toList))

section Closes
variable {w : String} {text : List Char}

theorem Closes.close_append (h : Closes w text) (hw : Closing w) (behind : List Char) :
    close w (text ++ behind) = some behind := by
  obtain ⟨gap, hgap, htext⟩ := h
  have hword := word_append hgap hw.bare behind
  rcases htext with rfl | rfl
  · have hcomma : words [","] (gap ++ (w.toList ++ behind)) = none := by
      rw [words, dropBlanks_gap hgap, hw.bare]
      exact congrArg (Option.bind · _) (hw.noComma behind)
    rw [List.append_assoc, close, hcomma, Option.getD_none, hword]
  · have hcomma : words [","] (',' :: (gap ++ (w.toList ++ behind))) =
        some (gap ++ (w.toList ++ behind)) := rfl
    rw [List.cons_append, List.append_assoc, close, hcomma, Option.getD_some, hword]

theorem Closes.endsNumber (h : Closes w text) (hw : Closing w) (behind : List Char) :
    EndsNumber (text ++ behind) := by
  obtain ⟨gap, hgap, rfl | rfl⟩ := h
  · rw [List.append_assoc]
    exact endsNumber_gap hgap (hw.ends behind)
  · exact Json.endsNumber_comma _

end Closes

/-! ## Readers -/

section Readers
variable {α β γ : Type}

def readInt : Reader Int := fun cs =>
  match Json.number (dropBlanks cs) with
  | some (.int x, rest) => some (x, rest)
  | _ => none

def readNat : Reader Nat := fun cs =>
  match readInt cs with
  | some (.ofNat n, rest) => some (n, rest)
  | _ => none

def readText : Reader String := fun cs => do
  let rest ← words ["\""] cs
  let (s, rest) ← unquote .text rest
  return (String.ofList s, rest)

def readOption (read : Reader α) : Reader (Option α) := fun cs =>
  match words ["None"] cs with
  | some rest => some (none, rest)
  | none => do
    let rest ← words ["Some("] cs
    let (x, rest) ← read rest
    let rest ← close ")" rest
    return (some x, rest)

def readPair (name first second : String) (make : α → β → γ) (readFirst : Reader α)
    (readSecond : Reader β) : Reader γ := fun cs => do
  let rest ← words [name, "\x7b", first, ":"] cs
  let (x, rest) ← readFirst rest
  let rest ← words [",", second, ":"] rest
  let (y, rest) ← readSecond rest
  let rest ← close "\x7d" rest
  return (make x y, rest)

def readNumbers : Reader Numbers :=
  readPair "IntFields" "ts" "count" Numbers.mk readInt (readOption readNat)

def readTexts : Reader Texts :=
  readPair "StrFields" "event" "message" Texts.mk readText (readOption readText)

def readRecord : Reader Record :=
  readPair "LogRecord" "int" "str" Record.mk readNumbers readTexts

/-- The record of a whole text. -/
def ofDisplay? (cs : List Char) : Option Record :=
  match readRecord cs with
  | some (r, []) => some r
  | _ => none

/-! ## What is read -/

/-- The reader takes the text for the value, whatever goes on behind it. -/
def Reads (read : Reader α) (text : List Char) (x : α) : Prop :=
  ∀ gap behind, Gap gap → EndsNumber behind → read (gap ++ (text ++ behind)) = some (x, behind)

theorem reads_int (x : Int) : Reads readInt (Decimal.ofInt x) x := by
  intro gap behind hgap hend
  have hfront := (Json.spells_int x).front behind
  rw [readInt, dropBlanks_gap hgap, hfront, Json.number_ofInt x hend]

theorem reads_nat (n : Nat) : Reads readNat (Decimal.ofNat n) n := by
  intro gap behind hgap hend
  have hint := reads_int n gap behind hgap hend
  rw [ofInt_natCast] at hint
  rw [readNat, hint]

theorem reads_text (s : String) : Reads readText (displayText s) s := by
  intro gap behind hgap hend
  have hquote : Bare "\"" := fun _ => rfl
  have htext : gap ++ (displayText s ++ behind) =
      gap ++ ("\"".toList ++ (s.toList.flatMap displayChar ++ '"' :: behind)) := by
    simp [displayText]
  simp only [readText, htext, word_append hgap hquote, unquote_flatMap, Option.bind_eq_bind,
    Option.bind_some, String.ofList_toList]
  rfl

theorem reads_none (read : Reader α) : Reads (readOption read) "None".toList none := by
  intro gap behind hgap hend
  rw [readOption, words_cons hgap fun _ => rfl]
  rfl

/-- A value that is there, with a gap in front and a closing text behind. -/
theorem reads_some {read : Reader α} {text inner closing : List Char} {x : α}
    (h : Reads read text x) (hinner : Gap inner) (hclosing : Closes ")" closing) :
    Reads (readOption read) ("Some(".toList ++ (inner ++ (text ++ closing))) (some x) := by
  intro gap behind hgap hend
  have hsome : Bare "Some(" := fun _ => rfl
  have hnone : words ["None"]
      (gap ++ ("Some(".toList ++ (inner ++ (text ++ (closing ++ behind))))) = none := by
    rw [words, dropBlanks_gap hgap]
    rfl
  have hx := h inner _ hinner (hclosing.endsNumber closing_parenthesis behind)
  have hclose := hclosing.close_append closing_parenthesis behind
  simp only [readOption, List.append_assoc, hnone, word_append hgap hsome, hx, hclose,
    Option.bind_eq_bind, Option.bind_some]
  rfl

/-- The labels of a group: its name and those of its fields. -/
structure Labels (name first second : String) : Prop where
  name : Bare name
  first : Bare first
  second : Bare second

section Pairs
variable {name first second : String} {make : α → β → γ} {readFirst : Reader α}
  {readSecond : Reader β} {a b : List Char} {x : α} {y : β}

/-- A group, with one gap in front of both fields and a closing text behind. -/
theorem reads_pair (hlabels : Labels name first second) (ha : Reads readFirst a x)
    (hb : Reads readSecond b y) {inner closing : List Char} (hinner : Gap inner)
    (hclosing : Closes "\x7d" closing) :
    Reads (readPair name first second make readFirst readSecond)
      (name.toList ++ ' ' :: '\x7b' :: (inner ++ (first.toList ++ ':' :: ' ' :: (a ++
        ',' :: (inner ++ (second.toList ++ ':' :: ' ' :: (b ++ closing)))))))
      (make x y) := by
  intro gap behind hgap hend
  have hopen (cs : List Char) : words [name, "\x7b", first, ":"]
      (gap ++ (name.toList ++ ' ' :: '\x7b' :: (inner ++ (first.toList ++ ':' :: cs)))) =
        some cs := by
    rw [words_cons hgap hlabels.name]
    -- The brace has a fixed gap in front, so it is passed over by computation.
    show words [first, ":"] (inner ++ (first.toList ++ ':' :: cs)) = some cs
    rw [words_cons hinner hlabels.first]
    rfl
  have hnext (cs : List Char) : words [",", second, ":"]
      (',' :: (inner ++ (second.toList ++ ':' :: cs))) = some cs := by
    show words [second, ":"] (inner ++ (second.toList ++ ':' :: cs)) = some cs
    rw [words_cons hinner hlabels.second]
    rfl
  have hx (cs : List Char) := ha [' '] (',' :: cs) gap_blank (Json.endsNumber_comma cs)
  have hy := hb [' '] _ gap_blank (hclosing.endsNumber closing_brace behind)
  have hclose := hclosing.close_append closing_brace behind
  simp only [List.singleton_append] at hx hy
  simp only [readPair, List.append_assoc, List.cons_append, hopen, hx, hnext, hy, hclose,
    Option.bind_eq_bind, Option.bind_some]
  rfl

/-! ## Both displays -/

theorem reads_displayPair (hlabels : Labels name first second) (ha : Reads readFirst a x)
    (hb : Reads readSecond b y) :
    Reads (readPair name first second make readFirst readSecond)
      (displayPair name first second a b) (make x y) := by
  have hclosing : Closes "\x7d" [' ', '\x7d'] := ⟨[' '], gap_blank, Or.inl rfl⟩
  unfold displayPair
  simp only [List.append_assoc]
  exact reads_pair hlabels ha hb gap_blank hclosing

theorem reads_displayPairTall (level : Nat) (hlabels : Labels name first second)
    (ha : Reads readFirst a x) (hb : Reads readSecond b y) :
    Reads (readPair name first second make readFirst readSecond)
      (displayPairTall level name first second a b) (make x y) := by
  have hclosing : Closes "\x7d" (',' :: (lineBreak (level - 1) ++ ['\x7d'])) :=
    ⟨lineBreak (level - 1), gap_lineBreak (level - 1), Or.inr rfl⟩
  unfold displayPairTall
  simp only [List.append_assoc]
  exact reads_pair hlabels ha hb (gap_lineBreak level) hclosing

end Pairs

section Options
variable {read : Reader α} {render : α → List Char}

theorem reads_displayOption (h : ∀ x, Reads read (render x) x) (o : Option α) :
    Reads (readOption read) (displayOption render o) o := by
  cases o with
  | none => exact reads_none read
  | some x =>
    have hclosing : Closes ")" [')'] := ⟨[], gap_nil, Or.inl rfl⟩
    have hsome := reads_some (h x) gap_nil hclosing
    rw [List.nil_append] at hsome
    unfold displayOption
    simp only [List.append_assoc]
    exact hsome

theorem reads_displayOptionTall (level : Nat) (h : ∀ x, Reads read (render x) x) (o : Option α) :
    Reads (readOption read) (displayOptionTall level render o) o := by
  cases o with
  | none => exact reads_none read
  | some x =>
    have hclosing : Closes ")" (',' :: (lineBreak level ++ [')'])) :=
      ⟨lineBreak level, gap_lineBreak level, Or.inr rfl⟩
    unfold displayOptionTall
    simp only [List.append_assoc, List.singleton_append]
    exact reads_some (h x) (gap_lineBreak (level + 1)) hclosing

end Options

end Readers

/-! ## Records -/

theorem labels_record : Labels "LogRecord" "int" "str" :=
  ⟨fun _ => rfl, fun _ => rfl, fun _ => rfl⟩

theorem labels_numbers : Labels "IntFields" "ts" "count" :=
  ⟨fun _ => rfl, fun _ => rfl, fun _ => rfl⟩

theorem labels_texts : Labels "StrFields" "event" "message" :=
  ⟨fun _ => rfl, fun _ => rfl, fun _ => rfl⟩

theorem reads_display (r : Record) : Reads readRecord r.display r := by
  have hnumbers : Reads readNumbers _ r.numbers := reads_displayPair labels_numbers
    (reads_int r.numbers.ts) (reads_displayOption reads_nat r.numbers.count)
  have htexts : Reads readTexts _ r.texts := reads_displayPair labels_texts
    (reads_text r.texts.event) (reads_displayOption reads_text r.texts.message)
  exact reads_displayPair labels_record hnumbers htexts

theorem reads_displayTall (r : Record) : Reads readRecord r.displayTall r := by
  have hnumbers : Reads readNumbers _ r.numbers := reads_displayPairTall 2 labels_numbers
    (reads_int r.numbers.ts) (reads_displayOptionTall 2 reads_nat r.numbers.count)
  have htexts : Reads readTexts _ r.texts := reads_displayPairTall 2 labels_texts
    (reads_text r.texts.event) (reads_displayOptionTall 2 reads_text r.texts.message)
  exact reads_displayPairTall 1 labels_record hnumbers htexts

theorem Reads.ofDisplay? {r : Record} {text : List Char} (h : Reads readRecord text r) :
    ofDisplay? text = some r := by
  have hread := h [] [] gap_nil Json.endsNumber_nil
  rw [List.nil_append, List.append_nil] at hread
  rw [Record.ofDisplay?, hread]

/-- Texts that are read as records are equal only for the same record. -/
theorem eq_iff_of_reads {form : Record → List Char} (h : ∀ r, Reads readRecord (form r) r)
    (r r' : Record) : form r = form r' ↔ r = r' := by
  refine ⟨?_, congrArg form⟩
  intro hform
  have hread := (h r).ofDisplay?
  rw [hform, (h r').ofDisplay?] at hread
  exact (Option.some.inj hread).symm

/-- One reader reads a record back from both displays, so each of them tells records apart. -/
theorem displays_readable (r : Record) :
    ofDisplay? r.display = some r ∧ ofDisplay? r.displayTall = some r ∧
    ∀ r', (r.display = r'.display ↔ r = r') ∧ (r.displayTall = r'.displayTall ↔ r = r') := by
  refine ⟨(reads_display r).ofDisplay?, (reads_displayTall r).ofDisplay?, ?_⟩
  intro r'
  exact ⟨eq_iff_of_reads reads_display r r', eq_iff_of_reads reads_displayTall r r'⟩

end Record

end SyntheticLog
