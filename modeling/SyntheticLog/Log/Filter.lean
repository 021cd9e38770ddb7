import SyntheticLog.CommandLine.Number
import SyntheticLog.Log.Event
import SyntheticLog.Pattern.Check
import SyntheticLog.Text.Numeral

/-!
# Log filters

A filter is a list of directives with commas between them. A directive is a level, a target, which
stands for all levels, or a target and a level with an equals sign between them. A target means all
targets that begin with it. Behind the target brackets may name a span, and braces within them a
field, perhaps with a value wanted of it, which is a number or a pattern.

Of the directives that are about an event the most particular one decides: the one with the longest
target, then the one that names a field, then the latest.

* `Directive.read`: the directive that a text describes.
* `Filter.ofText`, `Filter.complaints`: the filter that a text describes, and what is wrong with it.
* `Filter.passes`: whether an event passes.
-/

set_option autoImplicit false

namespace SyntheticLog.Log

/-- A field that an event or a span has to carry. -/
structure Field where
  name : Bytes
  /-- The value wanted of it; only spans are asked for values. -/
  value : Option Bytes
  deriving DecidableEq, Repr

structure Directive where
  /-- The beginning of the targets that it is about; without one it is about all. -/
  target : Option Bytes
  /-- The name of the span that it is about. -/
  span : Option Bytes
  field : Option Field
  /-- The rank of the highest level that passes; zero lets nothing pass. -/
  rank : Nat
  deriving DecidableEq, Repr

inductive DirectiveFault
  | form
  | level
  /-- The value wanted of a field is a pattern with a fault. -/
  | field (fault : Pattern.Fault)
  deriving DecidableEq, Repr

def DirectiveFault.message : DirectiveFault → String
  | .form => "invalid filter directive"
  | .level =>
    "error parsing level filter: expected one of \"off\", \"error\", \"warn\", \"info\", " ++
      "\"debug\", \"trace\", or a number 0-5"
  | .field fault => s!"invalid field filter: {fault.message}"

/-! ## Reading a directive -/

namespace Directive

/-- The rank of the highest level, which lets everything pass. -/
def topRank : Nat := Level.trace.rank

def rankNames : List (String × Nat) :=
  [("off", 0), ("error", 1), ("warn", 2), ("info", 3), ("debug", 4), ("trace", 5)]

/-- The small letter of a letter of ASCII. -/
def small (b : UInt8) : UInt8 := if 65 ≤ b && b ≤ 90 then b + 32 else b

/-- The rank that a text stands for: a number up to five, or a name in letters of any case. -/
def rank? (text : Bytes) : Option Nat :=
  match CommandLine.Number.read text with
  | .ok n => if n ≤ topRank then some n else none
  | .error _ =>
    (rankNames.find? fun p => Utf8.encode p.1 = text.map small).map (·.2)

/-- The rank that the text behind position `i` stands for. -/
def rankFrom (text : Bytes) (i : Nat) : Except DirectiveFault Nat :=
  if (text.drop i).isEmpty then .ok topRank
  else
    match rank? (text.drop i) with
    | some r => .ok r
    | none => .error .level

/-- The character may begin a directive. -/
def begins (c : Char) : Bool := c = '-' || c = ':' || c = '_' || CharClass.isAlphanumeric c

def equals : UInt8 := 61

def openBracket : UInt8 := 91
def closeBracket : UInt8 := 93
def openBrace : UInt8 := 123
def closeBrace : UInt8 := 125

def cut (text : Bytes) (i j : Nat) : Bytes := (text.drop i).take (j - i)

/-- The position from `i` on of the first byte that is a `stop`. -/
def seek (text : Bytes) (i : Nat) (stop : UInt8 → Bool) : Nat :=
  i + ((text.drop i).takeWhile fun b => !stop b).length

/-- The rank of a directive whose brackets are closed before position `i`. -/
def rankBehind (text core : Bytes) (i : Nat) : Except DirectiveFault Nat :=
  match core[i]? with
  | none => .ok topRank
  | some b => if b = equals then rankFrom text (i + 1) else .error .form

def fieldOf (text : Bytes) : Field :=
  match text.splitOn equals with
  | name :: value :: _ => ⟨name, some value⟩
  | _ => ⟨text, none⟩

/-- What is wrong with the value wanted of a field. It is a number or a pattern. -/
def valueFault? (value : Bytes) : Option Pattern.Fault :=
  let text := Utf8.lossy value
  if Numeral.isDecimal text then none else Pattern.fault? text

def readField (text : Bytes) : Except DirectiveFault Field :=
  match (fieldOf text).value.bind valueFault? with
  | some fault => .error (.field fault)
  | none => .ok (fieldOf text)

/-- The directive whose opening bracket stands before position `i`. -/
def readBrackets (text core : Bytes) (target : Option Bytes) (i : Nat) :
    Except DirectiveFault Directive :=
  let j := seek core i fun b => b = closeBracket || b = openBrace
  let span := cut text i j
  match core[j]? with
  | none => .error .form
  | some b =>
    if b = closeBracket then do
      let rank ← rankBehind text core (j + 1)
      return ⟨target, some span, none, rank⟩
    else
      let k := seek core (j + 1) fun b => b = closeBrace
      if j + 1 < k ∧ core[k]? = some closeBrace then do
        let field ← readField (cut text (j + 1) k)
        if core[k + 1]? = some closeBracket then do
          let rank ← rankBehind text core (k + 2)
          return ⟨target, if span.isEmpty then none else some span, some field, rank⟩
        else throw .form
      else .error .form

/-- Reads the text of a directive. Its form is that of the `core`, which is the text without the
white space around it; its parts are cut out of the text at the positions that they have in the
core. -/
def readAt (text core : Bytes) : Except DirectiveFault Directive :=
  let i := seek core 0 fun b => b = equals || b = openBracket
  match core[i]? with
  | none =>
    match rank? text with
    | some r => .ok ⟨none, none, none, r⟩
    | none => .ok ⟨some text, none, none, topRank⟩
  | some b =>
    if b = equals then do
      let rank ← rankFrom text (i + 1)
      return ⟨some (text.take i), none, none, rank⟩
    else readBrackets text core (if i = 0 then none else some (text.take i)) (i + 1)

def read (text : String) : Except DirectiveFault Directive :=
  let core := CharClass.trim text.toList
  if core.head?.any fun c => c = '[' || begins c then
    readAt (Utf8.encode text) (Utf8.encode (String.ofList core))
  else .error .form

/-! ## Events -/

/-- The field that every event carries, its only one. -/
def eventField : Field := ⟨Utf8.encode "message", none⟩

/-- The directive is about events of a target. No event belongs to a span. -/
def isAbout (target : String) (d : Directive) : Bool :=
  d.target.all (fun t => t.isPrefixOf (Utf8.encode target)) && d.span.isNone &&
    d.field.all (· = eventField)

/-- How particular a directive is: by the length of the target, where one without a target is the
least, then by whether it names a field. -/
def weight (d : Directive) : Nat :=
  2 * (match d.target with | none => 0 | some t => t.length + 1) + if d.field.isSome then 1 else 0

end Directive

/-! ## Filters -/

abbrev Filter : Type := List Directive

namespace Filter

/-- The filter without directives: errors pass, whatever their target. -/
def standard : Filter := [⟨none, none, none, Level.error.rank⟩]

def parts (s : String) : List String :=
  ((s.toList.splitOn ',').filter fun cs => !cs.isEmpty).map String.ofList

/-- The filter that a text describes. Directives that make no sense are passed over. -/
def ofText (s : String) : Filter :=
  let ds := (parts s).filterMap fun part => (Directive.read part).toOption
  if ds.isEmpty then standard else ds

def complaint? (part : String) : Option String :=
  match Directive.read part with
  | .ok _ => none
  | .error fault => some s!"ignoring `{part}`: {fault.message}"

def complaints (s : String) : List String := (parts s).filterMap complaint?

/-- The directive that decides about events of a target. -/
def deciding (ds : Filter) (target : String) : Option Directive :=
  (ds.filter (Directive.isAbout target)).foldl
    (fun best d =>
      match best with
      | none => some d
      | some b => if d.weight < b.weight then some b else some d)
    none

def passes (ds : Filter) (e : Event) : Bool :=
  match ds.deciding e.target with
  | none => false
  | some d => e.level.rank ≤ d.rank

end Filter

end SyntheticLog.Log
