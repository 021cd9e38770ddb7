/-!
# Log records

A record has a group of numbers and a group of texts; in each the first field is always there and
the second may be missing. `Record.InDomain` bounds the values of the records that are generated.
-/

set_option autoImplicit false

namespace SyntheticLog

structure Numbers where
  /-- The time of the event, in seconds. -/
  ts : Int
  count : Option Nat
  deriving DecidableEq, Repr

structure Texts where
  event : String
  message : Option String
  deriving DecidableEq, Repr

structure Record where
  numbers : Numbers
  texts : Texts
  deriving DecidableEq, Repr

namespace Record

/-! ## The domain of generated records -/

def tsBase : Int := 1641672504

def tsMaxOffset : Int := 100000

def countMax : Nat := 1000

def events : List String := ["init_app", "exception", "edit"]

def messages : List String := ["ok", "yay", "hi"]

/-- The record holds only values of the domain. -/
def InDomain (r : Record) : Prop :=
  (tsBase ≤ r.numbers.ts ∧ r.numbers.ts ≤ tsBase + tsMaxOffset) ∧
    (∀ n, r.numbers.count = some n → n ≤ countMax) ∧
    r.texts.event ∈ events ∧ ∀ m, r.texts.message = some m → m ∈ messages

def inDomain (r : Record) : Bool :=
  decide (tsBase ≤ r.numbers.ts ∧ r.numbers.ts ≤ tsBase + tsMaxOffset) &&
    r.numbers.count.all (· ≤ countMax) &&
    decide (r.texts.event ∈ events) && r.texts.message.all (· ∈ messages)

theorem inDomain_iff {r : Record} : r.inDomain = true ↔ r.InDomain := by
  simp only [inDomain, InDomain, Bool.and_eq_true, decide_eq_true_eq, Option.all_eq_true, and_assoc]

instance : DecidablePred InDomain := fun _ => decidable_of_iff _ inDomain_iff

end Record

end SyntheticLog
