/-!
# Similarity of words

The Jaro similarity of two words: the share of characters that match within a window, less half the
matches that come in a different order.

* `Similarity.jaro`: the similarity, between zero and one.
* `Similarity.closest?`: the most similar word above a bound.
-/

set_option autoImplicit false

namespace SyntheticLog.Similarity

/-- The position of the first free occurrence of `c` from `low` on and before `high`, given the
characters from position `i` on, each marked as taken or free. -/
def find? (c : Char) (low high i : Nat) : List (Char × Bool) → Option Nat
  | [] => none
  | (d, taken) :: rest =>
    if high ≤ i then none
    else if low ≤ i && d = c && !taken then some i
    else find? c low high (i + 1) rest

/-- Takes the character at position `i`. -/
def take (i : Nat) (cs : List (Char × Bool)) : List (Char × Bool) :=
  cs.modify i fun (c, _) => (c, true)

/-- Matches the characters `cs`, from position `i` on, in order, each to the first free equal
character within `range` of its own position. Gives the matched ones and the marks. -/
def pair (range i : Nat) : List Char → List (Char × Bool) → List Char × List (Char × Bool)
  | [], marked => ([], marked)
  | c :: cs, marked =>
    match find? c (i - range) (i + range + 1) 0 marked with
    | some j =>
      let (matched, marked) := pair range (i + 1) cs (take j marked)
      (c :: matched, marked)
    | none => pair range (i + 1) cs marked

def jaro (a b : List Char) : Float :=
  if a.isEmpty && b.isEmpty then 1.0
  else
    let range := max a.length b.length / 2 - 1
    let (matched, marked) := pair range 0 a (b.map fun c => (c, false))
    let inOrder := (marked.filter (·.2)).map (·.1)
    let crossed := ((matched.zip inOrder).countP fun (c, d) => c != d) / 2
    let share (n of : Nat) : Float := n.toUInt64.toFloat / of.toUInt64.toFloat
    let m := matched.length
    if m = 0 then 0.0
    else (share m a.length + share m b.length + share (m - crossed) m) / 3.0

/-- The word most similar to `a`, if its similarity is above 0.7; of equal ones the later. -/
def closest? (a : List Char) (words : List String) : Option String :=
  (words.foldl
    (fun best w =>
      let s := jaro a w.toList
      if s > 0.7 then
        match best with
        | some (t, _) => if s < t then best else some (s, w)
        | none => some (s, w)
      else best)
    (none : Option (Float × String))).map (·.2)

end SyntheticLog.Similarity
