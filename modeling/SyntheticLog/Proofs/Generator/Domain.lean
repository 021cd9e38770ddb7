import SyntheticLog.Proofs.Generator.Upcoming
import SyntheticLog.Proofs.Random.Bounds

/-!
# Generated records are in the domain

* `Record.gives_draw`: a record that is drawn has values of the domain.
* `Record.ts_in_type`: on the way no sum leaves its type.
* `Generator.inDomain_upcoming`: the same of all records to come.
-/

set_option autoImplicit false

namespace SyntheticLog

open SyntheticLog.Random

variable {σ : Type} [WordSource σ]

namespace Record

theorem gives_offset : Gives (intRange offsetType 0 tsMaxOffset : Draw σ Int)
    fun x => 0 ≤ x ∧ x ≤ tsMaxOffset :=
  gives_intRange (by decide) (by decide) (by decide)

theorem gives_count : Gives (intRange countType 0 countMax : Draw σ Int)
    fun x => 0 ≤ x ∧ x ≤ countMax :=
  gives_intRange (by decide) (by decide) (by decide)

/-- The sum of the earliest time and an offset is a number of the type of offsets. -/
theorem ts_in_type {x : Int} (hlow : 0 ≤ x) (hhigh : x ≤ tsMaxOffset) :
    offsetType.least ≤ tsBase + x ∧ tsBase + x ≤ offsetType.greatest := by
  have hleast : offsetType.least ≤ tsBase := by decide
  have hgreatest : tsBase + tsMaxOffset ≤ offsetType.greatest := by decide
  omega

theorem gives_draw : Gives (draw : Draw σ Record) InDomain := by
  refine gives_offset.bind fun offset hoffset => ?_
  refine (gives_oneOf (by decide)).bind fun event hevent => ?_
  refine (gives_maybe (gives_oneOf (by decide))).bind fun message hmessage => ?_
  refine (gives_maybe gives_count).bind fun count hcount => gives_pure ?_
  refine ⟨by dsimp only; omega, ?_, hevent, hmessage⟩
  intro n hn
  obtain ⟨x, hx, rfl⟩ := Option.map_eq_some_iff.1 hn
  have hbounds := hcount x hx
  omega

end Record

namespace Generator

theorem gives_build : Gives (build : Draw (Generator σ) Record) Record.InDomain := by
  intro g
  simp only [build]
  cases hd : Record.draw g.source with
  | ok r s => exact Record.gives_draw.ok hd
  | error e s => exact Record.gives_draw.error hd

theorem inDomain_upcoming (n : Nat) (g : Generator σ) : ∀ r ∈ g.upcoming n, r.InDomain := by
  induction n generalizing g with
  | zero => exact fun r hr => absurd hr List.not_mem_nil
  | succ n ih =>
    cases hb : build g with
    | error e g' =>
      rw [upcoming_of_error hb]
      exact fun r hr => absurd hr List.not_mem_nil
    | ok r g' =>
      rw [upcoming_of_ok hb, List.forall_mem_cons]
      exact ⟨gives_build.ok hb, ih g'⟩

theorem outOfWords_of_stop? {n : Nat} {g : Generator σ} {e : Stop} (h : g.stop? n = some e) :
    e = .outOfWords := by
  induction n generalizing g with
  | zero => cases h
  | succ n ih =>
    cases hb : build g with
    | error d g' =>
      rw [stop?_of_error hb] at h
      cases h
      exact gives_build.error hb
    | ok r g' =>
      rw [stop?_of_ok hb] at h
      exact ih h

end Generator

end SyntheticLog
