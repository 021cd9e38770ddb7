import SyntheticLog.Proofs.Session.Calls

/-!
# The history of a session

What a session has come to is told by the calls that succeeded in it, in order.

* `Call.total`: the number of records that calls took from one generator.
* `Session.Follows`: the session is what is left behind by these calls.
* `Session.Follows.perform`: calls in any order leave behind what those that succeed tell.
* `Session.files_of_successes`: what this says about the files and the generators.
-/

set_option autoImplicit false

namespace SyntheticLog

open SyntheticLog.Random Log FileSystem

/-! ## Records taken -/

def Call.total (name : String) : List Call → Nat
  | [] => 0
  | c :: cs => (if c.name = name then c.count else 0) + total name cs

namespace Call

theorem total_append (name : String) (cs ds : List Call) :
    total name (cs ++ ds) = total name cs + total name ds := by
  induction cs with
  | nil => exact (Nat.zero_add _).symm
  | cons c cs ih =>
    rw [List.cons_append, total, total, ih]
    omega

theorem total_self (c : Call) : total c.name [c] = c.count := by
  rw [total, total, if_pos rfl, Nat.add_zero]

theorem total_of_ne {c : Call} {name : String} (h : c.name ≠ name) : total name [c] = 0 := by
  rw [total, total, if_neg h]

end Call

namespace Session

variable {σ : Type} [WordSource σ]

/-- The session `s` is what successful calls, in this order, leave behind of `s₀`. -/
structure Follows (s₀ s : Session σ) (done : List Call) : Prop where
  opens : ∀ path, s.files.opens path = s₀.files.opens path
  generator : ∀ name,
    s.generator? name = (s₀.generator? name).map (Generator.advance (Call.total name done))
  all : ∀ name g, s₀.generator? name = some g →
    (g.upcoming (Call.total name done)).length = Call.total name done
  untouched : ∀ p, (∀ c ∈ done, s₀.files.opens c.path ≠ some (.regular p)) →
    s.files.get? p = s₀.files.get? p
  latest : ∀ earlier c later, done = earlier ++ c :: later →
    ∃ p g, s₀.files.opens c.path = some (.regular p) ∧ s₀.generator? c.name = some g ∧
      ((∀ c' ∈ later, s₀.files.opens c'.path ≠ some (.regular p)) →
        s.files.get? p =
          some (.file (Record.lines (g.slice (Call.total c.name earlier) c.count))))

theorem follows_refl (s : Session σ) : Follows s s [] where
  opens _ := rfl
  generator name := by cases s.generator? name <;> rfl
  all _ _ _ := rfl
  untouched _ _ := rfl
  latest earlier c later h := by
    cases earlier <;> cases h

variable {s₀ s s' : Session σ} {done : List Call}

theorem Follows.congr (h : Follows s₀ s done) (hfiles : s'.files = s.files)
    (hgenerators : ∀ name, s'.generator? name = s.generator? name) : Follows s₀ s' done where
  opens path := by rw [hfiles, h.opens]
  generator name := by rw [hgenerators, h.generator]
  all := h.all
  untouched p hp := by rw [hfiles, h.untouched p hp]
  latest earlier c later hdone := by
    rw [hfiles]
    exact h.latest earlier c later hdone

theorem split_concat {α : Type} {xs earlier later : List α} {x y : α}
    (h : xs ++ [x] = earlier ++ y :: later) :
    (earlier = xs ∧ y = x ∧ later = []) ∨ ∃ between, later = between ++ [x] ∧
      xs = earlier ++ y :: between := by
  rcases List.eq_nil_or_concat later with rfl | ⟨between, z, rfl⟩
  · obtain ⟨hxs, hx⟩ := List.append_inj' h rfl
    exact Or.inl ⟨hxs.symm, (List.cons.inj hx).1.symm, rfl⟩
  · rw [List.concat_eq_append, ← List.cons_append, ← List.append_assoc] at h
    obtain ⟨hxs, hx⟩ := List.append_inj' h rfl
    rw [(List.cons.inj hx).1]
    exact Or.inr ⟨between, List.concat_eq_append, hxs⟩

theorem Follows.succeed {c : Call} {p : Place} {g₀ : Generator σ} (h : Follows s₀ s done)
    (hopens : s₀.files.opens c.path = some (.regular p)) (hfree : s.files.Free p)
    (hg₀ : s₀.generator? c.name = some g₀)
    (hall : ((g₀.advance (Call.total c.name done)).upcoming c.count).length = c.count)
    (hfiles : s'.files = (s.files.put p (.file ByteArray.empty)).put p
      (.file (Record.lines ((g₀.advance (Call.total c.name done)).upcoming c.count))))
    (hself : s'.generator? c.name =
      some ((g₀.advance (Call.total c.name done)).advance c.count))
    (hothers : ∀ name, name ≠ c.name → s'.generator? name = s.generator? name) :
    Follows s₀ s' (done ++ [c]) := by
  have hbefore := h.all c.name g₀ hg₀
  have hother {name : String} (hname : name ≠ c.name) :
      Call.total name (done ++ [c]) = Call.total name done := by
    rw [Call.total_append, Call.total_of_ne hname.symm, Nat.add_zero]
  have hthis : Call.total c.name (done ++ [c]) = Call.total c.name done + c.count := by
    rw [Call.total_append, Call.total_self]
  have hslice : Record.lines ((g₀.advance (Call.total c.name done)).upcoming c.count) =
      Record.lines (g₀.slice (Call.total c.name done) c.count) := by
    rw [Generator.slice_eq hbefore]
  -- Paths are compared by where they lead, since two of them may lead to one file.
  have helse {q : Place} (hq : q ≠ p) : s'.files.get? q = s.files.get? q := by
    rw [hfiles, get?_put_of_ne hq, get?_put_of_ne hq]
  constructor
  · intro path
    rw [hfiles, opens_put (.put _), opens_put hfree, h.opens]
  · intro name
    by_cases hname : name = c.name
    · rw [hname, hself, hg₀, hthis, Option.map_some, Generator.advance_add hbefore]
    · rw [hothers name hname, h.generator, hother hname]
  · intro name g hg
    by_cases hname : name = c.name
    · rw [hname, hg₀] at hg
      cases hg
      rw [hname, hthis, Generator.upcoming_add hbefore, List.length_append, hbefore, hall]
    · rw [hother hname]
      exact h.all name g hg
  · intro q hq
    have hne : q ≠ p := by
      rintro rfl
      exact hq c (by simp) hopens
    rw [helse hne]
    exact h.untouched q fun c' hc' => hq c' (List.mem_append_left _ hc')
  · intro earlier d later hdone
    rcases split_concat hdone with ⟨rfl, rfl, rfl⟩ | ⟨between, rfl, hdone'⟩
    · refine ⟨p, g₀, hopens, hg₀, fun _ => ?_⟩
      rw [hfiles, get?_put_self, hslice]
    · obtain ⟨q, g, hq, hg, hlatest⟩ := h.latest earlier d between hdone'
      refine ⟨q, g, hq, hg, fun hlater => ?_⟩
      have hne : q ≠ p := by
        rintro rfl
        exact hlater c (by simp) hopens
      rw [helse hne]
      exact hlatest fun c' hc' => hlater c' (List.mem_append_left _ hc')

/-- A call goes through if its file opens and its generator has the records. -/
theorem Follows.proceed {c : Call} {p : Place} {g₀ : Generator σ} (h : Follows s₀ s done)
    (hopens : s₀.files.opens c.path = some (.regular p)) (hg₀ : s₀.generator? c.name = some g₀)
    (hstop : (g₀.advance (Call.total c.name done)).stop? c.count = none) :
    (∃ t, s.result? c = some (.ok t)) ∧ Follows s₀ (s.after c) (done ++ [c]) := by
  obtain ⟨fs, hcreate⟩ := create_of_opens ((h.opens c.path).trans hopens)
  obtain ⟨-, hregular⟩ := opens_of_create hcreate
  obtain ⟨hfree, rfl⟩ := hregular p rfl
  have hg : s.generator? c.name = some (g₀.advance (Call.total c.name done)) := by
    rw [h.generator, hg₀, Option.map_some]
  obtain ⟨hresult, hfiles, hself, hothers⟩ := after_of_ok hg hcreate
  rw [Behaviour.verdict, hstop] at hresult
  exact ⟨⟨_, hresult⟩, h.succeed hopens hfree hg₀ (Generator.stop?_eq_none_iff.1 hstop) hfiles hself
    hothers⟩

theorem Follows.after {c : Call} (h : Follows s₀ s done)
    (regular : ∀ d, s₀.files.opens c.path ≠ some (.device d))
    (drawn : ∀ e, s.result? c ≠ some (.error (.draw e))) :
    Follows s₀ (s.after c) (done ++ s.success c) := by
  cases hg : s.generator? c.name with
  | none =>
    obtain ⟨hresult, hafter⟩ := populate_of_none hg
    rw [success, hresult, hafter, List.append_nil]
    exact h
  | some g =>
    rcases hcreate : s.files.create c.path with e | ⟨t, fs⟩
    · obtain ⟨hresult, hfiles, hgenerators⟩ := after_of_error hcreate
      rw [success_of_error (hresult g hg), List.append_nil]
      exact h.congr hfiles hgenerators
    · obtain ⟨hopens, -⟩ := opens_of_create hcreate
      rw [h.opens] at hopens
      cases t with
      | device d => exact absurd hopens (regular d)
      | regular p =>
        have hgenerator := h.generator c.name
        rw [hg] at hgenerator
        obtain ⟨g₀, hg₀, rfl⟩ := Option.map_eq_some_iff.1 hgenerator.symm
        cases hstop : Generator.stop? c.count (Generator.advance (Call.total c.name done) g₀) with
        | some e =>
          obtain ⟨hresult, -⟩ := after_of_ok hg hcreate
          rw [hresult, Behaviour.verdict, hstop] at drawn
          exact absurd rfl (drawn e)
        | none =>
          obtain ⟨⟨t, ht⟩, hfollows⟩ := h.proceed hopens hg₀ hstop
          rw [success_of_ok ht]
          exact hfollows

theorem Follows.perform (h : Follows s₀ s done) (cs : List Call)
    (regular : ∀ c ∈ cs, ∀ d, s₀.files.opens c.path ≠ some (.device d))
    (drawn : ∀ e, some (.error (.draw e)) ∉ s.results cs) :
    Follows s₀ (s.perform cs) (done ++ s.successes cs) := by
  induction cs generalizing s done with
  | nil =>
    rw [Session.perform, successes, List.append_nil]
    exact h
  | cons c cs ih =>
    have hc := h.after (regular c List.mem_cons_self) fun e he =>
      drawn e (by rw [results, he]; exact List.mem_cons_self)
    rw [Session.perform, successes, ← List.append_assoc]
    exact ih hc (fun c' hc' => regular c' (List.mem_cons_of_mem c hc')) fun e he =>
      drawn e (List.mem_cons_of_mem _ he)

theorem length_slice {g : Generator σ} {k n m : Nat} (h : (g.upcoming m).length = m)
    (hle : k + n ≤ m) : (g.slice k n).length = n := by
  have htake : g.upcoming (k + n) = (g.upcoming m).take (k + n) := by
    rw [Generator.take_upcoming, Nat.min_eq_left hle]
  rw [Generator.slice, htake, List.length_drop, List.length_take, h]
  omega

/-- Records with consecutive numbers are cut in two anywhere. -/
theorem slice_append (g : Generator σ) (k a b : Nat) :
    g.slice k a ++ g.slice (k + a) b = g.slice k (a + b) := by
  have htake : g.upcoming (k + a) = (g.upcoming (k + a + b)).take (k + a) := by
    rw [Generator.take_upcoming, Nat.min_eq_left (Nat.le_add_right _ _)]
  rw [Generator.slice, Generator.slice, Generator.slice, htake, List.drop_take, ← Nat.add_assoc,
    Nat.add_sub_cancel_left, ← List.drop_drop, List.take_append_drop]

/-- Calls on regular files in any order: each file holds the lines of the last call that succeeded
on it, which go on where the earlier calls on the same generator stopped; no other file changes, and
a call that cannot open its file changes nothing at all. -/
theorem files_of_successes (s₀ : Session σ) (cs : List Call)
    (regular : ∀ c ∈ cs, ∀ d, s₀.files.opens c.path ≠ some (.device d))
    (drawn : ∀ e, some (.error (.draw e)) ∉ s₀.results cs) :
    (∀ earlier c later, s₀.successes cs = earlier ++ c :: later →
      (∀ c' ∈ later, s₀.files.opens c'.path ≠ s₀.files.opens c.path) →
      ∃ g, s₀.generator? c.name = some g ∧
        (g.slice (Call.total c.name earlier) c.count).length = c.count ∧
        (s₀.perform cs).files.read c.path =
          .ok (Record.lines (g.slice (Call.total c.name earlier) c.count))) ∧
    (∀ name g, s₀.generator? name = some g →
      ∃ g', (s₀.perform cs).generator? name = some g' ∧
        g' = g.advance (Call.total name (s₀.successes cs)) ∧
        g'.built = g.built + Call.total name (s₀.successes cs)) ∧
    (∀ p, (∀ c ∈ s₀.successes cs, s₀.files.opens c.path ≠ some (.regular p)) →
      (s₀.perform cs).files.get? p = s₀.files.get? p) ∧
    (∀ (s : Session σ) (c : Call) (e : FileError), s.files.create c.path = .error e →
      (∀ g, s.generator? c.name = some g → s.result? c = some (.error (.io e))) ∧
        (s.after c).files = s.files ∧
        ∀ name, (s.after c).generator? name = s.generator? name) ∧
    ∀ (g : Generator σ) (k a b : Nat),
      Record.lines (g.slice k a) ++ Record.lines (g.slice (k + a) b) =
        Record.lines (g.slice k (a + b)) := by
  have hfollows := (follows_refl s₀).perform cs regular drawn
  rw [List.nil_append] at hfollows
  refine ⟨?_, ?_, hfollows.untouched, fun s c e h => after_of_error h, ?_⟩
  · intro earlier c later hdone hlater
    obtain ⟨p, g, hopens, hg, hlatest⟩ := hfollows.latest earlier c later hdone
    have hall := hfollows.all c.name g hg
    refine ⟨g, hg, ?_, ?_⟩
    · refine length_slice hall ?_
      rw [hdone, Call.total_append, Call.total, if_pos rfl]
      omega
    · refine read_of_opens ((hfollows.opens c.path).trans hopens) (hlatest ?_)
      rw [← hopens]
      exact hlater
  · intro name g hg
    refine ⟨g.advance (Call.total name (s₀.successes cs)), ?_, rfl, ?_⟩
    · rw [hfollows.generator, hg, Option.map_some]
    · rw [Generator.built_advance, hfollows.all name g hg]
  · intro g k a b
    rw [← Record.lines_append, slice_append]

/-- The words of two records that differ. -/
def trialP : Generator (List UInt32) :=
  .ofSource (List.replicate 11 0 ++ List.replicate 8 0x80000000)

/-- The words of one more record. -/
def trialQ : Generator (List UInt32) := .ofSource (List.replicate 11 0x7FFFFFFF)

def trial : Session (List UInt32) := ⟨⟨∅, #[], root⟩, [("p", trialP), ("q", trialQ)]⟩

/-- Both generators write to one file. Then the first one fails to open a file, and writes to
another. -/
def trialCalls : List Call := [⟨"p", 1, [97]⟩, ⟨"q", 1, [97]⟩, ⟨"p", 1, []⟩, ⟨"p", 1, [98]⟩]

/-- The file that both write to holds what the second one wrote, and the first one goes on behind the
record that is lost. -/
theorem files_of_trial :
    (∀ c ∈ trialCalls, ∀ d, trial.files.opens c.path ≠ some (.device d)) ∧
    (∀ e, some (.error (.draw e)) ∉ trial.results trialCalls) ∧
    trial.successes trialCalls = [⟨"p", 1, [97]⟩, ⟨"q", 1, [97]⟩, ⟨"p", 1, [98]⟩] ∧
    (trial.perform trialCalls).files.read [97] = .ok (Record.lines (trialQ.slice 0 1)) ∧
    (trial.perform trialCalls).files.read [98] = .ok (Record.lines (trialP.slice 1 1)) ∧
    (∃ p q, (trial.perform trialCalls).generator? "p" = some p ∧ p.built = 2 ∧
      (trial.perform trialCalls).generator? "q" = some q ∧ q.built = 1) ∧
    trialP.slice 0 1 ≠ trialP.slice 1 1 ∧ trialP.slice 0 1 ≠ trialQ.slice 0 1 := by
  have hopensA : trial.files.opens [97] = some (.regular ⟨root, [97]⟩) :=
    opens_of_vacant rfl (by decide) ⟨by decide, by decide, by decide, by decide⟩ rfl
  have hopensB : trial.files.opens [98] = some (.regular ⟨root, [98]⟩) :=
    opens_of_vacant rfl (by decide) ⟨by decide, by decide, by decide, by decide⟩ rfl
  -- The calls one by one: two go through, one fails, one goes through.
  obtain ⟨⟨t₁, ht₁⟩, h₁⟩ := (follows_refl trial).proceed (c := ⟨"p", 1, [97]⟩) hopensA rfl
    (by decide +kernel)
  obtain ⟨⟨t₂, ht₂⟩, h₂⟩ := h₁.proceed (c := ⟨"q", 1, [97]⟩) hopensA rfl (by decide +kernel)
  obtain ⟨hresult, hfiles, hgenerators⟩ := after_of_error (c := ⟨"p", 1, []⟩) (e := .noEntry)
    (s := (trial.after ⟨"p", 1, [97]⟩).after ⟨"q", 1, [97]⟩) rfl
  have ht₃ := hresult _ (h₂.generator "p")
  obtain ⟨⟨t₄, ht₄⟩, -⟩ := (h₂.congr hfiles hgenerators).proceed (c := ⟨"p", 1, [98]⟩) hopensB rfl
    (by decide +kernel)
  have hresults : trial.results trialCalls =
      [some (.ok t₁), some (.ok t₂), some (.error (.io .noEntry)), some (.ok t₄)] := by
    rw [trialCalls, results, results, results, results, results, ht₁, ht₂, ht₃, ht₄]
  have hsuccesses : trial.successes trialCalls =
      [⟨"p", 1, [97]⟩, ⟨"q", 1, [97]⟩, ⟨"p", 1, [98]⟩] := by
    rw [trialCalls, successes, successes, successes, successes, successes, success_of_ok ht₁,
      success_of_ok ht₂, success_of_error ht₃, success_of_ok ht₄]
    rfl
  have hregular : ∀ c ∈ trialCalls, ∀ d, trial.files.opens c.path ≠ some (.device d) := by
    have hopensNone : trial.files.opens [] = none := rfl
    simp [trialCalls, hopensA, hopensB, hopensNone]
  have hdrawn : ∀ e, some (.error (.draw e)) ∉ trial.results trialCalls := by
    simp [hresults]
  obtain ⟨hfilesOf, hbuilt, -⟩ := files_of_successes trial trialCalls hregular hdrawn
  obtain ⟨q, hq, -, hreadA⟩ := hfilesOf [⟨"p", 1, [97]⟩] ⟨"q", 1, [97]⟩ [⟨"p", 1, [98]⟩] hsuccesses
    (by simp [hopensA, hopensB])
  obtain ⟨p, hp, -, hreadB⟩ := hfilesOf [⟨"p", 1, [97]⟩, ⟨"q", 1, [97]⟩] ⟨"p", 1, [98]⟩ []
    hsuccesses (by rintro c ⟨⟩)
  cases hq
  cases hp
  obtain ⟨p', hp', -, hbuiltP⟩ := hbuilt "p" trialP rfl
  obtain ⟨q', hq', -, hbuiltQ⟩ := hbuilt "q" trialQ rfl
  rw [hsuccesses] at hbuiltP hbuiltQ
  exact ⟨hregular, hdrawn, hsuccesses, hreadA, hreadB, ⟨p', q', hp', hbuiltP, hq', hbuiltQ⟩,
    by decide +kernel, by decide +kernel⟩

end Session

end SyntheticLog
