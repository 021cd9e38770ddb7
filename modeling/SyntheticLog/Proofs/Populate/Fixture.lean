import SyntheticLog.Proofs.Files.Opening
import SyntheticLog.Proofs.Generator.Domain
import SyntheticLog.Proofs.Populate.Prefix
import SyntheticLog.Proofs.Record.Form

/-!
# What a finished run leaves behind

* `Fixture`: so many lines of the form of a record, and a tally that fits them.
* `writeFile_taken`: a run that succeeds has written the lines of the next records, whatever the file
  did on the way.
* `populate_fixture`: a run on a regular file succeeds if the source does not stop, and leaves a
  fixture.
-/

set_option autoImplicit false

namespace SyntheticLog

open SyntheticLog.Random Log FileSystem

variable {σ : Type} [WordSource σ]

/-- The contents are `n` lines of the form of a record, each with a newline behind it, and `t` is
their tally. -/
structure Fixture (n : Nat) (contents : ByteArray) (t : Tally) : Prop where
  lines : ∃ ls : List (List UInt8), ls.length = n ∧
    contents.data.toList = ls.flatMap (· ++ [Digest.newline]) ∧ Digest.split contents = (ls, []) ∧
    ∀ l ∈ ls, Record.HasForm l
  rows : t.rows = n
  size : t.size = contents.size
  least : 49 * n ≤ contents.size
  greatest : contents.size ≤ 83 * n

theorem fixture_upcoming {n : Nat} {g : Generator σ} (h : g.stop? n = none) :
    Fixture n (Record.lines (g.upcoming n)) ⟨n, (Record.lines (g.upcoming n)).size⟩ := by
  have hlength := Generator.stop?_eq_none_iff.1 h
  have hdomain := Generator.inDomain_upcoming n g
  obtain ⟨hleast, hgreatest⟩ := Record.size_lines hdomain
  rw [hlength] at hleast hgreatest
  refine ⟨⟨(g.upcoming n).map Record.lineBytes, ?_, Record.toList_lines _, Record.split_lines _, ?_⟩,
    rfl, rfl, hleast, hgreatest⟩
  · rw [List.length_map, hlength]
  · intro l hl
    obtain ⟨r, hr, rfl⟩ := List.mem_map.1 hl
    exact Record.hasForm_lineBytes (hdomain r hr)

/-! ## Files of any behaviour -/

theorem writeFile_taken {capacity : Nat} {b : Behaviour} {g : Generator σ} {n : Nat} {t : Tally}
    (h : (writeFile capacity (.fresh b) g n).result = .ok t) :
    (writeFile capacity (.fresh b) g n).file.taken = Record.lines (g.upcoming n) := by
  obtain ⟨last, hlast, -, houtcome⟩ := writeFile_reaches capacity (.fresh b) g n
  have hphase := (Moment.phase_start capacity b g n).reaches hlast
  obtain ⟨hsettled, -, hfile⟩ := hphase.settled houtcome
  obtain ⟨-, hwritten, hpending⟩ := hsettled.taken t h
  rw [hfile, ← hwritten, Writer.written, hpending, ByteArray.append_empty]

theorem verdict_of_ok {capacity : Nat} {b : Behaviour} {g : Generator σ} {n : Nat} {t : Tally}
    (h : (writeFile capacity (.fresh b) g n).result = .ok t) : b.verdict g n = .ok t := by
  rw [writeFile_result] at h
  split at h
  · cases h
  · exact h

theorem fixture_of_verdict {b : Behaviour} (hsize : ∀ k, b.size k = .ok k) {g : Generator σ}
    {n : Nat} {t : Tally} (h : b.verdict g n = .ok t) :
    g.stop? n = none ∧ Fixture n (Record.lines (g.upcoming n)) t := by
  rw [Behaviour.verdict, hsize] at h
  cases hstop : g.stop? n with
  | some e =>
    rw [hstop] at h
    cases h
  | none =>
    rw [hstop] at h
    cases h
    exact ⟨rfl, fixture_upcoming hstop⟩

/-! ## Regular files -/

theorem populate_regular {fs : FileSystem} {path : Bytes} {p : Place}
    (opens : fs.opens path = some (.regular p)) (g : Generator σ) (n : Nat) :
    (populate fs g n path).result = Behaviour.regular.verdict g n ∧
      (populate fs g n path).files.read path = .ok (Record.lines (g.upcoming n)) := by
  obtain ⟨fs', hcreate⟩ := create_of_opens opens
  obtain ⟨-, hregular⟩ := opens_of_create hcreate
  obtain ⟨hfree, rfl⟩ := hregular p rfl
  obtain ⟨f, hwritten, htaken⟩ := writeFile_willing willing_regular bufferCapacity g n
  have hpopulate := populate_of_ok hcreate g n
  rw [FileSystem.Target.behaviour, hwritten] at hpopulate
  rw [hpopulate]
  refine ⟨rfl, ?_⟩
  -- The file is put twice at its place, empty and then with the lines; neither moves the path.
  have hopens : ((fs.put p (.file ByteArray.empty)).put p (.file f.taken)).opens path =
      some (.regular p) := by
    rw [opens_put (.put _), opens_put hfree, opens]
  rw [← htaken]
  exact read_of_opens hopens (get?_put_self _ _ _)

/-- A run on a regular file succeeds exactly if the source does not stop, and then leaves a fixture
in the file, whatever was in it. It leaves one in any file whose calls go well in the end. On the way
no time leaves its type and no pick leaves its pool. -/
theorem populate_fixture (fs : FileSystem) (g : Generator σ) (n : Nat) (path : Bytes) (p : Place)
    (opens : fs.opens path = some (.regular p)) :
    ((∃ t, (populate fs g n path).result = .ok t) ↔ g.stop? n = none) ∧
    (∀ e, (populate fs g n path).result = .error e → e = .draw .outOfWords) ∧
    (∀ t, (populate fs g n path).result = .ok t →
      ∃ contents, (populate fs g n path).files.read path = .ok contents ∧ Fixture n contents t) ∧
    (∀ (b : Behaviour) (t : Tally), (∀ k, b.size k = .ok k) →
      (writeFile bufferCapacity (.fresh b) g n).result = .ok t →
        Fixture n (writeFile bufferCapacity (.fresh b) g n).file.taken t) ∧
    (∀ (s s' : σ) (x : Int), intRange Record.offsetType 0 Record.tsMaxOffset s = .ok x s' →
      Record.offsetType.least ≤ Record.tsBase + x ∧
        Record.tsBase + x ≤ Record.offsetType.greatest) ∧
    ∀ pool ∈ [Record.events, Record.messages], ∀ (s s' : σ) (i : Nat),
      below pool.length s = .ok i s' → i < pool.length := by
  obtain ⟨hresult, hread⟩ := populate_regular opens g n
  have hsize (k : Nat) : Behaviour.regular.size k = .ok k := rfl
  refine ⟨?_, ?_, ?_, ?_, ?_, ?_⟩
  · rw [hresult]
    constructor
    · rintro ⟨t, ht⟩
      exact (fixture_of_verdict hsize ht).1
    · intro hstop
      rw [Behaviour.verdict, hstop]
      exact ⟨_, rfl⟩
  · intro e he
    rw [hresult, Behaviour.verdict, hsize] at he
    cases hstop : g.stop? n with
    | none =>
      rw [hstop] at he
      cases he
    | some d =>
      rw [hstop] at he
      cases he
      rw [Generator.outOfWords_of_stop? hstop]
  · intro t ht
    rw [hresult] at ht
    exact ⟨_, hread, (fixture_of_verdict hsize ht).2⟩
  · intro b t hb ht
    rw [writeFile_taken ht]
    exact (fixture_of_verdict hb (verdict_of_ok ht)).2
  · intro s s' x hx
    obtain ⟨hlow, hhigh⟩ := Record.gives_offset.ok hx
    exact Record.ts_in_type hlow hhigh
  · intro pool hpool s s' i hi
    have hpos : ∀ pool ∈ [Record.events, Record.messages], 0 < pool.length := by decide
    exact (gives_below (hpos pool hpool)).ok hi

/-- A file that is new in an empty tree, and a source of zeros that is long enough for one record. -/
theorem populate_fixture_zeros :
    ∃ (t : Tally) (contents : ByteArray),
      FileSystem.opens ⟨∅, #[], root⟩ [97] = some (.regular ⟨root, [97]⟩) ∧
      (populate ⟨∅, #[], root⟩ (.ofSource (List.replicate 11 (0 : UInt32))) 1 [97]).result = .ok t ∧
      Fixture 1 contents t := by
  have hvacant : FileSystem.get? ⟨∅, #[], root⟩ ⟨root, [97]⟩ = none := rfl
  have hopens : FileSystem.opens ⟨∅, #[], root⟩ [97] = some (.regular ⟨root, [97]⟩) := by
    show target? (walk ⟨∅, #[], root⟩ .creating linkLimit root [[97]] false) = _
    rw [walk_name ⟨by decide, by decide, by decide, by decide⟩, hvacant]
    rfl
  have hstop : Generator.stop? 1 (.ofSource (List.replicate 11 (0 : UInt32))) = none := by
    decide +kernel
  obtain ⟨hends, -, hfixture, -⟩ := populate_fixture ⟨∅, #[], root⟩
    (.ofSource (List.replicate 11 (0 : UInt32))) 1 [97] ⟨root, [97]⟩ hopens
  obtain ⟨t, ht⟩ := hends.2 hstop
  obtain ⟨contents, -, hcontents⟩ := hfixture t ht
  exact ⟨t, contents, hopens, ht, hcontents⟩

end SyntheticLog
