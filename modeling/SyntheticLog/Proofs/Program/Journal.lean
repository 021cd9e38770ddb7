import SyntheticLog.Program
import SyntheticLog.Proofs.Populate.Fixture
import SyntheticLog.Proofs.Populate.Reports

/-!
# The events of a run

* `populate_size`: a run that succeeds gives the length of the file.
* `run_events`: all events of a run, in order.
-/

set_option autoImplicit false

namespace SyntheticLog

open SyntheticLog.Random Log FileSystem

variable {σ : Type} [WordSource σ]

/-! ## The length of the file -/

/-- A device tells of no bytes, whatever it has taken. -/
theorem size_of_device (d : Device) (k : Nat) :
    (Target.behaviour (.device d)).size k = .ok 0 := by
  cases d <;> rfl

theorem populate_size {fs : FileSystem} {g : Generator σ} {n : Nat} {path : Bytes} {t : Tally}
    (h : (populate fs g n path).result = .ok t) :
    ∃ contents, (populate fs g n path).files.read path = .ok contents ∧ t.size = contents.size := by
  cases hcreate : fs.create path with
  | error e =>
    rw [populate_of_error hcreate] at h
    cases h
  | ok created =>
    obtain ⟨target, fs'⟩ := created
    obtain ⟨hopens, -⟩ := opens_of_create hcreate
    cases target with
    | regular p =>
      obtain ⟨hresult, hread⟩ := populate_regular hopens g n
      rw [hresult] at h
      exact ⟨_, hread, (fixture_of_verdict (fun _ => rfl) h).2.size⟩
    | device d =>
      rw [create_of_device hopens] at hcreate
      cases hcreate
      have hpopulate := populate_of_ok (create_of_device hopens) g n
      rw [hpopulate] at h ⊢
      refine ⟨ByteArray.empty, read_of_device hopens, ?_⟩
      have hverdict := verdict_of_ok h
      rw [Behaviour.verdict, size_of_device] at hverdict
      cases hstop : g.stop? n with
      | some e =>
        rw [hstop] at hverdict
        cases hverdict
      | none =>
        rw [hstop] at hverdict
        cases hverdict
        rfl

/-! ## Events in order -/

theorem populate_events (fs : FileSystem) (g : Generator σ) (n : Nat) (path : Bytes) :
    ∃ tail, (populate fs g n path).events = .start path n :: tail ∧
      Reports n tail (populate fs g n path).result ∧
      ∀ e, fs.create path = .error e → tail = [] := by
  cases hcreate : fs.create path with
  | error e =>
    rw [populate_of_error hcreate]
    exact ⟨[], rfl, ⟨0, Nat.zero_le n, progressReports_zero.symm⟩, fun _ _ => rfl⟩
  | ok created =>
    obtain ⟨target, fs'⟩ := created
    rw [populate_of_ok hcreate]
    exact ⟨_, rfl, writeFile_events bufferCapacity target.behaviour g n, by rintro e ⟨⟩⟩

theorem run_events_eq (fs : FileSystem) (entropy : Bytes) (c : Config) :
    (run fs entropy c).events = (c.seed.map Event.fixedSeed).toList ++
      (populate fs (c.generator entropy) c.rowCount c.filePath).events := by
  rw [run]
  cases c.seed <;> rfl

theorem Reports.mapError {ε ε' : Type} {n : Nat} {events : List Event} {result : Except ε Tally}
    (h : Reports n events result) (f : ε → ε') : Reports n events (result.mapError f) := by
  cases result <;> exact h

theorem ok_of_mapError {ε ε' α : Type} {result : Except ε α} {f : ε → ε'} {x : α}
    (h : result.mapError f = .ok x) : result = .ok x := by
  cases result with
  | ok y =>
    cases h
    rfl
  | error e => cases h

/-- A run reports its seed, if it has one, and its file. Then it reports the multiples of the
interval up to the number of rows, in order, and that it is complete, with the length of the file.
If it fails, the reports end on the way, and there are none if the file is not opened. On a file of
any behaviour, each of these reports comes when so many lines are with the writer. -/
theorem run_events (fs : FileSystem) (entropy : Bytes) (c : Config) (capacity : Nat) (b : Behaviour)
    (g : Generator σ) (n : Nat) :
    (∃ tail, (run fs entropy c).events = c.preface ++ tail ∧
      Reports c.rowCount tail (run fs entropy c).result ∧
      (∀ e, fs.create c.filePath = .error e → tail = []) ∧
      (∀ target fs', fs.create c.filePath = .ok (target, fs') →
        tail = (writeFile bufferCapacity (.fresh target.behaviour) (c.generator entropy)
          c.rowCount).events) ∧
      ∀ t, (run fs entropy c).result = .ok t → ∃ contents,
        (run fs entropy c).files.read c.filePath = .ok contents ∧ t.size = contents.size) ∧
    Reports n (writeFile capacity (.fresh b) g n).events
      (writeFile capacity (.fresh b) g n).result ∧
    (∃ last, (Moment.start capacity (.fresh b) g n).Reaches last ∧ last.next? = none ∧
      last.outcome? = some (writeFile capacity (.fresh b) g n)) ∧
    (∀ m, (Moment.start capacity (.fresh b) g n).Reaches m →
      m.job.events.toList = progressReports m.job.rows ∧ m.job.rows ≤ n ∧
        (g.upcoming m.job.rows).length = m.job.rows ∧
        Begins (Record.lines (g.upcoming m.job.rows)) m.written) ∧
    ∀ rows, (milestones rows).length = rows / progressInterval ∧
      (milestones rows).Pairwise (· < ·) ∧
      (∀ k, k ∈ milestones rows ↔ 0 < k ∧ progressInterval ∣ k ∧ k ≤ rows) ∧
      ∀ n, rows ≤ n → milestones rows <+: milestones n := by
  refine ⟨?_, writeFile_events capacity b g n, ?_, ?_, ?_⟩
  · obtain ⟨tail, hevents, hreports, hclosed⟩ :=
      populate_events fs (c.generator entropy) c.rowCount c.filePath
    refine ⟨tail, ?_, hreports.mapError _, hclosed, ?_, ?_⟩
    · rw [run_events_eq, hevents, Config.preface, List.append_assoc, List.singleton_append]
    · intro target fs' hcreate
      rw [populate_of_ok hcreate] at hevents
      exact (List.cons.inj hevents).2.symm
    · intro t ht
      exact populate_size (ok_of_mapError ht)
  · obtain ⟨last, hlast, hnext, houtcome⟩ := writeFile_reaches capacity (.fresh b) g n
    exact ⟨last, hlast, hnext, houtcome⟩
  · intro m hm
    have hphase := (Moment.phase_start capacity b g n).reaches hm
    have hreported := Moment.reported_of_reaches hm
    obtain ⟨hrows, hbegins⟩ := hreported.begins hphase
    exact ⟨hreported.events, hrows, hreported.all, hbegins⟩
  · intro rows
    exact ⟨length_milestones rows, milestones_increasing rows, fun k => mem_milestones_iff,
      fun n hn => milestones_isPrefix hn⟩

end SyntheticLog
