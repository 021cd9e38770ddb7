import SyntheticLog.Proofs.Output.Batches
import SyntheticLog.Proofs.Populate.Rows

/-!
# How a refusal fails a run

* `Generator.batches`: the bytes that a run hands over together, in order.
* `writeFile_result`: what a run gives is decided by the first batch that the file refuses.
* `failure_iff`: the run fails as a failure of JSON exactly if that batch was set off by the text of
  a record, and as a failure of the file in all other cases.
-/

set_option autoImplicit false

namespace SyntheticLog

open SyntheticLog.Random Log

variable {σ : Type} [WordSource σ]

/-! ## The batches of a run -/

def Generator.pieces (g : Generator σ) (n : Nat) : List Piece :=
  (g.upcoming n).flatMap Record.linePieces

/-- The batches of a run: those that its pieces set off, and at the end what is kept back. A run
whose source stops does not get to its end. -/
def Generator.batches (capacity : Nat) (g : Generator σ) (n : Nat) : List Piece :=
  Writer.batches capacity ByteArray.empty (g.pieces n) ++
    if g.stop? n = none then
      [⟨.finish, Writer.keptAfter capacity ByteArray.empty (g.pieces n)⟩]
    else []

/-- The cause of the batch that is refused first, and the error of the system. -/
def OpenFile.refusal? (f : OpenFile) (batches : List Piece) : Option (Cause × FileError) :=
  match takeAll batches f with
  | .ok _ _ => none
  | .error x _ => some x

/-- What a run gives if nothing that it hands over is refused. -/
def Behaviour.verdict (b : Behaviour) (g : Generator σ) (n : Nat) : Except PopulateError Tally :=
  match g.stop? n with
  | some e => .error (.draw e)
  | none =>
    match b.size (Record.lines (g.upcoming n)).size with
    | .ok size => .ok ⟨n, size⟩
    | .error e => .error (.io e)

/-! ## The end of a run -/

theorem Job.run_eq (n : Nat) (j : Job σ) :
    Job.run n j =
      match writeRows n j with
      | .ok _ j => finish j
      | .error e j => .error e j := by
  simp only [run, writeRows, finish, Carrier.run, bind, EStateM.bind]
  cases alone.rows n j <;> rfl

omit [WordSource σ] in
theorem Job.finish_eq (g : Generator σ) (w : Writer) (rows : Nat) (events : Array Event) :
    finish ⟨g, w, rows, events⟩ =
      match Writer.drain w with
      | .error e w => .error (.io e) ⟨g, w, rows, events⟩
      | .ok _ w =>
        match w.file.behaviour.size w.file.taken.size with
        | .ok size => .ok ⟨rows, size⟩ ⟨g, w, rows, events⟩
        | .error e => .error (.io e) ⟨g, w, rows, events⟩ := by
  simp only [finish, Carrier.finish, alone, drain, onWriter, bind, EStateM.bind]
  cases Writer.drain w with
  | error e w => rfl
  | ok u w =>
    simp only [sizeOf?]
    cases w.file.behaviour.size w.file.taken.size <;> rfl

theorem writeFile_result_eq (capacity : Nat) (file : OpenFile) (g : Generator σ) (n : Nat) :
    (writeFile capacity file g n).result =
      match Job.run n (.start capacity file g) with
      | .ok t _ => .ok t
      | .error e _ => .error e := by
  rw [writeFile]
  cases Job.run n (.start capacity file g) <;> rfl

/-! ## The result -/

/-- The first batch that the file refuses decides what the run gives. -/
theorem writeFile_result (capacity : Nat) (b : Behaviour) (g : Generator σ) (n : Nat) :
    (writeFile capacity (.fresh b) g n).result =
      match OpenFile.refusal? (.fresh b) (g.batches capacity n) with
      | some x => .error (x.1.failure x.2)
      | none => b.verdict g n := by
  rw [writeFile_result_eq, Job.run_eq, Job.start, OpenFile.refusal?, Generator.batches,
    Behaviour.verdict, OpenFile.takeAll_append]
  simp only [bind, EStateM.bind]
  rcases ht : OpenFile.takeAll (Writer.batches capacity ByteArray.empty (g.pieces n)) (.fresh b)
    with ⟨u, f⟩ | ⟨x, f⟩
  · have hput := Writer.putAll_of_ok ht
    rw [Writer.ofFile, Job.writeRows_of_ok hput]
    rcases hs : g.stop? n with _ | e
    · rw [if_pos rfl]
      have hwritten := (Writer.putAll_ok hput (Nat.zero_le _)).1
      simp only [Job.finish_eq, Writer.drain_eq _ _ _ .finish]
      rcases hd : OpenFile.takeAll
          [⟨.finish, Writer.keptAfter capacity ByteArray.empty (g.pieces n)⟩] f with
        ⟨v, f'⟩ | ⟨x, f'⟩
      · obtain ⟨htaken, hbehaviour⟩ := OpenFile.takeAll_ok hd
        have hb : f'.behaviour = b := hbehaviour.trans (OpenFile.takeAll_ok ht).2
        have hall : f'.taken = Record.lines (g.upcoming n) := by
          rw [htaken, Piece.joined, Piece.joined, ByteArray.append_empty]
          simp only [Writer.written, OpenFile.fresh, ByteArray.empty_append] at hwritten
          rw [hwritten, Generator.pieces, Record.joined_flatMap_linePieces]
        simp only [hb, hall, Nat.zero_add]
        cases b.size (Record.lines (g.upcoming n)).size <;> rfl
      · obtain ⟨p, hp, hc⟩ := OpenFile.cause_of_error hd
        rw [List.mem_singleton.1 hp] at hc
        simp only [← hc, Cause.failure]
    · rw [if_neg (by simp)]
      rfl
  · obtain ⟨w, hput⟩ := Writer.putAll_of_error ht
    obtain ⟨g', rows, events, hrows⟩ := Job.writeRows_of_error hput 0 #[]
    rw [Writer.ofFile, hrows]

theorem populate_of_error {fs : FileSystem} {path : Bytes} {e : FileError}
    (h : fs.create path = .error e) (g : Generator σ) (n : Nat) :
    populate fs g n path = ⟨.error (.io e), g, fs, [.start path n]⟩ := by
  rw [populate]
  simp only [h]

theorem populate_of_ok {fs fs' : FileSystem} {path : Bytes} {target : FileSystem.Target}
    (h : fs.create path = .ok (target, fs')) (g : Generator σ) (n : Nat) :
    populate fs g n path =
      ⟨(writeFile bufferCapacity (.fresh target.behaviour) g n).result,
        (writeFile bufferCapacity (.fresh target.behaviour) g n).generator,
        fs'.store target (writeFile bufferCapacity (.fresh target.behaviour) g n).file.taken,
        .start path n :: (writeFile bufferCapacity (.fresh target.behaviour) g n).events⟩ := by
  rw [populate]
  simp only [h]

/-- A run fails as a failure of JSON exactly if the first batch that the file refuses was set off by
the text of a record. It fails as a failure of the file if that batch was set off by the end of a
line or of the run, if no size is given at the end, and if the file cannot be opened. -/
theorem failure_iff (b : Behaviour) (g : Generator σ) (n : Nat) (e : FileError) :
    ((writeFile bufferCapacity (.fresh b) g n).result = .error (.json e) ↔
      OpenFile.refusal? (.fresh b) (g.batches bufferCapacity n) = some (.record, e)) ∧
    ((writeFile bufferCapacity (.fresh b) g n).result = .error (.io e) ↔
      OpenFile.refusal? (.fresh b) (g.batches bufferCapacity n) = some (.newline, e) ∨
      OpenFile.refusal? (.fresh b) (g.batches bufferCapacity n) = some (.finish, e) ∨
      OpenFile.refusal? (.fresh b) (g.batches bufferCapacity n) = none ∧ g.stop? n = none ∧
        b.size (Record.lines (g.upcoming n)).size = .error e) ∧
    (∀ (fs : FileSystem) (path : Bytes),
      fs.create path = .error e → (populate fs g n path).result = .error (.io e)) ∧
    ∀ (fs fs' : FileSystem) (path : Bytes) (target : FileSystem.Target),
      fs.create path = .ok (target, fs') →
        (populate fs g n path).result =
          (writeFile bufferCapacity (.fresh target.behaviour) g n).result := by
  have hresult := writeFile_result bufferCapacity b g n
  rw [Behaviour.verdict] at hresult
  refine ⟨?_, ?_, ?_, ?_⟩
  · rw [hresult]
    rcases OpenFile.refusal? (.fresh b) (g.batches bufferCapacity n) with _ | ⟨c, d⟩
    · cases g.stop? n with
      | some d => simp
      | none => cases b.size (Record.lines (g.upcoming n)).size <;> simp
    · cases c <;> simp [Cause.failure]
  · rw [hresult]
    rcases OpenFile.refusal? (.fresh b) (g.batches bufferCapacity n) with _ | ⟨c, d⟩
    · cases g.stop? n with
      | some d => simp
      | none => cases b.size (Record.lines (g.upcoming n)).size <;> simp
    · cases c <;> simp [Cause.failure]
  · intro fs path h
    rw [populate_of_error h]
  · intro fs fs' path target h
    rw [populate_of_ok h]

end SyntheticLog
