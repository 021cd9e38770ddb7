import SyntheticLog.Output.OpenFile

/-!
# Buffered writing

A writer keeps bytes back until they fill its buffer, so that the file sees few calls. A piece that
does not fit makes it hand over what it kept; a piece as large as the buffer goes to the file
directly. What the file refuses stays in the buffer.

* `Writer.put`: writes one piece.
* `Writer.drain`: hands over what was kept.
* `Writer.close`: hands over what was kept for a last time, whatever comes of it.
-/

set_option autoImplicit false

namespace SyntheticLog

/-- An open file and the bytes kept back from it. -/
structure Writer where
  file : OpenFile
  pending : ByteArray
  capacity : Nat

namespace Writer

def ofFile (file : OpenFile) (capacity : Nat) : Writer := ⟨file, ByteArray.empty, capacity⟩

def drain : EStateM FileError Writer Unit := fun w =>
  match w with
  | ⟨file, pending, capacity⟩ =>
    match file.handOver pending with
    | ⟨file, rest, none⟩ => .ok () ⟨file, rest, capacity⟩
    | ⟨file, rest, some e⟩ => .error e ⟨file, rest, capacity⟩

/-- Writes a piece past the buffer. -/
def putDirect (piece : ByteArray) : EStateM FileError Writer Unit := fun w =>
  match w with
  | ⟨file, pending, capacity⟩ =>
    match file.handOver piece with
    | ⟨file, _, none⟩ => .ok () ⟨file, pending, capacity⟩
    | ⟨file, _, some e⟩ => .error e ⟨file, pending, capacity⟩

def keep (piece : ByteArray) : EStateM FileError Writer Unit := fun w =>
  match w with
  | ⟨file, pending, capacity⟩ => .ok () ⟨file, pending ++ piece, capacity⟩

def spare (w : Writer) : Nat := w.capacity - w.pending.size

def put (piece : ByteArray) : EStateM FileError Writer Unit := fun w =>
  if w.spare < piece.size then
    match drain w with
    | .ok _ w => if w.capacity ≤ piece.size then putDirect piece w else keep piece w
    | .error e w => .error e w
  else if w.capacity ≤ piece.size then putDirect piece w
  else keep piece w

/-! ## What is written -/

/-- The bytes put into the writer: those in the file, then those kept back. -/
def written (w : Writer) : ByteArray := w.file.taken ++ w.pending

@[simp] theorem written_ofFile (file : OpenFile) (capacity : Nat) :
    (ofFile file capacity).written = file.taken := ByteArray.append_empty

/-- The writer behind a step, whether the step succeeds or not. -/
def after {α : Type} : EStateM.Result FileError Writer α → Writer
  | .ok _ w => w
  | .error _ w => w

theorem written_drain (w : Writer) : (after (drain w)).written = w.written := by
  obtain ⟨file, pending, capacity⟩ := w
  have h := OpenFile.taken_handOver file pending
  simp only [drain]
  split <;> rename_i hf <;> rw [hf] at h <;> exact h

theorem pending_drain {w w' : Writer} (h : drain w = .ok () w') : w'.pending = ByteArray.empty := by
  obtain ⟨file, pending, capacity⟩ := w
  have hr := @OpenFile.rest_handOver file pending
  simp only [drain] at h
  split at h <;> rename_i hf <;> rw [hf] at hr <;> cases h
  exact hr rfl

theorem written_keep (piece : ByteArray) (w : Writer) :
    (after (keep piece w)).written = w.written ++ piece := by
  obtain ⟨file, pending, capacity⟩ := w
  exact ByteArray.append_assoc.symm

/-- Hands over the bytes kept back for a last time, and lets go of the file. -/
def close (w : Writer) : OpenFile :=
  match drain w with
  | .ok _ w => w.file
  | .error _ w => w.file

end Writer

end SyntheticLog
