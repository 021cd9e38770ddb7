import SyntheticLog.Proofs.Populate.Refusal

/-!
# Files that refuse nothing

A file may be willing to take bytes and yet take few of them at a time. What a run on such a file
gives is known in advance, and the capacity of the buffer is no part of it.

* `Behaviour.Willing`: no call is refused.
* `writeFile_willing`: what a run gives.
-/

set_option autoImplicit false

namespace SyntheticLog

open SyntheticLog.Random Log

/-- A file that refuses no call. -/
def Behaviour.Willing (b : Behaviour) : Prop :=
  ∀ calls offered e, b.answer calls offered ≠ .refuses e

theorem willing_regular : Behaviour.regular.Willing := by
  intro calls offered e h
  cases h

namespace OpenFile

theorem failure_handOver {f : OpenFile} (hf : f.behaviour.Willing) (bytes : ByteArray) :
    (handOver f bytes).failure = none := by
  fun_induction handOver f bytes with
  | case1 f bytes h => rfl
  | case2 f bytes h k f' hk ih =>
    refine ih ?_
    rw [behaviour_of_ok hk]
    exact hf
  | case3 f bytes h e f' hk =>
    obtain ⟨behaviour, taken, calls⟩ := f
    simp only [offer] at hk
    split at hk
    · cases hk
    · rename_i d hd
      exact absurd hd (hf calls bytes.size d)

theorem takeAll_willing {f : OpenFile} (hf : f.behaviour.Willing) (ps : List Piece) :
    ∃ f', takeAll ps f = .ok () f' ∧ f'.behaviour.Willing := by
  induction ps generalizing f with
  | nil => exact ⟨f, rfl, hf⟩
  | cons p ps ih =>
    have hfailure := failure_handOver hf p.bytes
    rcases hh : f.handOver p.bytes with ⟨f', rest, _ | e⟩
    · rw [takeAll_of_none hh]
      refine ih ?_
      rw [behaviour_eq hh]
      exact hf
    · rw [hh] at hfailure
      cases hfailure

end OpenFile

theorem Writer.taken_close {w : Writer} (hw : w.file.behaviour.Willing) :
    w.close.taken = w.written := by
  have hwritten := written_drain w
  have hpending := @pending_drain w
  obtain ⟨file, kept, capacity⟩ := w
  obtain ⟨f, hf, -⟩ := OpenFile.takeAll_willing hw [⟨.finish, kept⟩]
  have hdrain : drain ⟨file, kept, capacity⟩ = .ok () ⟨f, ByteArray.empty, capacity⟩ := by
    rw [drain_eq file kept capacity .finish, hf]
  rw [close, hdrain, ← hwritten, hdrain]
  exact ByteArray.append_empty.symm

variable {σ : Type} [WordSource σ]

/-- What a run reports that meets no refusal. -/
def Behaviour.account (b : Behaviour) (g : Generator σ) (n : Nat) : List Event :=
  match b.verdict g n with
  | .ok t => ((Job.reports n 0 #[]).push (.complete t.rows t.size)).toList
  | .error _ => (Job.reports (g.upcoming n).length 0 #[]).toList

/-- A run on a willing file writes the lines of the next records, and the generator goes on behind
them. -/
theorem writeFile_willing {b : Behaviour} (hb : b.Willing) (capacity : Nat) (g : Generator σ)
    (n : Nat) :
    ∃ f, writeFile capacity (.fresh b) g n = ⟨b.verdict g n, g.advance n, f, b.account g n⟩ ∧
      f.taken = Record.lines (g.upcoming n) := by
  obtain ⟨f, hf, hwilling⟩ := OpenFile.takeAll_willing (f := .fresh b) hb
    (Writer.batches capacity ByteArray.empty (g.pieces n))
  have hput := Writer.putAll_of_ok hf
  have hrows := Job.writeRows_of_ok hput 0 #[]
  have hwritten := (Writer.putAll_ok hput (Nat.zero_le _)).1
  rw [Generator.pieces, Record.joined_flatMap_linePieces, ← Writer.ofFile, Writer.written_ofFile,
    OpenFile.fresh, ByteArray.empty_append] at hwritten
  rw [writeFile, Job.run_eq, Job.start, Writer.ofFile, hrows, Behaviour.account, Behaviour.verdict]
  cases hs : g.stop? n with
  | some e => exact ⟨_, rfl, (Writer.taken_close hwilling).trans hwritten⟩
  | none =>
    obtain ⟨f', hf', hwilling'⟩ := OpenFile.takeAll_willing hwilling
      [⟨.finish, Writer.keptAfter capacity ByteArray.empty (g.pieces n)⟩]
    obtain ⟨htaken, hbehaviour⟩ := OpenFile.takeAll_ok hf'
    have hb' : f'.behaviour = b := hbehaviour.trans (OpenFile.takeAll_ok hf).2
    have hall : f'.taken = Record.lines (g.upcoming n) := by
      rw [htaken, Piece.joined, Piece.joined, ByteArray.append_empty]
      exact hwritten
    have hclose :
        (Writer.close ⟨f', ByteArray.empty, capacity⟩).taken = Record.lines (g.upcoming n) := by
      rw [Writer.taken_close hwilling', Writer.written, ByteArray.append_empty]
      exact hall
    have hlength := Generator.stop?_eq_none_iff.1 hs
    simp only [Job.finish_eq, Writer.drain_eq _ _ _ .finish, hf', hb', hall, Nat.zero_add, hlength]
    cases b.size (Record.lines (g.upcoming n)).size with
    | ok size => exact ⟨_, rfl, hclose⟩
    | error e => exact ⟨_, rfl, hclose⟩

end SyntheticLog
