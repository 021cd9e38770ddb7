import SyntheticLog.Output.Writer

/-!
# Pieces and what they are for

* `Piece`: bytes with the part of the output that they belong to.
* `OpenFile.taken_eq`: what becomes of a file that takes all bytes.
* `Writer.putAll`: puts pieces one by one, and tells at which kind of piece it fails.
* `Writer.Sound`: no more is kept back than the buffer holds; every step of the writer preserves it.
* `Writer.put_ok`, `Writer.putAll_ok`: what is put stands behind all that was put before.
-/

set_option autoImplicit false

namespace SyntheticLog

/-- The part of the output that bytes belong to. -/
inductive Cause
  | record
  | newline
  | finish
  deriving DecidableEq, Repr

/-- Bytes, and the part of the output that they belong to. -/
structure Piece where
  cause : Cause
  bytes : ByteArray

def Piece.joined : List Piece → ByteArray
  | [] => ByteArray.empty
  | p :: ps => p.bytes ++ joined ps

theorem Piece.joined_append (ps qs : List Piece) :
    Piece.joined (ps ++ qs) = Piece.joined ps ++ Piece.joined qs := by
  induction ps with
  | nil => rw [List.nil_append, Piece.joined, ByteArray.empty_append]
  | cons p ps ih => rw [List.cons_append, Piece.joined, Piece.joined, ih, ByteArray.append_assoc]

/-! ## Bytes that are all taken -/

namespace OpenFile
variable {f f' : OpenFile} {bytes rest : ByteArray}

theorem behaviour_of_ok {k : Nat} (h : offer bytes f = .ok k f') : f'.behaviour = f.behaviour := by
  obtain ⟨behaviour, taken, calls⟩ := f
  simp only [offer] at h
  split at h <;> cases h
  rfl

theorem behaviour_of_error {e : FileError} (h : offer bytes f = .error e f') :
    f'.behaviour = f.behaviour := by
  obtain ⟨behaviour, taken, calls⟩ := f
  simp only [offer] at h
  split at h <;> cases h
  rfl

theorem behaviour_handOver (f : OpenFile) (bytes : ByteArray) :
    (handOver f bytes).file.behaviour = f.behaviour := by
  fun_induction handOver f bytes with
  | case1 f bytes h => rfl
  | case2 f bytes h k f' hk ih => rw [ih, behaviour_of_ok hk]
  | case3 f bytes h e f' hk => exact behaviour_of_error hk

theorem behaviour_eq (h : handOver f bytes = ⟨f', rest, none⟩) : f'.behaviour = f.behaviour := by
  have hbehaviour := behaviour_handOver f bytes
  rw [h] at hbehaviour
  exact hbehaviour

theorem rest_eq (h : handOver f bytes = ⟨f', rest, none⟩) : rest = ByteArray.empty := by
  have hrest := @rest_handOver f bytes
  rw [h] at hrest
  exact hrest rfl

theorem taken_eq (h : handOver f bytes = ⟨f', rest, none⟩) : f'.taken = f.taken ++ bytes := by
  have htaken := taken_handOver f bytes
  rw [h, rest_eq h, ByteArray.append_empty] at htaken
  exact htaken

end OpenFile

namespace Writer

/-! ## Room for a piece -/

/-- Writes a piece for which room was made: past the buffer if it is as large as the buffer. -/
def store (piece : ByteArray) : EStateM FileError Writer Unit := fun w =>
  if w.capacity ≤ piece.size then putDirect piece w else keep piece w

theorem put_of_lt {piece : ByteArray} {w : Writer} (h : w.spare < piece.size) :
    put piece w = (drain >>= fun _ => store piece) w := by
  rw [put, if_pos h]
  simp only [bind, EStateM.bind]
  cases drain w <;> rfl

theorem put_of_le {piece : ByteArray} {w : Writer} (h : piece.size ≤ w.spare) :
    put piece w = store piece w := by
  rw [put, if_neg (Nat.not_lt.2 h)]
  rfl

theorem store_of_le {piece : ByteArray} {w : Writer} (h : w.capacity ≤ piece.size) :
    store piece w = putDirect piece w := if_pos h

theorem store_of_lt {piece : ByteArray} {w : Writer} (h : piece.size < w.capacity) :
    store piece w = keep piece w := if_neg (Nat.not_le.2 h)

/-! ## The buffer never holds more than it can -/

/-- No more is kept back than the buffer holds. -/
def Sound (w : Writer) : Prop := w.pending.size ≤ w.capacity

theorem sound_ofFile (file : OpenFile) (capacity : Nat) : (ofFile file capacity).Sound :=
  Nat.zero_le _

theorem Sound.pending_eq {w : Writer} (h : w.Sound) {piece : ByteArray}
    (hs : piece.size ≤ w.spare) (hc : w.capacity ≤ piece.size) : w.pending = ByteArray.empty := by
  have hsize : w.pending.size = 0 := by
    unfold Sound at h
    unfold spare at hs
    omega
  exact ByteArray.size_eq_zero_iff.1 hsize

/-- What a piece that was stored behind kept bytes leaves: the bytes in order, in a sound buffer. -/
theorem store_ok {piece : ByteArray} {w w' : Writer} (h : store piece w = .ok () w')
    (hp : w.pending = ByteArray.empty ∨ w.Sound ∧ piece.size ≤ w.spare) :
    w'.written = w.written ++ piece ∧ w'.Sound := by
  have hpast : w.capacity ≤ piece.size → w.pending = ByteArray.empty := by
    intro hc
    rcases hp with hp | ⟨hs, hle⟩
    · exact hp
    · exact hs.pending_eq hle hc
  have hroom : piece.size < w.capacity → w.pending.size + piece.size ≤ w.capacity := by
    intro hc
    rcases hp with hp | ⟨hs, hle⟩
    · rw [hp, ByteArray.size_empty]
      omega
    · unfold Sound at hs
      unfold spare at hle
      omega
  obtain ⟨file, pending, capacity⟩ := w
  rcases Nat.lt_or_ge piece.size capacity with hc | hc
  · have hwritten := written_keep piece ⟨file, pending, capacity⟩
    rw [store_of_lt hc] at h
    cases h
    refine ⟨hwritten, ?_⟩
    rw [Sound, ByteArray.size_append]
    exact hroom hc
  · rw [store_of_le hc] at h
    have hempty : pending = ByteArray.empty := hpast hc
    subst hempty
    simp only [putDirect] at h
    split at h <;> rename_i hf <;> cases h
    refine ⟨?_, Nat.zero_le _⟩
    simp only [written, ByteArray.append_empty]
    exact OpenFile.taken_eq hf

theorem put_ok {piece : ByteArray} {w w' : Writer} (h : put piece w = .ok () w') (hw : w.Sound) :
    w'.written = w.written ++ piece ∧ w'.Sound := by
  rcases Nat.lt_or_ge w.spare piece.size with hs | hs
  · rw [put_of_lt hs] at h
    simp only [bind, EStateM.bind] at h
    split at h
    · rename_i u v hd
      have hwritten := written_drain w
      rw [hd] at hwritten
      obtain ⟨h1, h2⟩ := store_ok h (Or.inl (pending_drain hd))
      exact ⟨h1.trans (congrArg (· ++ piece) hwritten), h2⟩
    · cases h
  · rw [put_of_le hs] at h
    exact store_ok h (Or.inr ⟨hw, hs⟩)

/-! ## Many pieces -/

def putAll : List Piece → EStateM (Cause × FileError) Writer Unit
  | [] => pure ()
  | p :: ps => fun w =>
    match put p.bytes w with
    | .ok _ w => putAll ps w
    | .error e w => .error (p.cause, e) w

theorem putAll_cons_of_ok {p : Piece} {w w' : Writer} (h : put p.bytes w = .ok () w')
    (ps : List Piece) : putAll (p :: ps) w = putAll ps w' := by simp only [putAll, h]

theorem putAll_cons_of_error {p : Piece} {w w' : Writer} {e : FileError}
    (h : put p.bytes w = .error e w') (ps : List Piece) :
    putAll (p :: ps) w = .error (p.cause, e) w' := by simp only [putAll, h]

theorem putAll_append (ps qs : List Piece) :
    putAll (ps ++ qs) = putAll ps >>= fun _ => putAll qs := by
  induction ps with
  | nil => rfl
  | cons p ps ih =>
    funext w
    simp only [List.cons_append, putAll, ih, bind, EStateM.bind]
    cases put p.bytes w <;> rfl

theorem putAll_ok {ps : List Piece} {w w' : Writer} (h : putAll ps w = .ok () w') (hw : w.Sound) :
    w'.written = w.written ++ Piece.joined ps ∧ w'.Sound := by
  induction ps generalizing w with
  | nil =>
    cases h
    exact ⟨ByteArray.append_empty.symm, hw⟩
  | cons p ps ih =>
    cases hp : put p.bytes w with
    | ok u v =>
      rw [putAll_cons_of_ok hp] at h
      obtain ⟨hv, hsound⟩ := put_ok hp hw
      obtain ⟨hwritten, hsound'⟩ := ih h hsound
      refine ⟨?_, hsound'⟩
      rw [hwritten, hv, Piece.joined, ByteArray.append_assoc]
    | error e v =>
      rw [putAll_cons_of_error hp] at h
      cases h

end Writer

end SyntheticLog
