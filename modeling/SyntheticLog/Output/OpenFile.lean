import SyntheticLog.Files.Error

/-!
# Open files

The system may take only the first few of the bytes that are offered to it in one call, or refuse
them all. A `Behaviour` says how it answers each call; `OpenFile` remembers what it has taken.

* `OpenFile.offer`: one call.
* `OpenFile.handOver`: calls until all bytes are taken or one call is refused.
-/

set_option autoImplicit false

namespace SyntheticLog

/-- The answer to bytes that are offered in one call. -/
inductive Answer
  /-- The first `n` are taken, at least one of them and no more than there are. -/
  | takes (n : Nat)
  | refuses (e : FileError)
  deriving DecidableEq, Repr

structure Behaviour where
  /-- The answer to a call, from the number of calls before and the number of bytes offered. -/
  answer : Nat → Nat → Answer
  /-- The size of the file, from the number of bytes taken. -/
  size : Nat → Except FileError Nat

def Behaviour.regular : Behaviour := ⟨fun _ n => .takes n, .ok⟩

/-- A file that takes all bytes and keeps none. -/
def Behaviour.null : Behaviour := ⟨fun _ n => .takes n, fun _ => .ok 0⟩

/-- A file that takes no byte, since its device is full. -/
def Behaviour.full : Behaviour := ⟨fun _ _ => .refuses .noSpace, fun _ => .ok 0⟩

structure OpenFile where
  behaviour : Behaviour
  taken : ByteArray
  calls : Nat

namespace OpenFile

/-- A file that has just been opened, and is empty. -/
def fresh (b : Behaviour) : OpenFile := ⟨b, ByteArray.empty, 0⟩

/-- The number of bytes taken of `offered`, when the answer was to take `n`. -/
def share (n offered : Nat) : Nat := min (max n 1) offered

/-- Offers bytes in one call; gives the number of those that were taken. -/
def offer (bytes : ByteArray) : EStateM FileError OpenFile Nat := fun f =>
  match f with
  | ⟨behaviour, taken, calls⟩ =>
    match behaviour.answer calls bytes.size with
    | .takes n =>
      .ok (share n bytes.size)
        ⟨behaviour, taken ++ bytes.extract 0 (share n bytes.size), calls + 1⟩
    | .refuses e => .error e ⟨behaviour, taken, calls + 1⟩

theorem share_pos {n offered : Nat} (h : 0 < offered) : 0 < share n offered := by
  unfold share
  omega

/-- The bytes that a call takes stand behind those taken before, and there is at least one. -/
theorem offer_ok {f f' : OpenFile} {bytes : ByteArray} {k : Nat} (h : offer bytes f = .ok k f') :
    f'.taken = f.taken ++ bytes.extract 0 k ∧ (0 < bytes.size → 0 < k) ∧ k ≤ bytes.size := by
  obtain ⟨behaviour, taken, calls⟩ := f
  simp only [offer] at h
  split at h
  · cases h
    exact ⟨rfl, share_pos, Nat.min_le_right _ _⟩
  · cases h

/-- A call that is refused takes nothing. -/
theorem offer_error {f f' : OpenFile} {bytes : ByteArray} {e : FileError}
    (h : offer bytes f = .error e f') : f'.taken = f.taken := by
  obtain ⟨behaviour, taken, calls⟩ := f
  simp only [offer] at h
  split at h
  · cases h
  · cases h
    rfl

/-- What is left after bytes were handed over. -/
structure Handed where
  file : OpenFile
  rest : ByteArray
  /-- The error of the last call, if it was refused. -/
  failure : Option FileError

/-- Offers bytes until all are taken or a call is refused. -/
def handOver (f : OpenFile) (bytes : ByteArray) : Handed :=
  if _h : bytes.size = 0 then ⟨f, ByteArray.empty, none⟩
  else
    match _hk : offer bytes f with
    | .ok k f => handOver f (bytes.extract k bytes.size)
    | .error e f => ⟨f, bytes, some e⟩
termination_by bytes.size
decreasing_by
  have := (offer_ok _hk).2.1 (Nat.pos_of_ne_zero _h)
  simp only [ByteArray.size_extract]
  omega

/-- Handing over loses no byte: what is not taken is left. -/
theorem taken_handOver (f : OpenFile) (bytes : ByteArray) :
    (handOver f bytes).file.taken ++ (handOver f bytes).rest = f.taken ++ bytes := by
  fun_induction handOver f bytes with
  | case1 f bytes h => rw [ByteArray.size_eq_zero_iff.1 h]
  | case2 f bytes h k f' hk ih =>
    obtain ⟨ht, -, hle⟩ := offer_ok hk
    rw [ih, ht, ByteArray.append_assoc, ByteArray.extract_append_extract,
      Nat.min_eq_left (Nat.zero_le _), Nat.max_eq_right hle, ByteArray.extract_zero_size]
  | case3 f bytes h e f' hk => rw [offer_error hk]

/-- Bytes are left only if a call was refused. -/
theorem rest_handOver {f : OpenFile} {bytes : ByteArray} (h : (handOver f bytes).failure = none) :
    (handOver f bytes).rest = ByteArray.empty := by
  fun_induction handOver f bytes with
  | case1 => rfl
  | case2 f bytes hs k f' hk ih => exact ih h
  | case3 => cases h

end OpenFile

end SyntheticLog
