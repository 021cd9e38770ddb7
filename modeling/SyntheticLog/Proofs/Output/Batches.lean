import SyntheticLog.Proofs.Output.Pieces

/-!
# Which bytes are handed over together

The buffer hands its bytes over in batches. Where a batch ends depends on the sizes of the pieces
alone, and not on the file; each batch is handed over on account of one piece.

* `Writer.batches`: the batches, each with the cause of the piece that sets it off.
* `OpenFile.takeAll`: a file is offered batch after batch, up to the first refusal.
* `Writer.putAll_of_ok`, `Writer.putAll_of_error`: putting pieces succeeds or fails as the offer of
  their batches does.
-/

set_option autoImplicit false

namespace SyntheticLog

/-! ## Batches offered to a file -/

namespace OpenFile

def takeAll : List Piece → EStateM (Cause × FileError) OpenFile Unit
  | [] => pure ()
  | p :: ps => fun f =>
    match f.handOver p.bytes with
    | ⟨f, _, none⟩ => takeAll ps f
    | ⟨f, _, some e⟩ => .error (p.cause, e) f

variable {p : Piece} {ps : List Piece} {f f' : OpenFile} {rest : ByteArray}

theorem takeAll_of_none (h : f.handOver p.bytes = ⟨f', rest, none⟩) (ps : List Piece) :
    takeAll (p :: ps) f = takeAll ps f' := by simp only [takeAll, h]

theorem takeAll_of_some {e : FileError} (h : f.handOver p.bytes = ⟨f', rest, some e⟩)
    (ps : List Piece) : takeAll (p :: ps) f = .error (p.cause, e) f' := by simp only [takeAll, h]

theorem takeAll_append (ps qs : List Piece) :
    takeAll (ps ++ qs) = takeAll ps >>= fun _ => takeAll qs := by
  induction ps with
  | nil => rfl
  | cons p ps ih =>
    funext f
    simp only [List.cons_append, takeAll, ih, bind, EStateM.bind]
    split <;> rfl

theorem takeAll_ok (h : takeAll ps f = .ok () f') :
    f'.taken = f.taken ++ Piece.joined ps ∧ f'.behaviour = f.behaviour := by
  induction ps generalizing f with
  | nil =>
    cases h
    exact ⟨ByteArray.append_empty.symm, rfl⟩
  | cons p ps ih =>
    rcases hf : f.handOver p.bytes with ⟨g, rest, _ | e⟩
    · rw [takeAll_of_none hf] at h
      obtain ⟨htaken, hbehaviour⟩ := ih h
      refine ⟨?_, hbehaviour.trans (behaviour_eq hf)⟩
      rw [htaken, taken_eq hf, Piece.joined, ByteArray.append_assoc]
    · rw [takeAll_of_some hf] at h
      cases h

theorem cause_of_error {x : Cause × FileError} (h : takeAll ps f = .error x f') :
    ∃ p ∈ ps, p.cause = x.1 := by
  induction ps generalizing f with
  | nil => cases h
  | cons p ps ih =>
    rcases hf : f.handOver p.bytes with ⟨g, rest, _ | e⟩
    · rw [takeAll_of_none hf] at h
      obtain ⟨q, hq, hc⟩ := ih h
      exact ⟨q, List.mem_cons_of_mem p hq, hc⟩
    · rw [takeAll_of_some hf] at h
      cases h
      exact ⟨p, List.mem_cons_self, rfl⟩

end OpenFile

namespace Writer

/-! ## The batches of a piece -/

/-- The bytes that a piece leaves in the buffer once there is room for it. -/
def cleared (capacity : Nat) (kept : ByteArray) (p : Piece) : ByteArray :=
  if capacity - kept.size < p.bytes.size then ByteArray.empty else kept

/-- The bytes that are kept back behind a piece. -/
def keptBehind (capacity : Nat) (kept : ByteArray) (p : Piece) : ByteArray :=
  if capacity ≤ p.bytes.size then cleared capacity kept p else cleared capacity kept p ++ p.bytes

/-- The batches that a piece sets off: the bytes kept back so far if it does not fit, and the piece
itself if it is as large as the buffer. -/
def spilled (capacity : Nat) (kept : ByteArray) (p : Piece) : List Piece :=
  (if capacity - kept.size < p.bytes.size then [⟨p.cause, kept⟩] else []) ++
    if capacity ≤ p.bytes.size then [p] else []

theorem drain_eq (file : OpenFile) (kept : ByteArray) (capacity : Nat) (c : Cause) :
    drain ⟨file, kept, capacity⟩ =
      match OpenFile.takeAll [⟨c, kept⟩] file with
      | .ok _ f => .ok () ⟨f, ByteArray.empty, capacity⟩
      | .error x f => .error x.2 ⟨f, (file.handOver kept).rest, capacity⟩ := by
  rcases hf : file.handOver kept with ⟨f, rest, _ | e⟩
  · rw [OpenFile.takeAll_of_none (p := ⟨c, kept⟩) hf, ← OpenFile.rest_eq hf]
    simp only [drain, hf]
    rfl
  · rw [OpenFile.takeAll_of_some (p := ⟨c, kept⟩) hf]
    simp only [drain, hf]

theorem putDirect_eq (file : OpenFile) (kept : ByteArray) (capacity : Nat) (p : Piece) :
    putDirect p.bytes ⟨file, kept, capacity⟩ =
      match OpenFile.takeAll [p] file with
      | .ok _ f => .ok () ⟨f, kept, capacity⟩
      | .error x f => .error x.2 ⟨f, kept, capacity⟩ := by
  rcases hf : file.handOver p.bytes with ⟨f, rest, _ | e⟩
  · rw [OpenFile.takeAll_of_none hf]
    simp only [putDirect, hf]
    rfl
  · rw [OpenFile.takeAll_of_some hf]
    simp only [putDirect, hf]

theorem store_eq (file : OpenFile) (kept : ByteArray) (capacity : Nat) (p : Piece) :
    store p.bytes ⟨file, kept, capacity⟩ =
      match OpenFile.takeAll (if capacity ≤ p.bytes.size then [p] else []) file with
      | .ok _ f =>
        .ok () ⟨f, if capacity ≤ p.bytes.size then kept else kept ++ p.bytes, capacity⟩
      | .error x f => .error x.2 ⟨f, kept, capacity⟩ := by
  rcases Nat.lt_or_ge p.bytes.size capacity with h | h
  · rw [store_of_lt h, if_neg (Nat.not_le.2 h), if_neg (Nat.not_le.2 h)]
    rfl
  · rw [store_of_le h, putDirect_eq, if_pos h, if_pos h]

theorem put_of_ok {p : Piece} {file f : OpenFile} {kept : ByteArray} {capacity : Nat}
    (h : OpenFile.takeAll (spilled capacity kept p) file = .ok () f) :
    put p.bytes ⟨file, kept, capacity⟩ = .ok () ⟨f, keptBehind capacity kept p, capacity⟩ := by
  rw [spilled, OpenFile.takeAll_append] at h
  rcases Nat.lt_or_ge (capacity - kept.size) p.bytes.size with hs | hs
  · rw [if_pos hs] at h
    rw [put_of_lt (w := ⟨file, kept, capacity⟩) hs, keptBehind, cleared, if_pos hs]
    simp only [bind, EStateM.bind, drain_eq file kept capacity p.cause] at h ⊢
    split at h
    · rename_i u f' hd
      simp only [hd, store_eq, h]
    · cases h
  · rw [if_neg (Nat.not_lt.2 hs)] at h
    rw [put_of_le (w := ⟨file, kept, capacity⟩) hs, keptBehind, cleared, if_neg (Nat.not_lt.2 hs),
      store_eq]
    simp only [bind, EStateM.bind, OpenFile.takeAll, pure, EStateM.pure] at h
    rw [h]

theorem put_of_error {p : Piece} {file f : OpenFile} {kept : ByteArray} {capacity : Nat}
    {x : Cause × FileError} (h : OpenFile.takeAll (spilled capacity kept p) file = .error x f) :
    x.1 = p.cause ∧ ∃ w, put p.bytes ⟨file, kept, capacity⟩ = .error x.2 w := by
  have hcause : x.1 = p.cause := by
    obtain ⟨q, hq, hc⟩ := OpenFile.cause_of_error h
    have hspilled : ∀ q ∈ spilled capacity kept p, q.cause = p.cause := by
      intro q hq
      rcases List.mem_append.1 hq with hq | hq <;> split at hq
      · rw [List.mem_singleton.1 hq]
      · cases hq
      · rw [List.mem_singleton.1 hq]
      · cases hq
    rw [← hc, hspilled q hq]
  refine ⟨hcause, ?_⟩
  rw [spilled, OpenFile.takeAll_append] at h
  rcases Nat.lt_or_ge (capacity - kept.size) p.bytes.size with hs | hs
  · rw [if_pos hs] at h
    rw [put_of_lt (w := ⟨file, kept, capacity⟩) hs]
    simp only [bind, EStateM.bind, drain_eq file kept capacity p.cause] at h ⊢
    split at h
    · rename_i u f' hd
      simp only [hd, store_eq, h]
      exact ⟨_, rfl⟩
    · rename_i y f' hd
      cases h
      simp only [hd]
      exact ⟨_, rfl⟩
  · rw [if_neg (Nat.not_lt.2 hs)] at h
    rw [put_of_le (w := ⟨file, kept, capacity⟩) hs, store_eq]
    simp only [bind, EStateM.bind, OpenFile.takeAll, pure, EStateM.pure] at h
    rw [h]
    exact ⟨_, rfl⟩

/-! ## The batches of many pieces -/

/-- The batches that pieces set off, put in order into a buffer that keeps some bytes back. -/
def batches (capacity : Nat) : ByteArray → List Piece → List Piece
  | _, [] => []
  | kept, p :: ps => spilled capacity kept p ++ batches capacity (keptBehind capacity kept p) ps

def keptAfter (capacity : Nat) : ByteArray → List Piece → ByteArray
  | kept, [] => kept
  | kept, p :: ps => keptAfter capacity (keptBehind capacity kept p) ps

theorem putAll_of_ok {ps : List Piece} {file f : OpenFile} {kept : ByteArray} {capacity : Nat}
    (h : OpenFile.takeAll (batches capacity kept ps) file = .ok () f) :
    putAll ps ⟨file, kept, capacity⟩ = .ok () ⟨f, keptAfter capacity kept ps, capacity⟩ := by
  induction ps generalizing file kept with
  | nil =>
    cases h
    rfl
  | cons p ps ih =>
    rw [batches, OpenFile.takeAll_append] at h
    simp only [bind, EStateM.bind] at h
    split at h
    · rename_i u f' hp
      rw [putAll_cons_of_ok (put_of_ok hp), ih h, keptAfter]
    · cases h

theorem putAll_of_error {ps : List Piece} {file f : OpenFile} {kept : ByteArray} {capacity : Nat}
    {x : Cause × FileError} (h : OpenFile.takeAll (batches capacity kept ps) file = .error x f) :
    ∃ w, putAll ps ⟨file, kept, capacity⟩ = .error x w := by
  induction ps generalizing file kept with
  | nil => cases h
  | cons p ps ih =>
    rw [batches, OpenFile.takeAll_append] at h
    simp only [bind, EStateM.bind] at h
    split at h
    · rename_i u f' hp
      obtain ⟨w, hw⟩ := ih h
      exact ⟨w, by rw [putAll_cons_of_ok (put_of_ok hp), hw]⟩
    · rename_i y f' hp
      cases h
      obtain ⟨hc, w, hw⟩ := put_of_error hp
      exact ⟨w, by rw [putAll_cons_of_error hw, ← hc]⟩

end Writer

end SyntheticLog
