import SyntheticLog.Populate
import SyntheticLog.Proofs.Generator.Upcoming
import SyntheticLog.Proofs.Output.Pieces

/-!
# Rows as pieces

The rows of a run are one list of pieces that are put in order. The records do not depend on what
becomes of the pieces.

* `Record.linePieces`: the pieces of a line.
* `Job.writeRows_of_ok`, `Job.writeRows_of_error`: the rows that are written, and the way in which a
  refusal fails them.
-/

set_option autoImplicit false

namespace SyntheticLog

open SyntheticLog.Random Log

/-! ## The pieces of a line -/

/-- How a refusal of bytes fails the run. -/
def Cause.failure : Cause → FileError → PopulateError
  | .record => .json
  | .newline | .finish => .io

/-- The pieces of the line of a record. -/
def Record.linePieces (r : Record) : List Piece :=
  r.pieces.map (fun s => ⟨.record, s.toUTF8⟩) ++ [⟨.newline, "\n".toUTF8⟩]

theorem Piece.joined_record (ss : List String) :
    Piece.joined (ss.map fun s => ⟨.record, s.toUTF8⟩) = (String.join ss).toUTF8 := by
  induction ss with
  | nil => rfl
  | cons s ss ih =>
    rw [List.map_cons, Piece.joined, ih, String.join_cons, String.toUTF8_eq_toByteArray,
      String.toUTF8_eq_toByteArray, String.toUTF8_eq_toByteArray, String.toByteArray_append]

theorem Record.joined_linePieces (r : Record) : Piece.joined r.linePieces = r.line.toUTF8 := by
  rw [linePieces, Piece.joined_append, Piece.joined_record, Piece.joined, Piece.joined,
    ByteArray.append_empty, line, json, String.toUTF8_eq_toByteArray, String.toUTF8_eq_toByteArray,
    String.toUTF8_eq_toByteArray, String.toByteArray_append]

theorem Record.joined_flatMap_linePieces (rs : List Record) :
    Piece.joined (rs.flatMap linePieces) = lines rs := by
  induction rs with
  | nil => rfl
  | cons r rs ih =>
    rw [List.flatMap_cons, Piece.joined_append, joined_linePieces, ih, lines_cons]

namespace Job

variable {σ : Type}

/-! ## One row -/

def report (rows : Nat) (events : Array Event) : Array Event :=
  if rows % progressInterval = 0 then events.push (.progress rows) else events

theorem putAll_record (ss : List String) (w : Writer) :
    Writer.putAll (ss.map fun s => ⟨.record, s.toUTF8⟩) w =
      match putPieces ss w with
      | .ok _ w => .ok () w
      | .error e w => .error (.record, e) w := by
  induction ss generalizing w with
  | nil => rfl
  | cons s ss ih =>
    simp only [List.map_cons, Writer.putAll, putPieces, bind, EStateM.bind, ih]
    cases Writer.put s.toUTF8 w <;> rfl

variable [WordSource σ]

theorem writeRow_eq (g : Generator σ) (w : Writer) (rows : Nat) (events : Array Event) :
    writeRow ⟨g, w, rows, events⟩ =
      match Generator.build g with
      | .error e g => .error (.draw e) ⟨g, w, rows, events⟩
      | .ok r g =>
        match Writer.putAll r.linePieces w with
        | .ok _ w => .ok () ⟨g, w, rows + 1, report (rows + 1) events⟩
        | .error x w => .error (x.1.failure x.2) ⟨g, w, rows, events⟩ := by
  simp only [writeRow, Carrier.row, alone, writeRecord, Job.build, bind, EStateM.bind]
  cases Generator.build g with
  | error e g => rfl
  | ok r g =>
    simp only [onWriter, Record.linePieces, Writer.putAll_append, putAll_record, bind, EStateM.bind]
    cases putPieces r.pieces w with
    | error e w => rfl
    | ok u w =>
      simp only [endLine, onWriter, Writer.putAll, pure, EStateM.pure]
      cases Writer.put "\n".toUTF8 w <;> rfl

/-! ## Many rows -/

def reports : Nat → Nat → Array Event → Array Event
  | 0, _, events => events
  | n + 1, rows, events => reports n (rows + 1) (report (rows + 1) events)

theorem writeRows_succ (n : Nat) (j : Job σ) :
    writeRows (n + 1) j =
      match writeRow j with
      | .ok _ j => writeRows n j
      | .error e j => .error e j := by
  simp only [writeRows, writeRow, Carrier.rows, bind, EStateM.bind]
  cases alone.row j <;> rfl

/-- If all pieces are put, the run gets as far as there are records. -/
theorem writeRows_of_ok {n : Nat} {g : Generator σ} {w w' : Writer}
    (h : Writer.putAll ((g.upcoming n).flatMap Record.linePieces) w = .ok () w')
    (rows : Nat) (events : Array Event) :
    writeRows n ⟨g, w, rows, events⟩ =
      match g.stop? n with
      | none => .ok () ⟨g.advance n, w', rows + n, reports n rows events⟩
      | some e =>
        .error (.draw e) ⟨g.advance n, w', rows + (g.upcoming n).length,
          reports (g.upcoming n).length rows events⟩ := by
  induction n generalizing g w rows events with
  | zero =>
    cases h
    rfl
  | succ n ih =>
    rw [writeRows_succ, writeRow_eq]
    cases hb : Generator.build g with
    | error e g' =>
      rw [Generator.upcoming_of_error hb] at h ⊢
      rw [Generator.stop?_of_error hb, Generator.advance_of_error hb]
      cases h
      rfl
    | ok r g' =>
      rw [Generator.upcoming_of_ok hb, List.flatMap_cons, Writer.putAll_append] at h
      rw [Generator.stop?_of_ok hb, Generator.advance_of_ok hb, Generator.upcoming_of_ok hb]
      simp only [bind, EStateM.bind] at h
      cases hp : Writer.putAll r.linePieces w with
      | error x v =>
        rw [hp] at h
        cases h
      | ok u v =>
        rw [hp] at h
        have hrows : rows + 1 + n = rows + (n + 1) := by omega
        have hlen : rows + 1 + (g'.upcoming n).length = rows + ((g'.upcoming n).length + 1) := by
          omega
        simp only [hp, List.length_cons, reports]
        rw [ih h, hrows, hlen]

/-- If a piece is refused, the refusal fails the run in the way of that piece. -/
theorem writeRows_of_error {n : Nat} {g : Generator σ} {w w' : Writer} {x : Cause × FileError}
    (h : Writer.putAll ((g.upcoming n).flatMap Record.linePieces) w = .error x w')
    (rows : Nat) (events : Array Event) :
    ∃ g' rows' events', writeRows n ⟨g, w, rows, events⟩ =
      .error (x.1.failure x.2) ⟨g', w', rows', events'⟩ := by
  induction n generalizing g w rows events with
  | zero => cases h
  | succ n ih =>
    rw [writeRows_succ, writeRow_eq]
    cases hb : Generator.build g with
    | error e g' =>
      rw [Generator.upcoming_of_error hb] at h
      cases h
    | ok r g' =>
      rw [Generator.upcoming_of_ok hb, List.flatMap_cons, Writer.putAll_append] at h
      simp only [bind, EStateM.bind] at h
      cases hp : Writer.putAll r.linePieces w with
      | error y v =>
        rw [hp] at h
        cases h
        simp only [hp]
        exact ⟨g', rows, events, rfl⟩
      | ok u v =>
        rw [hp] at h
        simp only [hp]
        exact ih h (rows + 1) (report (rows + 1) events)

end Job

end SyntheticLog
