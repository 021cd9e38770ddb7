import SyntheticLog.Digest
import SyntheticLog.Proofs.Generator.Upcoming
import SyntheticLog.Proofs.Record.Reading
import SyntheticLog.Proofs.Text.Encoding

/-!
# Lines of records

The text of a record has no newline in it, so a file is cut into its records at its newlines.

* `Record.split_lines`: the lines of a file are the texts of its records.
* `Record.lines_readable`: the records are read back from the bytes of their lines.
-/

set_option autoImplicit false

namespace SyntheticLog

/-! ## Cutting at newlines -/

namespace Digest

theorem foldl_addByte_of_not_mem {line : List UInt8} (h : newline ∉ line)
    (done : List (List UInt8)) (current : List UInt8) :
    line.foldl addByte (done, current) = (done, line.reverse ++ current) := by
  induction line generalizing current with
  | nil => rfl
  | cons b line ih =>
    have hb : b ≠ newline := fun hb => h (hb ▸ List.mem_cons_self)
    have hline : newline ∉ line := fun hmem => h (List.mem_cons_of_mem b hmem)
    rw [List.foldl_cons, addByte, if_neg hb, ih hline, List.reverse_cons, List.append_assoc,
      List.singleton_append]

theorem foldl_addByte_line {line : List UInt8} (h : newline ∉ line) (done : List (List UInt8)) :
    (line ++ [newline]).foldl addByte (done, []) = (line :: done, []) := by
  rw [List.foldl_append, foldl_addByte_of_not_mem h, List.append_nil, List.foldl_cons,
    List.foldl_nil, addByte, if_pos rfl, List.reverse_reverse]

theorem foldl_addByte_lines {lines : List (List UInt8)} (h : ∀ line ∈ lines, newline ∉ line)
    (done : List (List UInt8)) :
    (lines.flatMap (· ++ [newline])).foldl addByte (done, []) = (lines.reverse ++ done, []) := by
  induction lines generalizing done with
  | nil => rfl
  | cons line lines ih =>
    have hlines : ∀ l ∈ lines, newline ∉ l := fun l hl => h l (List.mem_cons_of_mem line hl)
    rw [List.flatMap_cons, List.foldl_append, foldl_addByte_line (h line List.mem_cons_self),
      ih hlines, List.reverse_cons, List.append_assoc, List.singleton_append]

theorem split_of_lines {bytes : ByteArray} {lines : List (List UInt8)}
    (h : ∀ line ∈ lines, newline ∉ line)
    (hbytes : bytes.data.toList = lines.flatMap (· ++ [newline])) : split bytes = (lines, []) := by
  rw [split, ← Array.foldl_toList, hbytes, foldl_addByte_lines h, List.append_nil]
  exact congrArg (·, []) lines.reverse_reverse

end Digest

/-! ## Records -/

namespace Record

/-- The bytes of the text of a record, without the newline behind it. -/
def lineBytes (r : Record) : List UInt8 := Utf8.encode r.json

theorem le_of_mem_lineBytes {r : Record} {b : UInt8} (h : b ∈ r.lineBytes) : 32 ≤ b.toNat :=
  Utf8.le_of_mem_encode (fun _ hc => r.le_of_mem_json hc) h

theorem newline_not_mem_lineBytes (r : Record) : Digest.newline ∉ r.lineBytes := by
  intro h
  exact absurd (le_of_mem_lineBytes h) (by decide)

theorem toList_lines (rs : List Record) :
    (lines rs).data.toList = (rs.map lineBytes).flatMap (· ++ [Digest.newline]) := by
  induction rs with
  | nil => rfl
  | cons r rs ih =>
    have hline : r.line.toUTF8.data.toList = r.lineBytes ++ [Digest.newline] :=
      Utf8.encode_append r.json "\n"
    rw [lines_cons, ByteArray.data_append, Array.toList_append, hline, ih, List.map_cons,
      List.flatMap_cons]

theorem split_lines (rs : List Record) : Digest.split (lines rs) = (rs.map lineBytes, []) := by
  refine Digest.split_of_lines ?_ (toList_lines rs)
  intro line hline
  obtain ⟨r, -, rfl⟩ := List.mem_map.1 hline
  exact newline_not_mem_lineBytes r

theorem ofLine?_lineBytes (r : Record) : ofLine? (Utf8.lossy r.lineBytes) = some r := by
  rw [lineBytes, Utf8.lossy_encode, ofLine?_json]

theorem mapM_ofLine? (rs : List Record) :
    ((rs.map lineBytes).mapM fun line => ofLine? (Utf8.lossy line)) = some rs := by
  induction rs with
  | nil => rfl
  | cons r rs ih =>
    rw [List.map_cons, List.mapM_cons, ofLine?_lineBytes, ih]
    rfl

/-- Cut at its newlines, a file gives one line for each record. Each line is valid UTF-8 without
control characters, and the JSON value in it names exactly the fields of the record that are there.
So the records are read back, and other records have other bytes. -/
theorem lines_readable (rs : List Record) :
    Digest.split (lines rs) = (rs.map lineBytes, []) ∧
    (∀ r ∈ rs, Utf8.isValid r.lineBytes = true ∧ (∀ b ∈ r.lineBytes, 0x20 ≤ b) ∧
      Json.Value.read? (Utf8.lossy r.lineBytes) = some (.object
        [("int".toList, .object (("ts".toList, .int r.numbers.ts) ::
            (r.numbers.count.map fun c => ("count".toList, .int c)).toList)),
          ("str".toList, .object (("event".toList, .string r.texts.event.toList) ::
            (r.texts.message.map fun m => ("message".toList, .string m.toList)).toList))]) ∧
      ofLine? (Utf8.lossy r.lineBytes) = some r) ∧
    ((Digest.split (lines rs)).1.mapM fun line => ofLine? (Utf8.lossy line)) = some rs ∧
    ∀ rs', lines rs = lines rs' → rs = rs' := by
  refine ⟨split_lines rs, ?_, ?_, ?_⟩
  · intro r hr
    refine ⟨Utf8.isValid_encode r.json, ?_, ?_, ofLine?_lineBytes r⟩
    · intro b hb
      rw [UInt8.le_iff_toNat_le]
      exact le_of_mem_lineBytes hb
    · rw [lineBytes, Utf8.lossy_encode]
      exact (spells_json r).read?
  · rw [split_lines, mapM_ofLine?]
  · intro rs' h
    have hread := mapM_ofLine? rs
    have hlines : rs.map lineBytes = rs'.map lineBytes := by
      have hsplit := split_lines rs
      rw [h, split_lines rs'] at hsplit
      exact (congrArg Prod.fst hsplit).symm
    rw [hlines, mapM_ofLine?] at hread
    exact (Option.some.inj hread).symm

end Record

end SyntheticLog
