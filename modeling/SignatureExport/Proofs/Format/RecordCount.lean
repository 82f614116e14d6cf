import SignatureExport.Format.Basic
import SignatureExport.Proofs.Format.HeaderLines
import SignatureExport.Proofs.Format.RowReading

/-!
# Counting written records

The number of entries of a format is computed from the document.  Here the records are
counted in the written text (`records?`): the rows, or the lines of the array without the row
that stands for an empty table.  Both numbers are the same for every verbatim export
(`length_records?_render`).

This needs two facts about exports.  No field and no key holds a line end, so a record is a
line.  No key is empty, so no record looks like the row of an empty table.
-/

namespace SignatureExport

namespace Header

/-- The row of an empty table. -/
def emptyRow : Text := row [] 0

/-- A row has one key. -/
theorem key_eq_of_row_eq {key other : Text} {address number : Address}
    (equal : row key address = row other number) : key = other := by
  have first := readRow?_row key address []
  rw [equal, readRow?_row other number [], Option.some.injEq, Prod.mk.injEq, Prod.mk.injEq] at first
  exact first.1.1.symm

/-- The rows of a table without an empty key are told apart from the row of an empty table. -/
theorem length_filter_rows {table : AddressTable}
    (keyed : ∀ pair ∈ table.rows.toList, pair.1 ≠ []) :
    ((rows table).filter (· ≠ emptyRow)).length = table.size := by
  rw [rows, AddressTable.size]
  split
  next empty =>
    rw [Array.isEmpty_iff.1 empty]
    simp [emptyRow]
  next =>
    rw [List.filter_eq_self.2, List.length_map, Array.length_toList]
    rw [List.forall_mem_map]
    intro pair listed
    have different : row pair.1 pair.2 ≠ emptyRow := fun equal =>
      keyed pair listed (key_eq_of_row_eq equal)
    simpa using different

end Header

namespace Document

/-- The key of an entry of an export is not empty. -/
theorem key_ne_nil_of_mem_entries {demangle : Demangler} {text : Text} {entry : Entry}
    (exported : entry ∈ (extract demangle text).entries) : entry.signature.key ≠ [] := by
  obtain ⟨-, -, -, signature, -, parsed⟩ := exists_line_of_mem_entries exported
  have nonempty := (Signature.wellFormed_of_parse? parsed).name.nonempty
  rw [Signature.key, QualifiedName.key]
  split
  next => exact nonempty
  next => simp [nonempty]

end Document

namespace Format

/-- The records that stand in a text in a format. -/
def records? : Format → Text → Option (List Text)
  | .rows, text => some (Rows.lines text)
  | .header _, text =>
      (Header.arrayLines? text).map fun lines => lines.filter (· ≠ Header.emptyRow)

/-- The records in a written export are as many as its format says. -/
theorem length_records?_render (format : Format) (text : Text) :
    let document := Document.extract .verbatim text
    (format.records? (format.render document)).map List.length
      = some (format.entryCount document) := by
  intro document
  cases format with
  | rows =>
      have whole : Rows.lines (Rows.render document) = document.entries.map Rows.row :=
        Rows.lines_render fun _ exported _ listed =>
          Rows.newline_not_mem_of_mem_fields exported listed
      rw [records?, render, whole, entryCount, Option.map_some, List.length_map]
  | header scope =>
      have free : Header.LineFree document := Header.lineFree_extract (fun _ absent => absent) text
      have keyed : ∀ pair ∈ (AddressTable.ofEntries document.entries).rows.toList, pair.1 ≠ [] :=
        (Header.forall_keys_iff (· ≠ [])).2 fun _ exported =>
          Document.key_ne_nil_of_mem_entries exported
      rw [records?, render, free.arrayLines?_render, entryCount, Option.map_some, Option.map_some,
        Header.length_filter_rows keyed]

end Format

end SignatureExport
