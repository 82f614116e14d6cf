import SignatureExport.Format.Rows
import SignatureExport.Proofs.Address.Digits
import SignatureExport.Proofs.Export.LineIsolation
import SignatureExport.Proofs.Signature.Provenance
import SignatureExport.Proofs.Signature.WellFormed

/-!
# Reading rows back

The row format is read by cutting the text at line ends and each row at tabs.  The rows
of an export come back as they were written, since no field of an entry holds a line
end (`columns_render`).  Fields are written as they are, so a tab in a field is read as
a border between two columns.  The columns are the fields if and only if no field holds
a tab, and the entries can be read back under the same condition
(`columns_render_iff`).  A tab in a field is a tab of the export.
-/

namespace SignatureExport

namespace Rows

/-! ## Reading -/

/-- The rows of a text.  An empty text has none. -/
def lines (text : Text) : List Text := if text = [] then [] else text.splitOn '\n'

/-- The columns of each row of a text.  An empty text has no rows. -/
def columns (text : Text) : List (List Text) :=
  if text = [] then [] else (text.splitOn '\n').map fun row => row.splitOn '\t'

/-- The arguments that some fields stand for.  A lone empty field stands for none. -/
def ofArgumentFields (fields : List Text) : List Text := if fields = [[]] then [] else fields

/-- The entry with some fields. -/
def readEntry? : List Text → Option Entry
  | address :: returnType :: token :: className :: methodName :: first :: others =>
      (Address.ofText? address).bind fun address =>
        (CallingConvention.ofToken? token).map fun convention =>
          ⟨address, ⟨returnType, convention, ⟨className, methodName⟩,
            ofArgumentFields (first :: others)⟩⟩
  | _ => none

/-- Reads the rows of a document. -/
def read? (text : Text) : Option (List Entry) := (columns text).mapM readEntry?

/-- No field of a document holds a tab. -/
def TabFree (document : Document) : Prop :=
  ∀ entry ∈ document.entries, ∀ field ∈ fields entry, '\t' ∉ field

/-! ## Fields -/

theorem argumentFields_ne_nil (arguments : List Text) : argumentFields arguments ≠ [] := by
  cases arguments with
  | nil => exact List.cons_ne_nil _ _
  | cons first others => exact List.cons_ne_nil _ _

theorem length_argumentFields (arguments : List Text) :
    (argumentFields arguments).length = max 1 arguments.length := by
  cases arguments with
  | nil => rfl
  | cons first others => simp [argumentFields]

theorem length_fields (entry : Entry) :
    (fields entry).length = 5 + max 1 entry.signature.arguments.length := by
  rw [fields, List.length_append, length_argumentFields]
  rfl

theorem fields_ne_nil (entry : Entry) : fields entry ≠ [] := List.cons_ne_nil _ _

theorem argumentFields_ofArgumentFields {fields : List Text} (nonempty : fields ≠ []) :
    argumentFields (ofArgumentFields fields) = fields := by
  rw [ofArgumentFields]
  split
  next empty => rw [empty, argumentFields]
  next => rw [argumentFields]; exact nonempty

theorem ofArgumentFields_argumentFields {arguments : List Text} (spelled : arguments ≠ [[]]) :
    ofArgumentFields (argumentFields arguments) = arguments := by
  cases arguments with
  | nil => rfl
  | cons first others => rw [argumentFields, ofArgumentFields, if_neg spelled]; simp

/-- An entry is read from its fields, unless its only argument is empty. -/
theorem readEntry?_fields {entry : Entry} (spelled : entry.signature.arguments ≠ [[]]) :
    readEntry? (fields entry) = some entry := by
  obtain ⟨first, others, equal⟩ :=
    List.exists_cons_of_ne_nil (argumentFields_ne_nil entry.signature.arguments)
  have arguments := ofArgumentFields_argumentFields spelled
  rw [equal] at arguments
  simp only [fields, equal, List.cons_append, List.nil_append, readEntry?, arguments,
    Address.ofText?_lowerHex, CallingConvention.ofToken?_token, Option.bind_some, Option.map_some]

/-- A row is read only if it has as many columns as its entry has fields. -/
theorem length_of_readEntry? {columns : List Text} {entry : Entry}
    (read : readEntry? columns = some entry) : columns.length = (fields entry).length := by
  unfold readEntry? at read
  split at read
  next address returnType token className methodName first others =>
    obtain ⟨number, -, read⟩ := Option.bind_eq_some_iff.1 read
    obtain ⟨convention, -, rfl⟩ := Option.map_eq_some_iff.1 read
    rw [fields, argumentFields_ofArgumentFields (List.cons_ne_nil first others)]
    rfl
  next => cases read

/-- A field with a blank is the return type, the class, the method or an argument. -/
theorem copied_of_blank {field : Text} {entry : Entry} (listed : field ∈ fields entry)
    {c : Char} (inside : c ∈ field) (blank : isBlank c = true) :
    field ∈ entry.signature.returnType :: entry.signature.name.className ::
      entry.signature.name.methodName :: entry.signature.arguments := by
  have notWord : ¬ Text.IsWord field := fun word => by simp [word.solid c inside] at blank
  rw [fields, List.mem_append] at listed
  simp only [List.mem_cons, List.not_mem_nil, or_false] at listed ⊢
  rcases listed with (rfl | rfl | rfl | rfl | rfl) | argument
  · exact absurd (Address.isWord_lowerHex _) notWord
  · exact .inl rfl
  · exact absurd (CallingConvention.isWord_token _) notWord
  · exact .inr (.inl rfl)
  · exact .inr (.inr (.inl rfl))
  · cases spelled : entry.signature.arguments with
    | nil =>
        rw [spelled, argumentFields, List.mem_singleton] at argument
        exact absurd (argument ▸ inside) List.not_mem_nil
    | cons first others =>
        rw [spelled, argumentFields] at argument
        · exact .inr (.inr (.inr argument))
        · exact List.cons_ne_nil first others

/-! ## Entries of an export -/

section Export

variable {text : Text} {entry : Entry} (exported : entry ∈ (Document.extract .verbatim text).entries)

include exported

/-- A blank in a field of an entry was in a line of the export. -/
theorem exists_line_of_blank {field : Text} (listed : field ∈ fields entry) {c : Char}
    (inside : c ∈ field) (blank : isBlank c = true) : ∃ line ∈ Record.lines text, c ∈ line := by
  obtain ⟨line, isLine, front, signature, equal, parsed⟩ :=
    Document.exists_line_of_mem_entries exported
  have found : c ∈ signature := Signature.blank_mem_of_parse?_normalize parsed
    (copied_of_blank listed inside blank) inside blank
  exact ⟨line, isLine, by simp [equal, found]⟩

/-- The fields of an entry stand on one line. -/
theorem newline_not_mem_of_mem_fields {field : Text} (listed : field ∈ fields entry) :
    '\n' ∉ field := by
  intro inside
  obtain ⟨line, isLine, found⟩ := exists_line_of_blank exported listed inside (by decide)
  exact Record.newline_not_mem_of_mem_lines isLine found

theorem tab_mem_of_mem_fields {field : Text} (listed : field ∈ fields entry)
    (inside : '\t' ∈ field) : '\t' ∈ text := by
  obtain ⟨line, isLine, found⟩ := exists_line_of_blank exported listed inside (by decide)
  exact Record.mem_of_mem_lines isLine found

theorem arguments_ne_of_mem_entries : entry.signature.arguments ≠ [[]] := by
  obtain ⟨-, -, -, signature, -, parsed⟩ := Document.exists_line_of_mem_entries exported
  intro empty
  have listed : [] ∈ entry.signature.arguments := empty ▸ List.mem_singleton_self []
  exact ((Signature.wellFormed_of_parse? parsed).proper [] listed).nonempty rfl

end Export

/-! ## Cutting -/

theorem row_ne_nil (entry : Entry) : row entry ≠ [] := by
  rw [row, fields, List.cons_append, List.cons_append, List.intercalate_cons_cons,
    Address.lowerHex]
  simp

/-- The columns of a row are the fields if and only if no field holds a tab. -/
theorem splitOn_row_iff {entry : Entry} :
    (row entry).splitOn '\t' = fields entry ↔ ∀ field ∈ fields entry, '\t' ∉ field :=
  Text.splitOn_intercalate_iff (fields_ne_nil entry)

/-- A tab in a field makes one column more. -/
theorem length_splitOn_row (entry : Entry) :
    ((row entry).splitOn '\t').length
      = 5 + max 1 entry.signature.arguments.length + (fields entry).flatten.count '\t' := by
  rw [Text.length_splitOn, row, Text.count_intercalate '\t' (fields_ne_nil entry), length_fields]

/-- Rows come back, if they are not empty and have no line end inside. -/
theorem lines_intercalate {rows : List Text} (nonempty : ∀ row ∈ rows, row ≠ [])
    (plain : ∀ row ∈ rows, '\n' ∉ row) : lines (['\n'].intercalate rows) = rows := by
  rw [lines]
  split
  next empty => exact ((Text.intercalate_eq_nil_iff '\n' nonempty).1 empty).symm
  next some =>
    refine (Text.splitOn_intercalate_iff ?_).2 plain
    exact mt (Text.intercalate_eq_nil_iff '\n' nonempty).2 some

theorem columns_eq (text : Text) : columns text = (lines text).map fun row => row.splitOn '\t' := by
  rw [columns, lines]
  split
  next => rfl
  next => rfl

theorem newline_not_mem_row {entry : Entry} (plain : ∀ field ∈ fields entry, '\n' ∉ field) :
    '\n' ∉ row entry := by
  rw [row, Text.mem_intercalate_iff (by decide)]
  rintro ⟨field, isField, inside⟩
  exact plain field isField inside

/-- The rows of a document come back as they were written, if no field holds a line end. -/
theorem lines_render {document : Document}
    (plain : ∀ entry ∈ document.entries, ∀ field ∈ fields entry, '\n' ∉ field) :
    lines (render document) = document.entries.map row := by
  rw [render, lines_intercalate]
  · rw [List.forall_mem_map]
    exact fun entry _ => row_ne_nil entry
  · rw [List.forall_mem_map]
    exact fun entry listed => newline_not_mem_row (plain entry listed)

theorem columns_render {document : Document}
    (plain : ∀ entry ∈ document.entries, ∀ field ∈ fields entry, '\n' ∉ field) :
    columns (render document) = document.entries.map fun entry => (row entry).splitOn '\t' := by
  rw [columns_eq, lines_render plain, List.map_map, Function.comp_def]

theorem mapM_readEntry?_iff {cut : Entry → List Text} {entries : List Entry} :
    (entries.map cut).mapM readEntry? = some entries ↔
      ∀ entry ∈ entries, readEntry? (cut entry) = some entry := by
  induction entries with
  | nil => simp
  | cons entry entries ih =>
      rw [List.map_cons, List.mapM_cons, List.forall_mem_cons, ← ih]
      simp [Option.bind_eq_some_iff]

/-- Cutting the row format gives the fields of each entry of an export, and the entries
can be read back, if and only if no field holds a tab. -/
theorem columns_render_iff (text : Text) : let document := Document.extract .verbatim text
    -- each row is found, with a column more for each tab in its fields
    columns (render document) = (document.entries.map fun entry => (row entry).splitOn '\t') ∧
    (∀ entry ∈ document.entries, ((row entry).splitOn '\t').length
      = 5 + max 1 entry.signature.arguments.length + (fields entry).flatten.count '\t') ∧
    (columns (render document) = document.entries.map fields ↔ TabFree document) ∧
    (read? (render document) = some document.entries ↔ TabFree document) ∧
    ('\t' ∉ text → TabFree document) := by
  intro document
  have rows : columns (render document)
      = document.entries.map fun entry => (row entry).splitOn '\t' :=
    columns_render fun _ exported _ listed => newline_not_mem_of_mem_fields exported listed
  refine ⟨rows, fun entry _ => length_splitOn_row entry, ?_, ?_, ?_⟩
  · rw [rows, List.map_inj_left]
    exact forall₂_congr fun entry _ => splitOn_row_iff
  · rw [read?, rows, mapM_readEntry?_iff]
    refine forall₂_congr fun entry exported => ?_
    constructor
    · intro read field listed
      -- one column for each field leaves no room for a tab
      have lengths := length_of_readEntry? read
      rw [length_splitOn_row, length_fields] at lengths
      have free : (fields entry).flatten.count '\t' = 0 := by omega
      intro inside
      exact List.count_eq_zero.1 free (List.mem_flatten.2 ⟨field, listed, inside⟩)
    · intro free
      rw [splitOn_row_iff.2 free]
      exact readEntry?_fields (arguments_ne_of_mem_entries exported)
  · intro absent entry exported field listed inside
    exact absent (tab_mem_of_mem_fields exported listed inside)

/-- A tab in the return type moves the columns behind it, and a tab in an argument makes
one row of two different entries. -/
theorem exists_columns_render_ne :
    let shifted := Document.extract .verbatim "10 unsigned\tint __cdecl f()".toList
    let first := Document.extract .verbatim "10 int __cdecl f(int\ta)".toList
    let second := Document.extract .verbatim "10 int __cdecl f(int,a)".toList
    columns (render shifted) ≠ shifted.entries.map fields ∧
      (columns (render shifted)).map List.length = [7] ∧
      first.entries ≠ second.entries ∧ render first = render second := by
  decide

end Rows

end SignatureExport
