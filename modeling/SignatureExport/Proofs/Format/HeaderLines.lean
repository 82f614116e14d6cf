import SignatureExport.Proofs.Export.LineIsolation
import SignatureExport.Proofs.Format.HeaderReading
import SignatureExport.Proofs.Signature.Provenance

/-!
# The lines of the array

A row of the array is one line, if its key is one line.  Escaping leaves a line end as
it is, so a key with a line end breaks its row in two, and the first line opens a string
literal that it does not close (`cutLiteral?_escape_eq_none`).  So the lines of the array
are rows if and only if no key holds a line end (`render_lines_iff`).

The key of an entry of an export holds a line end only if the demangler adds one
(`lineFree_extract`).  A carriage return inside a line is kept.
-/

namespace SignatureExport

namespace Header

/-- The line that opens the array. -/
def arrayStart : Text := "\tconstexpr SignatureEntry signatures[] = \x7b".toList

/-- The line that closes the array. -/
def arrayEnd : Text := "\t\x7d;".toList

/-- The lines of a header between the line that opens the array and the first line
that closes it. -/
def arrayLines? (text : Text) : Option (List Text) :=
  (afterLine? arrayStart text).map fun array =>
    (array.splitOn '\n').takeWhile (· ≠ arrayEnd)

/-- Each line of the array is a row of its own, as many as the table has, and one for an
empty table. -/
def HasRowLines (text : Text) (table : AddressTable) : Prop :=
  ∃ lines, arrayLines? text = some lines ∧ lines.length = max 1 table.size ∧
    ∀ line ∈ lines, ∃ key address, line = row key address

/-- No key of a document holds a line end. -/
def LineFree (document : Document) : Prop :=
  ∀ entry ∈ document.entries, '\n' ∉ entry.signature.key

/-! ## Characters of a row -/

/-- Only backslashes are added to a key. -/
theorem count_escape {c : Char} (ordinary : c ≠ '\\') (key : Text) :
    (escape key).count c = key.count c := by
  induction key with
  | nil => rfl
  | cons d key ih =>
      rw [escape_cons, escapeChar, List.count_append, ih]
      split
      next => simp [ordinary.symm, List.count_cons, Nat.add_comm]
      next => simp [List.count_cons, Nat.add_comm]

/-- The blanks of a row are those of its key, tabs and spaces aside. -/
theorem count_row {c : Char} (blank : isBlank c = true) (notTab : c ≠ '\t') (notSpace : c ≠ ' ')
    (key : Text) (address : Address) : (row key address).count c = key.count c := by
  have notBackslash : c ≠ '\\' := fun same => absurd (same ▸ blank) (by decide)
  have solid : (Address.upperHex address).count c = 0 := by
    rw [List.count_eq_zero]
    intro inside
    simp [address.isWord_upperHex.solid c inside] at blank
  have frame : ∀ piece ∈ ["\t\t\x7b \"".toList, "\", ".toList, " \x7d,".toList],
      piece.count c = 0 := by
    have notOther : ∀ d ∈ ['\x7b', '"', ',', '\x7d'], c ≠ d := by
      have marks : Text.IsWord ['\x7b', '"', ',', '\x7d'] := by decide
      rintro d listed rfl
      simp [marks.solid c listed] at blank
    simp only [List.forall_mem_cons] at notOther ⊢
    simp [List.count_eq_zero, notTab, notSpace, notOther]
  simp only [List.forall_mem_cons] at frame
  unfold row
  rw [List.count_append, List.count_append, List.count_append, List.count_append, frame.1,
    frame.2.1, frame.2.2.1, count_escape notBackslash, solid]
  omega

theorem mem_row_iff {c : Char} (blank : isBlank c = true) (notTab : c ≠ '\t') (notSpace : c ≠ ' ')
    {key : Text} {address : Address} : c ∈ row key address ↔ c ∈ key := by
  rw [← List.count_pos_iff, count_row blank notTab notSpace, List.count_pos_iff]

theorem newline_mem_row_iff {key : Text} {address : Address} :
    '\n' ∈ row key address ↔ '\n' ∈ key :=
  mem_row_iff (by decide) (by decide) (by decide)

/-! ## A broken row -/

/-- The literal of a key is not closed inside the key. -/
theorem cutLiteral?_escape_eq_none (key : Text) : cutLiteral? (escape key) = none := by
  rw [← List.append_nil (escape key), cutLiteral?_escape_append]
  rfl

/-- The start of a row, cut inside its key, is no row. -/
theorem start_ne_row (front key : Text) (address : Address) :
    "\t\t\x7b \"".toList ++ escape front ≠ row key address := by
  intro same
  have whole := row_append key address []
  rw [List.append_nil, ← same] at whole
  have literal := congrArg cutLiteral? (List.append_cancel_left whole)
  rw [cutLiteral?_escape_eq_none, cutLiteral?_escape] at literal
  cases literal

/-- A row with a line end in its key goes on behind a line that is no row and does not
close the array. -/
theorem exists_splitOn_row {key : Text} (broken : '\n' ∈ key) (address : Address) :
    ∃ front more, (row key address).splitOn '\n'
      = ("\t\t\x7b \"".toList ++ escape front) :: more := by
  obtain ⟨front, rest, rfl, fresh⟩ := List.eq_append_cons_of_mem broken
  have cut : escape (front ++ '\n' :: rest) = escape front ++ '\n' :: escape rest := by
    rw [escape, List.flatMap_append, List.flatMap_cons]
    rfl
  have whole := row_append (front ++ '\n' :: rest) address []
  have plain : '\n' ∉ "\t\t\x7b \"".toList ++ escape front := by
    refine List.not_mem_append (by decide) fun inside => fresh ?_
    rwa [← List.count_pos_iff, count_escape (by decide), List.count_pos_iff] at inside
  rw [List.append_nil, cut, List.append_assoc, ← List.append_assoc _ (escape front),
    List.cons_append] at whole
  rw [whole, Text.splitOn_append_cons, List.splitOn_eq_singleton plain, List.singleton_append]
  exact ⟨front, _, rfl⟩

/-- The second character of a row is a tab, so a row does not close the array. -/
theorem row_ne_arrayEnd (key : Text) (address : Address) : row key address ≠ arrayEnd := by
  intro same
  have second : (row key address)[1]? = some '\t' := rfl
  rw [same] at second
  exact absurd second (by decide)

/-- The lines that the rows of some pairs take. -/
def rowLines (pairs : List (Text × Address)) : List Text :=
  pairs.flatMap fun pair => (row pair.1 pair.2).splitOn '\n'

theorem rowLines_cons_of_not_mem {pair : Text × Address} (whole : '\n' ∉ pair.1)
    (pairs : List (Text × Address)) :
    rowLines (pair :: pairs) = row pair.1 pair.2 :: rowLines pairs := by
  rw [rowLines, List.flatMap_cons, List.splitOn_eq_singleton (mt newline_mem_row_iff.1 whole)]
  rfl

/-- Up to the line that closes the array, whole rows are their own lines. -/
theorem takeWhile_rowLines {pairs : List (Text × Address)}
    (whole : ∀ pair ∈ pairs, '\n' ∉ pair.1) (rest : List Text) :
    (rowLines pairs ++ arrayEnd :: rest).takeWhile (· ≠ arrayEnd)
      = pairs.map fun pair => row pair.1 pair.2 := by
  induction pairs with
  | nil => simp [rowLines]
  | cons pair pairs ih =>
      obtain ⟨first, others⟩ := List.forall_mem_cons.1 whole
      rw [rowLines_cons_of_not_mem first, List.cons_append,
        List.takeWhile_cons_of_pos (by simpa using row_ne_arrayEnd pair.1 pair.2), ih others,
        List.map_cons]

/-- If all lines up to the one that closes the array are rows, then no row is broken. -/
theorem newline_not_mem_of_takeWhile {pairs : List (Text × Address)} {rest : List Text}
    (isRow : ∀ line ∈ (rowLines pairs ++ arrayEnd :: rest).takeWhile (· ≠ arrayEnd),
      ∃ key address, line = row key address) :
    ∀ pair ∈ pairs, '\n' ∉ pair.1 := by
  induction pairs with
  | nil => simp
  | cons pair pairs ih =>
      have first : '\n' ∉ pair.1 := by
        intro broken
        obtain ⟨front, more, cut⟩ := exists_splitOn_row broken pair.2
        rw [rowLines, List.flatMap_cons, cut, List.cons_append, List.cons_append,
          List.takeWhile_cons_of_pos (by simp [arrayEnd])] at isRow
        obtain ⟨key, address, same⟩ := isRow _ List.mem_cons_self
        exact start_ne_row front key address same
      rw [rowLines_cons_of_not_mem first, List.cons_append,
        List.takeWhile_cons_of_pos (by simpa using row_ne_arrayEnd pair.1 pair.2)] at isRow
      exact List.forall_mem_cons.2
        ⟨first, ih fun line listed => isRow line (List.mem_cons_of_mem _ listed)⟩

/-! ## The lines of a header -/

/-- The lines in front of the one that opens the array. -/
def beforeArray (scope : Namespace) (type : Text) : List Text :=
  preamble scope ++ ["\t\tstd::string_view signature;".toList,
    "\t\t".toList ++ type ++ " address;".toList, "\t\x7d;".toList, []]

theorem opening_eq (scope : Namespace) (type : Text) :
    opening scope type = beforeArray scope type ++ [arrayStart] := rfl

theorem plain_beforeArray (scope : Namespace) (table : AddressTable) :
    ∀ other ∈ beforeArray scope (addressType table),
      '\n' ∉ other ∧ other ≠ arrayStart := by
  refine List.forall_mem_append.2 ⟨plain_preamble scope (by decide) (by decide), ?_⟩
  rw [addressType]
  split
  next => decide
  next => decide

theorem splitOn_ended_append (lines : List Text) (rest : Text) :
    (ended lines ++ rest).splitOn '\n' = lines.flatMap (·.splitOn '\n') ++ rest.splitOn '\n' := by
  induction lines with
  | nil => rfl
  | cons line lines ih =>
      rw [ended_cons, List.append_assoc, List.cons_append, Text.splitOn_append_cons, ih,
        List.flatMap_cons, List.append_assoc]

theorem newline_not_mem_closing (table : AddressTable) :
    ∀ line ∈ closing (addressType table), '\n' ∉ line := by
  rw [addressType]
  split
  next => decide
  next => decide

/-- The lines of the array are those of its rows, up to the first line that closes it. -/
theorem exists_arrayLines?_render (scope : Namespace) (document : Document) :
    let table := AddressTable.ofEntries document.entries
    ∃ rest, arrayLines? (render scope document)
      = some ((rowLines (pairs table) ++ arrayEnd :: rest).takeWhile (· ≠ arrayEnd)) := by
  intro table
  have nonempty : closing (addressType table) ≠ [] := List.cons_ne_nil _ _
  have equal : render scope document = ended (beforeArray scope (addressType table)) ++
      (arrayStart ++ '\n' ::
        (ended (rows table) ++ ['\n'].intercalate (closing (addressType table)))) := by
    rw [render, lines, intercalate_newline_append _ nonempty, opening_eq, ended_append,
      ended_append, ended_cons]
    simp only [List.append_assoc, List.cons_append]
    rfl
  have closed : (['\n'].intercalate (closing (addressType table))).splitOn '\n'
      = closing (addressType table) :=
    (Text.splitOn_intercalate_iff nonempty).2 (newline_not_mem_closing table)
  have cut : (rows table).flatMap (·.splitOn '\n') = rowLines (pairs table) := by
    rw [rows_eq, List.flatMap_map, rowLines]
  rw [arrayLines?, equal, afterLine?_ended (by decide) (plain_beforeArray scope table),
    Option.map_some, splitOn_ended_append, closed, cut]
  exact ⟨_, rfl⟩

/-! ## Keys of the rows -/

theorem length_pairs (table : AddressTable) : (pairs table).length = max 1 table.size := by
  rw [pairs, AddressTable.size]
  split
  next empty => rw [Array.isEmpty_iff.1 empty]; rfl
  next nonempty =>
    have positive : table.rows.size ≠ 0 := mt Array.size_eq_zero_iff.1 (by simpa using nonempty)
    rw [Array.length_toList]
    omega

/-- The keys of a table are the keys of its entries. -/
theorem forall_keys_iff (holds : Text → Prop) {entries : List Entry} :
    (∀ pair ∈ (AddressTable.ofEntries entries).rows.toList, holds pair.1) ↔
      ∀ entry ∈ entries, holds entry.signature.key := by
  have follows := AddressTable.follows_ofPairs
    (entries.map fun entry => (entry.signature.key, entry.address))
  rw [← AddressTable.ofEntries_eq] at follows
  have same (key : Text) : key ∈ AddressTable.keys (AddressTable.ofEntries entries).rows.toList ↔
      key ∈ entries.map fun entry => entry.signature.key := by
    rw [follows.rows, AddressTable.mem_keys_firstWrites, AddressTable.keys, List.map_map]
    simp
  constructor
  · intro all entry listed
    obtain ⟨pair, inside, equal⟩ := List.mem_map.1 ((same _).2 (List.mem_map_of_mem listed))
    exact equal ▸ all pair inside
  · intro all pair inside
    obtain ⟨entry, listed, equal⟩ := List.mem_map.1 ((same _).1 (List.mem_map_of_mem inside))
    exact equal ▸ all entry listed

/-- The keys of the rows are the keys of the entries, and the empty key of an empty table. -/
theorem forall_pairs_iff (holds : Text → Prop) (empty : holds []) {entries : List Entry} :
    (∀ pair ∈ pairs (AddressTable.ofEntries entries), holds pair.1) ↔
      ∀ entry ∈ entries, holds entry.signature.key := by
  rw [← forall_keys_iff holds, pairs]
  split
  next none =>
    rw [Array.isEmpty_iff.1 none]
    simp [empty]
  next => rfl

/-- The line ends of the rows are those of the keys. -/
theorem count_flatten_rows (table : AddressTable) :
    (rows table).flatten.count '\n' = (table.rows.toList.map Prod.fst).flatten.count '\n' := by
  have counts (list : List (Text × Address)) :
      (list.map fun pair => row pair.1 pair.2).flatten.count '\n'
        = (list.map Prod.fst).flatten.count '\n' := by
    induction list with
    | nil => rfl
    | cons pair list ih =>
        rw [List.map_cons, List.map_cons, List.flatten_cons, List.flatten_cons, List.count_append,
          List.count_append, ih, count_row (by decide) (by decide) (by decide)]
  rw [rows_eq, counts, pairs]
  split
  next empty =>
    rw [Array.isEmpty_iff.1 empty]
    rfl
  next => rfl

/-- A header has twenty-eight lines and its rows, and one more for each line end in a key. -/
theorem length_splitOn_render (scope : Namespace) (document : Document) :
    let table := AddressTable.ofEntries document.entries
    ((render scope document).splitOn '\n').length
      = 28 + max 1 table.size + (table.rows.toList.map Prod.fst).flatten.count '\n' := by
  intro table
  have nonempty : lines scope table ≠ [] := List.cons_ne_nil _ _
  have before : (opening scope (addressType table)).flatten.count '\n' = 0 := by
    rw [List.count_eq_zero, List.mem_flatten, opening_eq]
    rintro ⟨line, listed, inside⟩
    rcases List.mem_append.1 listed with listed | listed
    · exact (plain_beforeArray scope table line listed).1 inside
    · rw [List.mem_singleton.1 listed] at inside
      exact absurd inside (by decide)
  have behind : (closing (addressType table)).flatten.count '\n' = 0 := by
    rw [List.count_eq_zero, List.mem_flatten]
    rintro ⟨line, listed, inside⟩
    exact newline_not_mem_closing table line listed inside
  have length : (rows table).length = max 1 table.size := by
    rw [rows_eq, List.length_map, length_pairs]
  rw [Text.length_splitOn, render, Text.count_intercalate '\n' nonempty, lines, List.length_append,
    List.length_append, length, List.flatten_append, List.flatten_append, List.count_append,
    List.count_append, before, behind, count_flatten_rows, opening, closing]
  simp only [List.length_cons, List.length_nil]
  omega

/-! ## Exports -/

/-- A line end in a key of an export was added by the demangler. -/
theorem lineFree_extract {demangle : Demangler}
    (keeps : ∀ text, '\n' ∉ text → '\n' ∉ demangle text) (text : Text) :
    LineFree (Document.extract demangle text) := by
  intro entry exported inside
  obtain ⟨line, listed, front, signature, equal, parsed⟩ :=
    Document.exists_line_of_mem_entries exported
  have plain : '\n' ∉ signature := fun found =>
    Record.newline_not_mem_of_mem_lines listed (by simp [equal, found])
  refine keeps signature plain ?_
  rcases QualifiedName.mem_of_mem_key inside (by decide) with inClass | inMethod
  · exact Signature.blank_mem_of_parse?_normalize parsed (by simp) inClass (by decide)
  · exact Signature.blank_mem_of_parse?_normalize parsed (by simp) inMethod (by decide)

/-! ## Rows and lines -/

/-- If the lines of the array are rows, then no key holds a line end. -/
theorem lineFree_of_arrayLines? {scope : Namespace} {document : Document} {lines : List Text}
    (found : arrayLines? (render scope document) = some lines)
    (areRows : ∀ line ∈ lines, ∃ key address, line = row key address) : LineFree document := by
  obtain ⟨rest, cut⟩ := exists_arrayLines?_render scope document
  rw [cut, Option.some.injEq] at found
  exact (forall_pairs_iff ('\n' ∉ ·) List.not_mem_nil).1
    (newline_not_mem_of_takeWhile (found ▸ areRows))

/-- If no key holds a line end, then the lines of the array are its rows. -/
theorem LineFree.arrayLines?_render {document : Document} (free : LineFree document)
    (scope : Namespace) :
    arrayLines? (render scope document)
      = some (rows (AddressTable.ofEntries document.entries)) := by
  obtain ⟨rest, cut⟩ := exists_arrayLines?_render scope document
  have whole := (forall_pairs_iff ('\n' ∉ ·) List.not_mem_nil).2 free
  rw [cut, takeWhile_rowLines whole, rows_eq]

theorem exists_eq_row_of_mem_rows {table : AddressTable} :
    ∀ line ∈ rows table, ∃ key address, line = row key address := by
  rw [rows_eq, List.forall_mem_map]
  exact fun pair _ => ⟨pair.1, pair.2, rfl⟩

theorem hasRowLines_iff {scope : Namespace} {document : Document} :
    HasRowLines (render scope document) (AddressTable.ofEntries document.entries) ↔
      LineFree document := by
  constructor
  · rintro ⟨lines, found, -, areRows⟩
    exact lineFree_of_arrayLines? found areRows
  · intro free
    refine ⟨_, free.arrayLines?_render scope, ?_, exists_eq_row_of_mem_rows⟩
    rw [rows_eq, List.length_map, length_pairs]

/-- The array of a header has one line for each row if and only if no key holds a line
end, as the keys of an export do not, unless the demangler adds one. -/
theorem render_lines_iff (scope : Namespace) (document : Document) :
    let table := AddressTable.ofEntries document.entries
    let text := render scope document
    (HasRowLines text table ↔ LineFree document) ∧
    (arrayLines? text = some (rows table) ↔ LineFree document) ∧
    -- each line end in a key makes one line more
    (text.splitOn '\n').length
      = 28 + max 1 table.size + (table.rows.toList.map Prod.fst).flatten.count '\n' ∧
    -- a carriage return stays in the row as a line end does
    (∀ c ∈ ['\n', '\r'], ∀ key address, c ∈ row key address ↔ c ∈ key) ∧
    ∀ demangle source, document = Document.extract demangle source →
      (∀ written, '\n' ∉ written → '\n' ∉ demangle written) → LineFree document := by
  intro table text
  refine ⟨hasRowLines_iff, ⟨?_, fun free => free.arrayLines?_render scope⟩,
    length_splitOn_render scope document, ?_, ?_⟩
  · exact fun found => lineFree_of_arrayLines? found exists_eq_row_of_mem_rows
  · intro c listed key address
    simp only [List.mem_cons, List.not_mem_nil, or_false] at listed
    rcases listed with rfl | rfl
    · exact mem_row_iff (by decide) (by decide) (by decide)
    · exact mem_row_iff (by decide) (by decide) (by decide)
  · rintro demangle source rfl keeps
    exact lineFree_extract keeps source

/-- A demangler that adds a line end breaks a row, and a carriage return inside a line of
an export is written into the literal. -/
theorem not_hasRowLines_render :
    let demangle := Demangler.ofReplacements [("@".toList, "\n".toList)]
    let document := Document.extract demangle "10 int __cdecl f@g()".toList
    let exported := Document.extract .verbatim "10 int __cdecl f\rg()".toList
    ¬ HasRowLines (render ⟨"N".toList, by decide⟩ document)
        (AddressTable.ofEntries document.entries) ∧
      ∃ pair ∈ pairs (AddressTable.ofEntries exported.entries), '\r' ∈ row pair.1 pair.2 := by
  intro demangle document exported
  refine ⟨mt hasRowLines_iff.1 ?_, ?_⟩
  · intro free
    have broken : ∃ entry ∈ document.entries, '\n' ∈ entry.signature.key := by decide
    obtain ⟨entry, listed, inside⟩ := broken
    exact free entry listed inside
  · have returned : ¬ ∀ entry ∈ exported.entries, '\r' ∉ entry.signature.key := by decide
    rw [← forall_pairs_iff ('\r' ∉ ·) List.not_mem_nil] at returned
    push Not at returned
    obtain ⟨pair, listed, inside⟩ := returned
    exact ⟨pair, listed, (mem_row_iff (by decide) (by decide) (by decide)).2 inside⟩

end Header

end SignatureExport
