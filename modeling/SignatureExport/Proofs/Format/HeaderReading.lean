import SignatureExport.Proofs.Export.FirstWrite
import SignatureExport.Proofs.Format.HeaderReader
import SignatureExport.Proofs.Text.Pieces

/-!
# Reading a header back

What is read from the header of a document is its address table (`read?_render`).  A
scan of the rows that were read answers as a lookup in the table does, an empty table
included, though its header has a row (`scan_pairs`).
-/

namespace SignatureExport

namespace Header

/-! ## Namespaces -/

theorem newline_not_mem_of_isIdentifier {text : Text} (isName : isIdentifier text = true) :
    '\n' ∉ text := by
  cases text with
  | nil => exact List.not_mem_nil
  | cons c rest =>
      rw [isIdentifier, Bool.and_eq_true, List.all_eq_true] at isName
      intro inside
      rcases List.mem_cons.1 inside with rfl | later
      · exact absurd isName.1 (by decide)
      · exact absurd (isName.2 _ later) (by decide)

theorem newline_not_mem_of_areIdentifiers {pieces : List Text}
    (areNames : areIdentifiers pieces = true) : ∀ piece ∈ pieces, '\n' ∉ piece := by
  fun_induction areIdentifiers pieces with
  | case1 piece =>
      intro found listed
      rw [List.mem_singleton.1 listed]
      exact newline_not_mem_of_isIdentifier areNames
  | case2 piece rest ih =>
      obtain ⟨isName, areNames⟩ := Bool.and_eq_true_iff.1 areNames
      intro found listed
      rcases List.mem_cons.1 listed with rfl | listed
      · exact newline_not_mem_of_isIdentifier isName
      · rcases List.mem_cons.1 listed with rfl | listed
        · exact List.not_mem_nil
        · exact ih areNames found listed
  | case3 => simp at areNames

/-- A namespace stands on one line. -/
theorem newline_not_mem_scope (scope : Namespace) : '\n' ∉ scope.text := by
  intro inside
  have joined : [':'].intercalate (scope.text.splitOn ':') = scope.text :=
    List.intercalate_splitOn ':'
  rw [← joined, Text.mem_intercalate_iff (by decide)] at inside
  obtain ⟨piece, listed, inPiece⟩ := inside
  exact newline_not_mem_of_areIdentifiers scope.valid piece listed inPiece

/-! ## Reading a header back -/

/-- The rows of the array, as pairs. -/
def pairs (table : AddressTable) : List (Text × Address) :=
  if table.rows.isEmpty then [([], 0)] else table.rows.toList

theorem rows_eq (table : AddressTable) :
    rows table = (pairs table).map fun pair => row pair.1 pair.2 := by
  rw [rows, pairs]
  split
  next => rfl
  next => rfl

/-- A type of addresses has no blank. -/
theorem space_not_mem_addressType (table : AddressTable) : ' ' ∉ addressType table := by
  rw [addressType]
  split
  next => decide
  next => decide

/-- The lines in front of the first line that is looked for. -/
def preamble (scope : Namespace) : List Text :=
  ["#pragma once".toList, [], "#include <cstdint>".toList, "#include <string_view>".toList, [],
    "namespace ".toList ++ scope.text, "\x7b".toList, "\tstruct SignatureEntry".toList,
    "\t\x7b".toList]

/-- Each of these is a line, and only two of them are indented. -/
theorem plain_preamble (scope : Namespace) {line : Text} (indented : line.head? = some '\t')
    (others : line ∉ ["\tstruct SignatureEntry".toList, "\t\x7b".toList]) :
    ∀ other ∈ preamble scope, '\n' ∉ other ∧ other ≠ line := by
  have name : '\n' ∉ "namespace ".toList ++ scope.text :=
    List.not_mem_append (by decide) (newline_not_mem_scope scope)
  have ne_of_bare {other : Text} (bare : other.head? ≠ some '\t') : other ≠ line := by
    rintro rfl
    exact bare indented
  simp only [List.mem_cons, List.not_mem_nil, or_false, not_or] at others
  simp only [preamble, List.forall_mem_cons]
  refine ⟨⟨by decide, ne_of_bare (by decide)⟩, ⟨by decide, ne_of_bare (by decide)⟩,
    ⟨by decide, ne_of_bare (by decide)⟩, ⟨by decide, ne_of_bare (by decide)⟩,
    ⟨by decide, ne_of_bare (by decide)⟩, ⟨name, ne_of_bare (by simp)⟩,
    ⟨by decide, ne_of_bare (by decide)⟩, ⟨by decide, Ne.symm others.1⟩,
    ⟨by decide, Ne.symm others.2⟩, by simp⟩

theorem ended_opening (scope : Namespace) (type : Text) :
    ended (opening scope type) = ended (preamble scope) ++
      ("\t\tstd::string_view signature;".toList ++ '\n' :: ("\t\t".toList ++ (type ++ ' ' ::
        ("address;\n".toList ++ (ended ["\t\x7d;".toList, []] ++
          ("\tconstexpr SignatureEntry signatures[] = \x7b".toList ++ ['\n'])))))) := by
  have space : " address;".toList = ' ' :: "address;".toList := rfl
  have lineEnd : "address;\n".toList = "address;".toList ++ ['\n'] := rfl
  rw [opening, space, lineEnd, preamble]
  simp only [ended_cons, List.append_assoc, List.cons_append, List.nil_append]
  rfl

theorem exists_closing (type : Text) : ∃ rest, ['\n'].intercalate (closing type) =
    "\t\x7d;\n".toList ++ ("\n\tconsteval ".toList ++ (type ++ ' ' ::
      ("SignatureToAddress(const std::string_view signature)\n".toList ++ rest))) := by
  have close : "\t\x7d;\n".toList = "\t\x7d;".toList ++ ['\n'] := rfl
  have front : "\n\tconsteval ".toList = '\n' :: "\tconsteval ".toList := rfl
  have space : " SignatureToAddress(const std::string_view signature)".toList
      = ' ' :: "SignatureToAddress(const std::string_view signature)".toList := rfl
  have lineEnd : "SignatureToAddress(const std::string_view signature)\n".toList
      = "SignatureToAddress(const std::string_view signature)".toList ++ ['\n'] := rfl
  rw [closing, close, front, space, lineEnd]
  simp only [List.intercalate_cons_cons, List.append_assoc, List.cons_append, List.nil_append]
  exact ⟨_, rfl⟩

/-- The lines of a header, with the places that are read apart. -/
theorem exists_render (scope : Namespace) (document : Document) :
    let table := AddressTable.ofEntries document.entries
    let type := addressType table
    ∃ rest, render scope document =
      ended (preamble scope) ++
      ("\t\tstd::string_view signature;".toList ++ '\n' ::
      ("\t\t".toList ++ (type ++ ' ' :: ("address;\n".toList ++
      (ended ["\t\x7d;".toList, []] ++
      ("\tconstexpr SignatureEntry signatures[] = \x7b".toList ++ '\n' ::
      (((pairs table).flatMap fun pair => row pair.1 pair.2 ++ ['\n']) ++
      ("\t\x7d;\n".toList ++
      ("\n\tconsteval ".toList ++ (type ++ ' ' ::
      ("SignatureToAddress(const std::string_view signature)\n".toList ++ rest))))))))))) := by
  intro table type
  obtain ⟨rest, equal⟩ := exists_closing type
  have nonempty : closing type ≠ [] := List.cons_ne_nil _ _
  have rowLines : ended (rows table)
      = (pairs table).flatMap fun pair => row pair.1 pair.2 ++ ['\n'] := by
    rw [rows_eq, ended, List.flatMap_map]
  refine ⟨rest, ?_⟩
  rw [render, lines, intercalate_newline_append _ nonempty, equal, ended_append, rowLines,
    ended_opening]
  simp only [List.append_assoc, List.cons_append, List.nil_append]
  rfl

/-- The type of the addresses and the rows are read from a header. -/
theorem read?_render_eq (scope : Namespace) (document : Document) :
    let table := AddressTable.ofEntries document.entries
    read? (render scope document) = some ⟨addressType table,
      (pairs table).map fun pair => (pair.1, pair.2.toNat), addressType table⟩ := by
  intro table
  obtain ⟨rest, equal⟩ := exists_render scope document
  have solid : ' ' ∉ addressType table := space_not_mem_addressType table
  have between : ∀ other ∈ ["\t\x7d;".toList, []], '\n' ∉ other ∧
      other ≠ "\tconstexpr SignatureEntry signatures[] = \x7b".toList := by decide
  rw [equal, read?, afterLine?_ended (by decide) (plain_preamble scope (by decide) (by decide))]
  simp only [Option.bind_eq_bind, Option.bind_some]
  rw [readType?_append solid]
  simp only [Option.bind_some]
  rw [afterLine?_ended (by decide) between]
  simp only [Option.bind_some]
  rw [readRows?_rows]
  simp only [Option.bind_some]
  rw [readType?_append solid]
  rfl

/-! ## The type of the addresses -/

/-- The addresses have 64 bits if one of them needs more than 32. -/
theorem addressType_eq (table : AddressTable) :
    addressType table = if ∃ row ∈ table.rows, 2 ^ 32 - 1 < row.2.toNat
      then "std::uint64_t".toList else "std::uint32_t".toList := by
  have narrow : (table.rows.all fun row => row.2.isNarrow) = true ↔
      ¬ ∃ row ∈ table.rows, 2 ^ 32 - 1 < row.2.toNat := by
    rw [Array.all_eq_true']
    push Not
    refine forall₂_congr fun row _ => ?_
    rw [Address.isNarrow, decide_eq_true_iff, UInt32.size]
    omega
  rw [addressType]
  split
  next all => rw [if_neg (narrow.1 all)]
  next wide => rw [if_pos (not_not.1 fun none => wide (narrow.2 none))]

/-- Every row of the array fits the type of the addresses. -/
theorem exists_typeBits? (table : AddressTable) :
    ∃ bits, typeBits? (addressType table) = some bits ∧
      ∀ pair ∈ pairs table, pair.2.toNat < 2 ^ bits := by
  rw [addressType_eq]
  split
  next => exact ⟨64, by decide, fun pair _ => pair.2.toNat_lt⟩
  next narrow =>
    refine ⟨32, by decide, ?_⟩
    intro pair listed
    rw [pairs] at listed
    split at listed
    next =>
      rw [List.mem_singleton.1 listed]
      decide
    next =>
      have bound : ¬ 2 ^ 32 - 1 < pair.2.toNat := fun wide =>
        narrow ⟨pair, Array.mem_toList_iff.1 listed, wide⟩
      omega

/-! ## Looking a key up -/

/-- A scan answers with the number of the first row with the key. -/
theorem scan_map (key : Text) (pairs : List (Text × Address)) :
    scan key (pairs.map fun pair => (pair.1, pair.2.toNat))
      = (((pairs.find? (·.1 = key)).map Prod.snd).getD 0).toNat := by
  induction pairs with
  | nil => rfl
  | cons pair pairs ih =>
      rw [List.map_cons, scan, List.find?_cons]
      split
      next same => simp [same]
      next different => simpa [different] using ih

/-- The row that stands in for an empty table changes no answer. -/
theorem find?_pairs (table : AddressTable) (key : Text) :
    (((pairs table).find? (·.1 = key)).map Prod.snd).getD 0
      = ((table.rows.toList.find? (·.1 = key)).map Prod.snd).getD 0 := by
  rw [pairs]
  split
  next empty =>
    rw [Array.isEmpty_iff.1 empty, List.find?_singleton]
    split
    next => rfl
    next => rfl
  next => rfl

/-- A scan of the array is a lookup in the table. -/
theorem scan_pairs (entries : List Entry) (key : Text) :
    let table := AddressTable.ofEntries entries
    scan key ((pairs table).map fun pair => (pair.1, pair.2.toNat))
      = (table.addressOf key).toNat := by
  intro table
  have follows : AddressTable.Follows _ table :=
    AddressTable.ofEntries_eq entries ▸ AddressTable.follows_ofPairs _
  rw [scan_map, find?_pairs, follows.rows, AddressTable.find?_firstWrites List.not_mem_nil,
    follows.addressOf]

/-- The header of a document says what its address table holds, and a scan of its
rows answers as a lookup in the table does. -/
theorem read?_render (scope : Namespace) (document : Document) :
    let table := AddressTable.ofEntries document.entries
    ∃ contents, read? (render scope document) = some contents ∧
      contents.rows = (if table.rows.isEmpty then [([], 0)]
        else table.rows.toList.map fun row => (row.1, row.2.toNat)) ∧
      (∀ key, scan key contents.rows = (table.addressOf key).toNat) ∧
      -- both places that name the type of an address name the same one
      contents.resultType = contents.fieldType ∧
      (contents.fieldType = "std::uint64_t".toList ↔
        ∃ row ∈ table.rows, 2 ^ 32 - 1 < row.2.toNat) ∧
      (contents.fieldType = "std::uint32_t".toList ↔
        ¬ ∃ row ∈ table.rows, 2 ^ 32 - 1 < row.2.toNat) ∧
      ∃ bits, typeBits? contents.fieldType = some bits ∧
        ∀ row ∈ contents.rows, row.2 < 2 ^ bits := by
  intro table
  have different : "std::uint64_t".toList ≠ "std::uint32_t".toList := by decide
  refine ⟨_, read?_render_eq scope document, ?_, scan_pairs document.entries, rfl, ?_, ?_, ?_⟩
  · simp only [pairs]
    split
    next => rfl
    next => rfl
  · rw [addressType_eq]
    split
    next wide => exact iff_of_true rfl wide
    next narrow => exact iff_of_false different.symm narrow
  · rw [addressType_eq]
    split
    next wide => exact iff_of_false different (not_not.2 wide)
    next narrow => exact iff_of_true rfl narrow
  · obtain ⟨bits, known, fits⟩ := exists_typeBits? table
    refine ⟨bits, known, ?_⟩
    intro row listed
    obtain ⟨pair, inside, rfl⟩ := List.mem_map.1 listed
    exact fits pair inside

end Header

end SignatureExport
