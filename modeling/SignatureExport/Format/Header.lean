import SignatureExport.Export.AddressTable
import SignatureExport.Format.Namespace

/-!
# The header format

The header format writes a C++ header that holds the address table of a document:
an array of keys and addresses, and a function that looks a key up at compile
time.  The rows of the array are the rows of the table.  An empty table gives one
row with an empty key and the address zero, since an array needs a row.

Keys stand in string literals.  A backslash is written in front of each backslash
and of each quote.  The addresses have 32 bits if all of them fit, and 64 bits
otherwise.
-/

namespace SignatureExport

namespace Header

/-- A character of a string literal. -/
def escapeChar (c : Char) : Text := if c = '\\' ∨ c = '"' then ['\\', c] else [c]

/-- The inside of the string literal of a key. -/
def escape (key : Text) : Text := key.flatMap escapeChar

/-- Escaping a key is the same as replacing its backslashes and then its quotes. -/
theorem escape_eq_replaceAll (key : Text) :
    escape key = (key.replaceAll ['\\'] ['\\', '\\']).replaceAll ['"'] ['\\', '"'] := by
  rw [Text.replaceAll_singleton, Text.replaceAll_singleton, List.flatMap_assoc, escape]
  congr 1
  funext c
  rw [escapeChar]
  split
  next special =>
    rcases special with rfl | rfl
    · rfl
    · rfl
  next ordinary => simp [not_or.1 ordinary]

/-- A row of the array. -/
def row (key : Text) (address : Address) : Text :=
  "\t\t\x7b \"".toList ++ escape key ++ "\", ".toList ++ address.upperHex ++ " \x7d,".toList

/-- The rows of the array of a table. -/
def rows (table : AddressTable) : List Text :=
  if table.rows.isEmpty then [row [] 0]
  else table.rows.toList.map fun (key, address) => row key address

/-- The type of the addresses of a table. -/
def addressType (table : AddressTable) : Text :=
  if table.rows.all fun (_, address) => address.isNarrow then "std::uint32_t".toList
  else "std::uint64_t".toList

/-- The lines in front of the rows. -/
def opening (scope : Namespace) (type : Text) : List Text :=
  ["#pragma once".toList,
   [],
   "#include <cstdint>".toList,
   "#include <string_view>".toList,
   [],
   "namespace ".toList ++ scope.text,
   "\x7b".toList,
   "\tstruct SignatureEntry".toList,
   "\t\x7b".toList,
   "\t\tstd::string_view signature;".toList,
   "\t\t".toList ++ type ++ " address;".toList,
   "\t\x7d;".toList,
   [],
   "\tconstexpr SignatureEntry signatures[] = \x7b".toList]

/-- The lines behind the rows. -/
def closing (type : Text) : List Text :=
  ["\t\x7d;".toList,
   [],
   "\tconsteval ".toList ++ type ++
     " SignatureToAddress(const std::string_view signature)".toList,
   "\t\x7b".toList,
   "\t\tfor (auto const& [entry_signature, entry_address] : signatures)".toList,
   "\t\t\x7b".toList,
   "\t\t\tif (entry_signature == signature)".toList,
   "\t\t\t\treturn entry_address;".toList,
   "\t\t\x7d".toList,
   [],
   "\t\treturn 0;".toList,
   [],
   "\t\x7d".toList,
   "\x7d".toList]

/-- The lines of the header of a table. -/
def lines (scope : Namespace) (table : AddressTable) : List Text :=
  let type := addressType table
  opening scope type ++ rows table ++ closing type

/-- The header of a document. -/
def render (scope : Namespace) (document : Document) : Text :=
  ['\n'].intercalate (lines scope (AddressTable.ofEntries document.entries))

example : row "operator\"\" _x".toList 0x6BD4E0
    = "\t\t\x7b \"operator\\\"\\\" _x\", 0x6BD4E0 \x7d,".toList := by decide

end Header

end SignatureExport
