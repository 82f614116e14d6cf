import SignatureExport.Export.Document

/-!
# The row format

The row format writes one line for each entry, duplicates included.  Tabs stand
between the fields: the address in lower case, the return type, the calling
convention, the class, the method, and one field for each argument.  A function
without arguments has one empty field in their place.  No line end follows the
last row.
-/

namespace SignatureExport

namespace Rows

/-- The fields of the arguments of a signature, of which there is at least one. -/
def argumentFields : List Text → List Text
  | [] => [[]]
  | arguments => arguments

/-- The fields of an entry. -/
def fields (entry : Entry) : List Text :=
  let signature := entry.signature
  [entry.address.lowerHex, signature.returnType, signature.convention.token,
    signature.name.className, signature.name.methodName] ++ argumentFields signature.arguments

/-- The row of an entry. -/
def row (entry : Entry) : Text := ['\t'].intercalate (fields entry)

/-- The rows of a document. -/
def render (document : Document) : Text := ['\n'].intercalate (document.entries.map row)

example :
    row ⟨0x6BD4E0, ⟨"int".toList, .cdecl, ⟨"A".toList, "f".toList⟩, []⟩⟩
      = "0x6bd4e0\tint\t__cdecl\tA\tf\t".toList := by
  decide

end Rows

end SignatureExport
