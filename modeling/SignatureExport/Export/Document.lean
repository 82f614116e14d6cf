import SignatureExport.Export.Record
import SignatureExport.Signature.Parser
import SignatureExport.Signature.Thunk

/-!
# Documents

A *document* is what an export says: its entries and its skipped lines, both in
the order of the lines.  Each line is read on its own.  The text of a signature
first goes through a demangler, then loses its thunk markers, and is then parsed.
-/

namespace SignatureExport

/-- A signature with the address of its function. -/
structure Entry where
  /-- The address of the function. -/
  address : Address
  /-- Its signature. -/
  signature : Signature
deriving DecidableEq, Repr

/-- A way to turn the name of a symbol into the text of a signature. -/
abbrev Demangler := Text → Text

/-- The demangler for exports whose names are readable already. -/
def Demangler.verbatim : Demangler := id

/-- The demangler that applies some replacements, one after the other. -/
def Demangler.ofReplacements (replacements : List (Text × Text)) : Demangler := fun text =>
  replacements.foldl (fun text (old, new) => text.replaceAll old new) text

/-- The entry of a record, or the record as a skipped line. -/
def Entry.ofRecord (demangle : Demangler) (record : Record) : Except SkippedLine Entry :=
  match Signature.parse? (Signature.normalize (demangle record.signature)) with
  | some signature => .ok ⟨record.address, signature⟩
  | none => .error ⟨record.line, .unparseable⟩

/-- What an export says. -/
structure Document where
  /-- The entries in the order of their lines. -/
  entries : List Entry := []
  /-- The lines that gave no entry, in order. -/
  skipped : List SkippedLine := []
deriving DecidableEq, Repr

namespace Document

/-- What each line of an export gives, in order. -/
def outcomes (demangle : Demangler) (text : Text) : List (Except SkippedLine Entry) :=
  (Record.all text).map fun record => record.bind (Entry.ofRecord demangle)

/-- The document that some outcomes make up. -/
def ofOutcomes (outcomes : List (Except SkippedLine Entry)) : Document where
  entries := outcomes.filterMap fun outcome =>
    match outcome with
    | .ok entry => some entry
    | .error _ => none
  skipped := outcomes.filterMap fun outcome =>
    match outcome with
    | .ok _ => none
    | .error line => some line

/-- The document of an export. -/
def extract (demangle : Demangler) (text : Text) : Document := ofOutcomes (outcomes demangle text)

example : extract .verbatim "10 int __cdecl f()\nlonely\n20 int f()".toList
    = { entries := [⟨16, ⟨"int".toList, .cdecl, ⟨[], "f".toList⟩, []⟩⟩]
        skipped := [⟨"lonely".toList, .malformed .missingSeparator⟩,
          ⟨"20 int f()".toList, .unparseable⟩] } := by
  decide

end Document

end SignatureExport
