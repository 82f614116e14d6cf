import SignatureExport.Format.Header
import SignatureExport.Format.Rows
import SignatureExport.Path

/-!
# Output formats

A document is written in one of two formats, as rows or as a header.  A format is
asked for by name.  The header format needs a namespace, and the row format does
not look at it.
-/

namespace SignatureExport

/-- A way to write a document. -/
inductive Format where
  /-- One line of fields for each entry. -/
  | rows
  /-- A C++ header with the address table. -/
  | header (scope : Namespace)
deriving DecidableEq, Repr

/-- Why a format cannot be had. -/
inductive FormatError where
  /-- No format has this name. -/
  | unknownFormat (name : Text)
  /-- The format needs a namespace and was given none. -/
  | missingNamespace
  /-- The text is no namespace. -/
  | invalidNamespace (text : Text)
deriving DecidableEq, Repr

/-- The wording of an error. -/
def FormatError.message : FormatError → Text
  | unknownFormat name =>
      "unknown format: ".toList ++ name ++ ". Use tsv or header".toList
  | missingNamespace => "the header format needs a namespace (use --namespace)".toList
  | invalidNamespace text => "invalid C++ namespace: ".toList ++ text

namespace Format

/-- The header format with the namespace that a text names. -/
def ofScope (scope : Option Text) : Except FormatError Format :=
  match scope with
  | none => .error .missingNamespace
  | some text =>
      if valid : isNamespace text then .ok (.header ⟨text, valid⟩)
      else .error (.invalidNamespace text)

/-- The format with a name, for a namespace that may be missing. -/
def ofName (name : Text) (scope : Option Text) : Except FormatError Format :=
  if name = "tsv".toList then .ok .rows
  else if name = "header".toList ∨ name = "hpp".toList then ofScope scope
  else .error (.unknownFormat name)

/-- A document written in a format. -/
def render (document : Document) : Format → Text
  | rows => Rows.render document
  | header scope => Header.render scope document

/-- The extension of the files of a format. -/
def extension : Format → Text
  | rows => "tsv".toList
  | header _ => "hpp".toList

/-- The number of entries that a written document holds. -/
def entryCount (document : Document) : Format → Nat
  | rows => document.entries.length
  | header _ => (AddressTable.ofEntries document.entries).size

/-- The path to write to when none is given.  Rows go to the input path with
another extension.  A header goes to a file beside the input, named after its stem. -/
def defaultOutput (input : Path) (format : Format) : Path :=
  match format with
  | rows => input.withExtension format.extension
  | header _ =>
      input.withFileName
        (input.stem?.getD [] ++ "_signatures.".toList ++ format.extension)

example : defaultOutput ⟨"dumps/g2a.txt".toList⟩ .rows = ⟨"dumps/g2a.tsv".toList⟩ := by decide

end Format

end SignatureExport
