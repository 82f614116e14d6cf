import SignatureExport.Text.Basic
import SignatureExport.Text.WordChar

/-!
# Namespaces

The header format puts its table into a C++ *namespace*, which is one or more
identifiers joined by `::`.  An identifier starts with an ASCII letter or an
underscore and goes on with word characters.  Some file names stand for a known
namespace.
-/

namespace SignatureExport

/-- Whether a text is a C++ identifier. -/
def isIdentifier : Text → Bool
  | [] => false
  | c :: rest => (c.isAlpha || c == '_') && rest.all isWordChar

/-- Whether the pieces of a text between colons are identifiers with an empty piece
between neighbours, which is to say that each separator is `::`. -/
def areIdentifiers : List Text → Bool
  | [piece] => isIdentifier piece
  | piece :: [] :: rest => isIdentifier piece && areIdentifiers rest
  | _ => false

/-- Whether a text names a C++ namespace. -/
def isNamespace (text : Text) : Bool := areIdentifiers (text.splitOn ':')

/-- A text that names a C++ namespace. -/
structure Namespace where
  /-- The text. -/
  text : Text
  /-- The text names a namespace. -/
  valid : isNamespace text
deriving DecidableEq, Repr

namespace Namespace

/-- The namespaces known by a file stem. -/
def known : List (Text × Text) :=
  [("g1".toList, "Gothic_I_Classic".toList), ("g1a".toList, "Gothic_I_Addon".toList),
   ("g2".toList, "Gothic_II_Classic".toList), ("g2a".toList, "Gothic_II_Addon".toList)]

/-- The namespace known by a file stem. -/
def ofStem? (stem : Text) : Option Text := known.lookup stem

example : ["A", "_1::B", "Aé::b9"].all fun text => isNamespace text.toList := by decide +kernel
example : ["", "1a", "é", "A:B", "A::", "::A", "A:::B", "a b"].all fun text =>
    !isNamespace text.toList := by decide +kernel
example : known.all fun (_, text) => isNamespace text := by decide

end Namespace

end SignatureExport
