import SignatureExport.Signature.CallingConvention
import SignatureExport.Signature.Name

/-!
# Signatures

The *signature* of a function holds its return type, its calling convention, its
name and its arguments.  `text` writes a signature in the form that the parser
reads.
-/

namespace SignatureExport

/-- The signature of a function. -/
structure Signature where
  /-- The return type. -/
  returnType : Text
  /-- The calling convention. -/
  convention : CallingConvention
  /-- The name, with the class of the function. -/
  name : QualifiedName
  /-- The arguments in order, each a type with an optional name. -/
  arguments : List Text
deriving DecidableEq, Repr

namespace Signature

/-- The key under which the function is looked up. -/
def key (signature : Signature) : Text := signature.name.key

/-- The signature written out, as `type convention key(first, second)`. -/
def text (signature : Signature) : Text :=
  signature.returnType ++ ' ' :: signature.convention.token ++ ' ' :: signature.key ++
    '(' :: [',', ' '].intercalate signature.arguments ++ [')']

example :
    text ⟨"int".toList, .cdecl, ⟨"A".toList, "B".toList⟩, ["int a".toList, "char".toList]⟩
      = "int __cdecl A::B(int a, char)".toList := by
  decide

end Signature

end SignatureExport
