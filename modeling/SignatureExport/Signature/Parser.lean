import SignatureExport.Signature.Anchor
import SignatureExport.Signature.ArgumentList
import SignatureExport.Signature.Basic
import SignatureExport.Signature.Modifiers
import SignatureExport.Signature.Qualifiers

/-!
# Reading signatures

A signature is written as

    access: static virtual [thunk]: type convention Class::method(arguments) const volatile

where the modifiers in front, the return type, the class and the qualifiers at
the end are optional.  The argument list is found from the end of the text.  The
anchors in front of it are tried from left to right, and the first one with a name
behind it decides where the return type ends.

A signature without a return type belongs to a constructor, which returns a
pointer to its class, or to a function that returns nothing.
-/

namespace SignatureExport

namespace Signature

/-- The return type of a signature that has none written. -/
def defaultReturnType (name : QualifiedName) : Text :=
  if name.className ≠ [] ∧ name.methodName = name.className then name.className ++ ['*']
  else "void".toList

/-- The signature with the convention of an anchor and the name behind it, where
`inside` is the inside of its argument list. -/
def ofAnchor? (inside : Text) (anchor : Anchor) : Option Signature :=
  (QualifiedName.ofText? anchor.after).map fun name =>
    let written := anchor.before.trim
    { returnType := if written = [] then defaultReturnType name else written
      convention := anchor.convention
      name := name
      arguments := ArgumentList.ofText inside }

/-- The signature that a text spells. -/
def parse? (text : Text) : Option Signature := do
  let (head, inside) ← ArgumentList.split? (← dropQualifiers? (dropModifiers text.trim))
  (Anchor.all head).findSome? (ofAnchor? inside)

example : parse? "public: virtual int __thiscall A::f(int, char) const".toList
    = some ⟨"int".toList, .thiscall, ⟨"A".toList, "f".toList⟩, ["int".toList, "char".toList]⟩ := by
  decide
example : parse? "__thiscall A::A(void)".toList
    = some ⟨"A*".toList, .thiscall, ⟨"A".toList, "A".toList⟩, []⟩ := by decide
example : parse? "void (__cdecl*)(int) __stdcall handler()".toList
    = some ⟨"void (__cdecl*)(int)".toList, .stdcall, ⟨[], "handler".toList⟩, []⟩ := by decide
example : parse? "int f(int)".toList = none := by decide

end Signature

end SignatureExport
