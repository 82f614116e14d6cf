import SignatureExport.Proofs.Signature.OperatorParentheses
import SignatureExport.Proofs.Signature.Reread

/-!
# Well-formed signatures

Whatever text a signature is read from, each of its fields is *well-formed*
(`wellFormed_of_parse?`).  The name owes this to the way it was cut, and the arguments
to two steps together: the scan from the end bounds how deep the argument list nests,
and the list is cut only outside its inner groups.

A well-formed signature can be taken apart again once it is written out.  Its arguments
stand in the group that closes its text, and what stands in front of that group is the
rest of the signature (`WellFormed.split?_text`).
-/

namespace SignatureExport

namespace QualifiedName

open Text

/-- A name as it can be read from a text. -/
structure WellFormed (name : QualifiedName) : Prop where
  classChars : ∀ c ∈ name.className, isClassChar c = true
  nonempty : name.methodName ≠ []
  trimmed : name.methodName.trim = name.methodName
  /-- The method is not the class of another method. -/
  ended : ¬ scopeMark <:+ name.methodName
  parentheses : ParenthesesInOperator name.methodName

theorem wellFormed_of_ofText? {text : Text} {name : QualifiedName}
    (spells : ofText? text = some name) : WellFormed name := by
  obtain ⟨isName, cut⟩ := ofText?_eq_some spells
  obtain ⟨nonempty, ended, own⟩ := isMethodName_iff.1 isName
  refine ⟨isClassChar_of_ofText? spells, nonempty, ?_, ended,
    parenthesesInOperator_of_hasOwnParentheses own⟩
  rcases cut with ⟨member, -, method⟩ | ⟨-, rfl⟩
  · rw [method, trim_trim]
  · exact trim_trim text

end QualifiedName

namespace Signature

open ArgumentList (IsArgument)

/-- A signature as it can be read from a text. -/
structure WellFormed (signature : Signature) : Prop where
  written : signature.returnType ≠ []
  trimmed : signature.returnType.trim = signature.returnType
  name : signature.name.WellFormed
  proper : ∀ argument ∈ signature.arguments, IsArgument argument

/-- The arguments of a well-formed signature are found at the end of its text. -/
theorem WellFormed.split?_text {signature : Signature} (wellFormed : WellFormed signature) :
    ArgumentList.split? signature.text =
      some (signature.returnType ++ ' ' :: signature.convention.token ++ ' ' :: signature.key,
        [',', ' '].intercalate signature.arguments) :=
  ArgumentList.split?_eq_some_iff.2 ⟨rfl, ArgumentList.nested_of_spells
    (ArgumentList.spells_intercalate signature.arguments) wellFormed.proper⟩

/-- A signature that was read is well-formed. -/
theorem wellFormed_of_parse? {text : Text} {signature : Signature}
    (parsed : parse? text = some signature) : WellFormed signature := by
  obtain ⟨head, inside, tail, anchor, group, -, -, fields, -⟩ := parse?_eq_some_iff_parts.1 parsed
  obtain ⟨spells, -, returns, arguments⟩ := ofAnchor?_eq_some_iff.1 fields
  have name := QualifiedName.wellFormed_of_ofText? spells
  obtain ⟨written, trimmed⟩ := returns.trimmed name.classChars
  refine ⟨written, trimmed, name, ?_⟩
  rw [arguments]
  exact fun argument listed => ArgumentList.isArgument_of_mem_ofText group.nested listed

/-- A signature that was read is well-formed, and its arguments are found at the end of
its text. -/
theorem wellFormed_split?_text {text : Text} {signature : Signature}
    (parsed : parse? text = some signature) :
    WellFormed signature ∧ ArgumentList.split? signature.text =
      some (signature.returnType ++ ' ' :: signature.convention.token ++ ' ' :: signature.key,
        [',', ' '].intercalate signature.arguments) :=
  have wellFormed := wellFormed_of_parse? parsed
  ⟨wellFormed, wellFormed.split?_text⟩

/-- The call operator of a class template, with an argument that has parentheses and a
comma of its own. -/
theorem wellFormed_split?_text_callOperator :
    let text := "public: bool __thiscall V<int>::operator()(void (*)(int, int), char) const".toList
    let signature : Signature := ⟨"bool".toList, .thiscall, ⟨"V<int>".toList, "operator()".toList⟩,
      ["void (*)(int, int)".toList, "char".toList]⟩
    parse? text = some signature ∧ WellFormed signature ∧
      ArgumentList.split? signature.text = some ("bool __thiscall V<int>::operator()".toList,
        "void (*)(int, int), char".toList) := by
  intro text signature
  have parsed : parse? text = some signature := by decide
  exact ⟨parsed, wellFormed_split?_text parsed⟩

end Signature

end SignatureExport
