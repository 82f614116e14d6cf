import SignatureExport.Proofs.Signature.ArgumentSpelling
import SignatureExport.Proofs.Signature.LeadingModifier
import SignatureExport.Proofs.Signature.Reread
import SignatureExport.Proofs.Signature.ThunkRemoval

/-!
# Where the fields of a signature come from

The parser copies.  A field of a signature is a stretch of the text that was read, or
a return type that was not written, and then a single word (`fields_of_parse?`).
Removing thunk markers only leaves characters out (`normalize_sublist`).  So a blank
in a field, a tab for instance, was in the text before (`blank_mem_of_parse?_normalize`).
-/

namespace SignatureExport

namespace ArgumentList

/-- A piece between commas is a stretch of the text. -/
theorem infix_of_mem_splitCommas {depth : Nat} {piece text found : Text}
    (listed : found ∈ splitCommas depth piece text) : found <:+: piece.reverse ++ text := by
  induction text generalizing depth piece with
  | nil =>
      rw [splitCommas, List.mem_singleton] at listed
      simp [listed]
  | cons c rest ih =>
      rw [splitCommas] at listed
      split at listed
      next top =>
        rcases List.mem_cons.1 listed with rfl | later
        · exact (List.prefix_append _ _).isInfix
        · have suffix : rest <:+ piece.reverse ++ c :: rest :=
            ⟨piece.reverse ++ [c], by simp⟩
          exact (ih later).trans suffix.isInfix
      next notTop => simpa using ih listed

theorem infix_of_mem_ofText {inside argument : Text} (listed : argument ∈ ofText inside) :
    argument <:+: inside := by
  rw [ofText_eq] at listed
  split at listed
  next => exact absurd listed List.not_mem_nil
  next =>
    obtain ⟨piece, found, rfl⟩ := List.mem_map.1 (List.mem_of_mem_filter listed)
    exact (Text.infix_of_trim piece).trans (infix_of_mem_splitCommas found)

end ArgumentList

namespace QualifiedName

/-- The class and the method of a name are stretches of the text. -/
theorem infix_of_ofText? {text : Text} {name : QualifiedName} (spells : ofText? text = some name) :
    name.className <:+: text ∧ name.methodName <:+: text := by
  obtain ⟨-, ⟨member, cut, method⟩ | ⟨-, rfl⟩⟩ := ofText?_eq_some spells
  · obtain ⟨equal, -⟩ := eq_of_splitClass? cut
    have className : name.className <:+: text.trim := ⟨[], scopeMark ++ member, by simp [equal]⟩
    have inTrim : member <:+: text.trim := ⟨name.className ++ scopeMark, [], by simp [equal]⟩
    rw [method]
    exact ⟨className.trans (Text.infix_of_trim text),
      (Text.infix_of_trim member).trans (inTrim.trans (Text.infix_of_trim text))⟩
  · exact ⟨List.nil_infix, Text.infix_of_trim text⟩

/-- A blank in a key is in the class or in the method. -/
theorem mem_of_mem_key {name : QualifiedName} {c : Char} (inside : c ∈ name.key)
    (blank : isBlank c = true) : c ∈ name.className ∨ c ∈ name.methodName := by
  rw [key] at inside
  split at inside
  next => exact .inr inside
  next =>
    rw [List.mem_append, List.mem_append] at inside
    rcases inside with (inClass | inMark) | inMethod
    · exact .inl inClass
    · simp [isWord_scopeMark.solid c inMark] at blank
    · exact .inr inMethod

end QualifiedName

namespace Signature

/-! ## Reading a signature -/

theorem infix_of_body (text : Text) : body text <:+: text :=
  (dropModifiers_suffix text.trim).isInfix.trans (Text.infix_of_trim text)

/-- A signature holds stretches of its text, and the token of its convention.  A return
type that was not written is a single word. -/
theorem fields_of_parse? {text : Text} {signature : Signature}
    (parsed : parse? text = some signature) :
    (signature.returnType <:+: text ∨ Text.IsWord signature.returnType) ∧
      signature.name.className <:+: text ∧ signature.name.methodName <:+: text ∧
      ∀ argument ∈ signature.arguments, argument <:+: text := by
  obtain ⟨head, inside, tail, anchor, group, whole, -, reads, -⟩ := parse?_eq_some_iff_parts.1 parsed
  obtain ⟨spells, -, returns, arguments⟩ := ofAnchor?_eq_some_iff.1 reads
  have headInfix : head <:+: text := by
    refine List.IsInfix.trans ⟨[], '(' :: inside ++ ')' :: tail, ?_⟩ (infix_of_body text)
    simp [group.whole]
  have insideInfix : inside <:+: text := by
    refine List.IsInfix.trans ⟨head ++ ['('], ')' :: tail, ?_⟩ (infix_of_body text)
    simp [group.whole]
  have afterInfix : anchor.after <:+: text := by
    refine List.IsInfix.trans ⟨anchor.before ++ anchor.convention.token, [], ?_⟩ headInfix
    rw [← whole, Anchor.text, List.append_nil]
  have beforeInfix : anchor.before <:+: text := by
    refine List.IsInfix.trans ⟨[], anchor.convention.token ++ anchor.after, ?_⟩ headInfix
    rw [← whole, Anchor.text, List.nil_append, List.append_assoc]
  obtain ⟨className, methodName⟩ := QualifiedName.infix_of_ofText? spells
  refine ⟨?_, className.trans afterInfix, methodName.trans afterInfix, ?_⟩
  · cases bare : anchor.before.trim with
    | nil =>
        rw [bare] at returns
        exact .inr (returns.solid (QualifiedName.isClassChar_of_ofText? spells)).1
    | cons c rest =>
        have nonempty : anchor.before.trim ≠ [] := bare ▸ List.cons_ne_nil c rest
        rw [← returns.eq_written nonempty]
        exact .inl ((Text.infix_of_trim anchor.before).trans beforeInfix)
  · intro argument listed
    rw [arguments] at listed
    exact (ArgumentList.infix_of_mem_ofText listed).trans insideInfix

/-- A blank in a field of a signature was in the text. -/
theorem blank_mem_of_parse?_normalize {text field : Text} {signature : Signature} {c : Char}
    (parsed : parse? (normalize text) = some signature)
    (listed : field ∈ signature.returnType :: signature.name.className ::
      signature.name.methodName :: signature.arguments)
    (inside : c ∈ field) (blank : isBlank c = true) : c ∈ text := by
  obtain ⟨returnType, className, methodName, arguments⟩ := fields_of_parse? parsed
  have copied : field <:+: normalize text → c ∈ text := fun stretch =>
    (normalize_sublist text).subset (stretch.subset inside)
  simp only [List.mem_cons] at listed
  rcases listed with rfl | rfl | rfl | argument
  · rcases returnType with stretch | word
    · exact copied stretch
    · rw [word.solid c inside] at blank
      exact absurd blank Bool.false_ne_true
  · exact copied className
  · exact copied methodName
  · exact copied (arguments field argument)

end Signature

end SignatureExport
