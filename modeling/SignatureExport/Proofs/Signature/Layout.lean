import SignatureExport.Proofs.Signature.ArgumentSeparation
import SignatureExport.Proofs.Signature.Group
import SignatureExport.Proofs.Signature.LeadingModifier

/-!
# Layouts

A signature is written with blanks of choice around its parts.  Such a *layout* is
read back as the signature it was written from, if the signature is `Readable` and
no anchor inside the return type has a name behind it.  The second condition holds
of a `Canonical` signature, whose return type has no token among its words.
-/

namespace SignatureExport

namespace Signature

open Text
open ArgumentList (IsArgument Spells)
open Anchor (StandsAlone)

/-- The blanks around the parts of a signature, and a text that spells its arguments. -/
structure Layout (signature : Signature) where
  beforeToken : Text
  behindToken : Text
  behindKey : Text
  /-- What stands between the parentheses. -/
  inside : Text
  behindArguments : Text
  blankBeforeToken : AllBlank beforeToken
  blankBehindToken : AllBlank behindToken
  blankBehindKey : AllBlank behindKey
  blankBehindArguments : AllBlank behindArguments
  apartBefore : beforeToken ≠ []
  apartBehind : behindToken ≠ []
  spells : Spells signature.arguments inside

namespace Layout

variable {signature : Signature}

/-- The anchor at the token of the signature, in the text before the arguments. -/
def anchor (layout : Layout signature) : Anchor where
  convention := signature.convention
  passed := (signature.returnType ++ layout.beforeToken).reverse
  after := layout.behindToken ++ signature.key ++ layout.behindKey

/-- The text before the arguments. -/
def head (layout : Layout signature) : Text :=
  signature.returnType ++ layout.beforeToken ++ signature.convention.token ++
    layout.behindToken ++ signature.key ++ layout.behindKey

/-- The signature written out in a layout. -/
def text (layout : Layout signature) : Text :=
  layout.head ++ '(' :: layout.inside ++ ')' :: layout.behindArguments

/-- The layout that `Signature.text` writes. -/
def plain (signature : Signature) : Layout signature where
  beforeToken := [' ']
  behindToken := [' ']
  behindKey := []
  inside := [',', ' '].intercalate signature.arguments
  behindArguments := []
  blankBeforeToken := by decide
  blankBehindToken := by decide
  blankBehindKey := allBlank_nil
  blankBehindArguments := allBlank_nil
  apartBefore := by decide
  apartBehind := by decide
  spells := ArgumentList.spells_intercalate signature.arguments

theorem text_plain (signature : Signature) : (plain signature).text = signature.text := by
  simp [text, head, plain, Signature.text]

theorem text_anchor (layout : Layout signature) : layout.anchor.text = layout.head := by
  simp [Anchor.text, Anchor.before, anchor, head]

theorem standsAlone_anchor (layout : Layout signature) :
    StandsAlone layout.anchor.before layout.anchor.after := by
  refine ⟨?_, ?_⟩
  · rw [Anchor.before, anchor, List.reverse_reverse]
    exact startsWord_append layout.blankBeforeToken layout.apartBefore
  · obtain ⟨c, run, equal⟩ := List.exists_cons_of_ne_nil layout.apartBehind
    have blank : isBlank c = true := layout.blankBehindToken c (by simp [equal])
    exact Anchor.startsBlank_iff.2 ⟨c, run ++ signature.key ++ layout.behindKey,
      by simp [anchor, equal], blank⟩

end Layout

/-- The parts of a signature, each on its own, can be read. -/
structure Readable (signature : Signature) : Prop where
  written : signature.returnType ≠ []
  trimmed : signature.returnType.trim = signature.returnType
  unmodified : dropModifiers (signature.returnType ++ [' ']) = signature.returnType ++ [' ']
  named : QualifiedName.ofText? signature.key = some signature.name
  proper : ∀ argument ∈ signature.arguments, IsArgument argument
  notVoid : signature.arguments ≠ ["void".toList]

/-- A readable signature without a token in its return type. -/
structure Canonical (signature : Signature) : Prop extends Readable signature where
  noToken : ∀ convention : CallingConvention, convention.token ∉ signature.returnType.words

namespace Layout

variable {signature : Signature}

/-! ## The body of a layout -/

theorem trim_text (layout : Layout signature) (written : signature.returnType ≠ [])
    (trimmedType : signature.returnType.trim = signature.returnType) :
    layout.text.trim = layout.head ++ '(' :: layout.inside ++ [')'] := by
  have bracket : IsTrimmed [')'] := by decide
  have trimmed : IsTrimmed (layout.head ++ '(' :: layout.inside ++ [')']) := by
    have whole := (isTrimmed_iff.2 trimmedType).append written
      (layout.beforeToken ++ signature.convention.token ++ layout.behindToken ++ signature.key ++
        layout.behindKey ++ '(' :: layout.inside) bracket (by simp)
    simpa [head] using whole
  have text : layout.text
      = [] ++ (layout.head ++ '(' :: layout.inside ++ [')']) ++ layout.behindArguments := by
    simp [Layout.text]
  rw [text, trim_of_isTrimmed allBlank_nil trimmed layout.blankBehindArguments]

/-- A modifier starts a layout only if it starts the return type. -/
theorem body_text_iff (layout : Layout signature) (written : signature.returnType ≠ [])
    (trimmedType : signature.returnType.trim = signature.returnType) :
    body layout.text = layout.head ++ '(' :: layout.inside ++ [')'] ↔
      dropModifiers (signature.returnType ++ [' ']) = signature.returnType ++ [' '] := by
  obtain ⟨name, token⟩ := signature.convention.exists_token_eq
  have cut : layout.head ++ '(' :: layout.inside ++ [')'] =
      signature.returnType ++ layout.beforeToken ++
        (signature.convention.token ++ layout.anchor.after ++ '(' :: layout.inside ++ [')']) := by
    simp [head, anchor]
  rw [body, trim_text layout written trimmedType, cut]
  exact dropModifiers_append_iff_append_blank layout.blankBeforeToken layout.apartBefore
    (by simp [token])

theorem hasGroup_text (layout : Layout signature)
    (proper : ∀ argument ∈ signature.arguments, IsArgument argument) :
    HasGroup layout.text layout.head layout.inside layout.behindArguments where
  whole := rfl
  nested := ArgumentList.nested_of_spells layout.spells proper
  allowed := qualifierTail_of_allBlank layout.blankBehindArguments

theorem hasGroup_body (layout : Layout signature) (readable : Readable signature) :
    HasGroup (body layout.text) layout.head layout.inside [] where
  whole := (layout.body_text_iff readable.written readable.trimmed).2 readable.unmodified
  nested := ArgumentList.nested_of_spells layout.spells readable.proper
  allowed := qualifierTail_of_allBlank allBlank_nil

/-! ## The fields of a layout -/

theorem ofAnchor?_anchor (layout : Layout signature) (readable : Readable signature) :
    ofAnchor? layout.inside layout.anchor = some signature := by
  refine ofAnchor?_eq_some_iff.2 ⟨?_, rfl, ?_, ?_⟩
  · have sameTrim : layout.anchor.after.trim = signature.key.trim := by
      rw [anchor, trim_append_of_allBlank_right layout.blankBehindKey,
        trim_append_of_allBlank_left layout.blankBehindToken]
    rw [QualifiedName.ofText?_congr sameTrim, readable.named]
  · have written : layout.anchor.before.trim = signature.returnType := by
      rw [Anchor.before, anchor, List.reverse_reverse,
        trim_append_of_allBlank_right layout.blankBeforeToken, readable.trimmed]
    rw [written]
    exact .written readable.written
  · exact (ArgumentList.ofText_of_spells layout.spells readable.proper readable.notVoid).symm

/-- An anchor before the token of the signature lies inside the return type. -/
theorem exists_tail_of_earlier (layout : Layout signature) {earlier : Anchor}
    (sameHead : earlier.text = layout.head) (alone : StandsAlone earlier.before earlier.after)
    (shorter : earlier.before.length < layout.anchor.before.length) :
    ∃ tail, signature.returnType = earlier.before ++ earlier.convention.token ++ tail ∧
      EndsWord tail ∧
      earlier.after = tail ++ layout.beforeToken ++ (signature.convention.token ++
        layout.anchor.after) := by
  have cut : earlier.before ++ earlier.convention.token ++ earlier.after =
      signature.returnType ++ layout.beforeToken ++ (signature.convention.token ++
        layout.anchor.after) := by
    rw [← Anchor.text, sameHead]
    simp [head, anchor]
  obtain ⟨tail, inside, after⟩ := exists_tail_of_run cut layout.blankBeforeToken
    layout.apartBefore earlier.convention.isWord_token (by simpa [Anchor.before, anchor] using shorter)
  refine ⟨tail, inside, ?_, after⟩
  obtain ⟨c, more, starts, blank⟩ := Anchor.startsBlank_iff.1 alone.stop
  cases tail with
  | nil => simp [EndsWord]
  | cons d tail =>
      obtain ⟨rfl, -⟩ := List.cons.inj (after.symm.trans starts)
      simpa [EndsWord] using blank

/-- A layout is read back if every anchor inside the return type has no name behind it. -/
theorem parse?_text (layout : Layout signature) (readable : Readable signature)
    (fails : ∀ before convention tail,
      signature.returnType = before ++ CallingConvention.token convention ++ tail →
        StartsWord before → EndsWord tail →
          QualifiedName.ofText? (tail ++ layout.beforeToken ++
            (signature.convention.token ++ layout.anchor.after)) = none) :
    parse? layout.text = some signature := by
  refine parse?_eq_some_iff_parts.2 ⟨layout.head, layout.inside, [], layout.anchor,
    hasGroup_body layout readable, text_anchor layout, standsAlone_anchor layout,
    ofAnchor?_anchor layout readable, ?_⟩
  intro earlier sameHead alone shorter
  obtain ⟨tail, written, boundary, after⟩ :=
    exists_tail_of_earlier layout sameHead alone shorter
  rw [after]
  exact fails earlier.before earlier.convention tail written alone.start boundary

end Layout

theorem Canonical.parse?_text {signature : Signature} (canonical : Canonical signature)
    (layout : Layout signature) : parse? layout.text = some signature := by
  refine layout.parse?_text canonical.toReadable ?_
  intro before convention tail written start boundary
  have inside : convention.token ∈ signature.returnType.words := by
    rw [written]
    exact mem_words start convention.isWord_token boundary
  exact absurd inside (canonical.noToken convention)

/-- A canonical signature is read back from every layout of it, and so from the text
that it is written as. -/
theorem parse?_layout {signature : Signature} (canonical : Canonical signature) :
    (∀ layout : Layout signature, parse? layout.text = some signature) ∧
      parse? signature.text = some signature := by
  refine ⟨canonical.parse?_text, ?_⟩
  rw [← Layout.text_plain]
  exact canonical.parse?_text (.plain signature)

theorem parse?_layout_callOperator :
    parse? (Signature.text ⟨"int *".toList, .thiscall, ⟨"A".toList, "operator()".toList⟩,
        ["void (*)(int, int)".toList, "char".toList]⟩)
      = some ⟨"int *".toList, .thiscall, ⟨"A".toList, "operator()".toList⟩,
        ["void (*)(int, int)".toList, "char".toList]⟩ := by
  have canonical : Canonical ⟨"int *".toList, .thiscall, ⟨"A".toList, "operator()".toList⟩,
      ["void (*)(int, int)".toList, "char".toList]⟩ := by
    refine ⟨⟨by decide, by decide, by decide, by decide, by decide, by decide⟩, ?_⟩
    intro convention
    cases convention <;> decide
  exact (parse?_layout canonical).2

end Signature

end SignatureExport
