import SignatureExport.Proofs.Signature.AnchorOrder
import SignatureExport.Proofs.Signature.ArgumentGroup
import SignatureExport.Proofs.Signature.NameSplit
import SignatureExport.Proofs.Signature.QualifierTail
import SignatureExport.Signature.Parser

/-!
# The parts of a body

The *body* of a signature is its text without modifiers.  A body has at most one
argument list, and `parse?` finds it before it looks for an anchor in the head in
front of it.  `parse?_eq_some_iff_parts` describes the answer by these parts: the
argument list, the first anchor of the head with a name behind it, and the fields
that are read off the two.
-/

namespace SignatureExport

namespace Signature

open Text
open ArgumentList (maxNesting)
open Anchor (StandsAlone startsBlank)

/-- The text that a signature is read from. -/
def body (text : Text) : Text := dropModifiers text.trim

/-- A text is a head, an argument list and qualifiers. -/
structure HasGroup (text head inside tail : Text) : Prop where
  whole : text = head ++ '(' :: inside ++ ')' :: tail
  nested : Nested maxNesting inside
  allowed : QualifierTail tail

/-- What stands for the return type, if the text in front of the token is `written`. -/
inductive Returns (name : QualifiedName) (written : Text) : Text → Prop where
  | written : written ≠ [] → Returns name written written
  | constructor : written = [] → name.className ≠ [] → name.methodName = name.className →
      Returns name written (name.className ++ ['*'])
  | nothing : written = [] → ¬ (name.className ≠ [] ∧ name.methodName = name.className) →
      Returns name written "void".toList

/-! ## The argument list -/

theorem split_dropQualifiers_iff {text head inside : Text} :
    (dropQualifiers? text).bind ArgumentList.split? = some (head, inside) ↔
      ∃ tail, HasGroup text head inside tail := by
  rw [Option.bind_eq_some_iff]
  constructor
  · intro found
    obtain ⟨kept, dropped, cut⟩ := found
    obtain ⟨tail, rfl, -, allowed⟩ := dropQualifiers?_eq_some_iff.1 dropped
    obtain ⟨rfl, nested⟩ := ArgumentList.split?_eq_some_iff.1 cut
    exact ⟨tail, by simp, nested, allowed⟩
  · intro found
    obtain ⟨tail, rfl, nested, allowed⟩ := found
    refine ⟨head ++ '(' :: inside ++ [')'], ?_, ArgumentList.split?_eq_some_iff.2 ⟨rfl, nested⟩⟩
    exact dropQualifiers?_eq_some_iff.2 ⟨tail, by simp, List.getLast?_concat, allowed⟩

/-- A text has one argument list at most in front of its qualifiers. -/
theorem HasGroup.unique {text head inside tail head' inside' tail' : Text}
    (first : HasGroup text head inside tail) (second : HasGroup text head' inside' tail') :
    head = head' ∧ inside = inside' := by
  have found := split_dropQualifiers_iff.2 ⟨tail, first⟩
  rw [split_dropQualifiers_iff.2 ⟨tail', second⟩] at found
  obtain ⟨sameHead, sameInside⟩ := Prod.mk.inj (Option.some.inj found)
  exact ⟨sameHead.symm, sameInside.symm⟩

theorem HasGroup.append_left {text head inside tail : Text}
    (group : HasGroup text head inside tail) (front : Text) :
    HasGroup (front ++ text) (front ++ head) inside tail :=
  ⟨by simp [group.whole], group.nested, group.allowed⟩

/-! ## The fields -/

theorem returns_iff {name : QualifiedName} {written returnType : Text} :
    Returns name written returnType ↔
      returnType = if written = [] then defaultReturnType name else written := by
  constructor
  · intro returns
    cases returns with
    | written nonempty => rw [if_neg nonempty]
    | constructor empty inClass same => rw [if_pos empty, defaultReturnType, if_pos ⟨inClass, same⟩]
    | nothing empty other => rw [if_pos empty, defaultReturnType, if_neg other]
  · intro equal
    subst equal
    by_cases empty : written = []
    · rw [if_pos empty, defaultReturnType]
      by_cases inClass : name.className ≠ [] ∧ name.methodName = name.className
      · rw [if_pos inClass]
        exact .constructor empty inClass.1 inClass.2
      · rw [if_neg inClass]
        exact .nothing empty inClass
    · rw [if_neg empty]
      exact .written empty

/-- A return type that is written is the return type. -/
theorem Returns.eq_written {name : QualifiedName} {written returnType : Text}
    (returns : Returns name written returnType) (nonempty : written ≠ []) :
    written = returnType := by
  rw [returns_iff, if_neg nonempty] at returns
  exact returns.symm

theorem ofAnchor?_eq_some_iff {inside : Text} {anchor : Anchor} {signature : Signature} :
    ofAnchor? inside anchor = some signature ↔
      QualifiedName.ofText? anchor.after = some signature.name ∧
        signature.convention = anchor.convention ∧
        Returns signature.name anchor.before.trim signature.returnType ∧
        signature.arguments = ArgumentList.ofText inside := by
  rw [ofAnchor?, Option.map_eq_some_iff, returns_iff]
  constructor
  · intro found
    obtain ⟨name, spells, rfl⟩ := found
    exact ⟨spells, rfl, rfl, rfl⟩
  · intro fields
    obtain ⟨returnType, convention, name, arguments⟩ := signature
    obtain ⟨spells, sameConvention, sameReturn, sameArguments⟩ := fields
    dsimp only at spells sameConvention sameReturn sameArguments
    subst sameConvention sameReturn sameArguments
    exact ⟨name, spells, rfl⟩

theorem ofAnchor?_eq_none_iff {inside : Text} {anchor : Anchor} :
    ofAnchor? inside anchor = none ↔ QualifiedName.ofText? anchor.after = none := by
  rw [ofAnchor?, Option.map_eq_none_iff]

/-- The argument list is looked for first, and then the anchors in front of it. -/
theorem parse?_eq_bind (text : Text) :
    parse? text = ((dropQualifiers? (body text)).bind ArgumentList.split?).bind
      fun parts => (Anchor.all parts.1).findSome? (ofAnchor? parts.2) := by
  rw [Option.bind_assoc]
  rfl

/-- A signature is read from the argument list of a body and from the leftmost
anchor in front of it that has a name behind it. -/
theorem parse?_eq_some_iff_parts {text : Text} {signature : Signature} :
    parse? text = some signature ↔
      ∃ head inside tail anchor, HasGroup (body text) head inside tail ∧
        anchor.text = head ∧ StandsAlone anchor.before anchor.after ∧
        ofAnchor? inside anchor = some signature ∧
        ∀ earlier : Anchor, earlier.text = head → StandsAlone earlier.before earlier.after →
          earlier.before.length < anchor.before.length →
            QualifiedName.ofText? earlier.after = none := by
  rw [parse?_eq_bind, Option.bind_eq_some_iff]
  constructor
  · intro found
    obtain ⟨⟨head, inside⟩, cut, found⟩ := found
    obtain ⟨tail, group⟩ := split_dropQualifiers_iff.1 cut
    obtain ⟨anchor, whole, alone, reads, fails⟩ := Anchor.findSome?_all_eq_some_iff.1 found
    refine ⟨head, inside, tail, anchor, group, whole, alone, reads, ?_⟩
    intro earlier sameText earlierAlone shorter
    exact ofAnchor?_eq_none_iff.1 (fails earlier sameText earlierAlone shorter)
  · intro found
    obtain ⟨head, inside, tail, anchor, group, whole, alone, reads, fails⟩ := found
    refine ⟨(head, inside), split_dropQualifiers_iff.2 ⟨tail, group⟩, ?_⟩
    refine Anchor.findSome?_all_eq_some_iff.2 ⟨anchor, whole, alone, reads, ?_⟩
    intro earlier sameText earlierAlone shorter
    exact ofAnchor?_eq_none_iff.2 (fails earlier sameText earlierAlone shorter)

/-- A signature is read if any anchor in front of the argument list has a name behind it. -/
theorem parse?_isSome_iff {text : Text} :
    (parse? text).isSome = true ↔
      ∃ (head inside tail : Text) (anchor : Anchor), HasGroup (body text) head inside tail ∧
        anchor.text = head ∧ StandsAlone anchor.before anchor.after ∧
        QualifiedName.ofText? anchor.after ≠ none := by
  constructor
  · intro found
    obtain ⟨signature, parsed⟩ := Option.isSome_iff_exists.1 found
    obtain ⟨head, inside, tail, anchor, group, whole, alone, reads, -⟩ :=
      parse?_eq_some_iff_parts.1 parsed
    refine ⟨head, inside, tail, anchor, group, whole, alone, ?_⟩
    rw [(ofAnchor?_eq_some_iff.1 reads).1]
    exact Option.some_ne_none _
  · rintro ⟨head, inside, tail, anchor, group, whole, alone, named⟩
    have listed : anchor ∈ Anchor.all head := Anchor.mem_all_iff.2 ⟨whole, alone⟩
    have reads : (ofAnchor? inside anchor).isSome = true :=
      Option.isSome_iff_ne_none.2 (mt ofAnchor?_eq_none_iff.1 named)
    rw [parse?_eq_bind, split_dropQualifiers_iff.2 ⟨tail, group⟩, Option.bind_some]
    exact List.findSome?_isSome_iff.2 ⟨anchor, listed, reads⟩

/-- What is read depends on the body alone. -/
theorem parse?_congr {first second : Text} (same : body first = body second) :
    parse? first = parse? second := by
  rw [parse?_eq_bind, parse?_eq_bind, same]

end Signature

end SignatureExport
