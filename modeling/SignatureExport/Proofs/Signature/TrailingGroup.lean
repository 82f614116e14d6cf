import SignatureExport.Proofs.Signature.Grammar
import SignatureExport.Proofs.Signature.LeadingModifier

/-!
# The trailing group

The *trailing group* of a text is the group of parentheses that its last closing parenthesis
closes.  A text has one at most, and none if nothing opens that group.

Whether a token is the anchor of a signature can be tried for each token of the body by
itself, on nothing but the text behind it (`readAt?`).  The parser gives the answer of the
first token that has one (`parse?_eq_winner`).  A cut inside the argument list, at the token
of a function pointer, leaves a shorter text to try, and so does a cut below groups that
nest too deep.  Neither can succeed, since the last closing parenthesis of the text closes
the same group in whatever is left of it: the group has to open behind the token, and what
it holds is the argument list of every token (`parse?_trailing_group`).
-/

namespace SignatureExport

namespace Signature

open Text
open ArgumentList (maxNesting)

/-! ## Tokens, one at a time -/

/-- The signature with the token of an anchor, if the text behind the token is a name, an
argument list and qualifiers. -/
def readAt? (anchor : Anchor) : Option Signature := do
  let (head, inside) ← ArgumentList.split? (← dropQualifiers? anchor.after.trim)
  ofAnchor? inside { anchor with after := head }

/-- The first anchor of the body that a signature is read at. -/
def winner? (text : Text) : Option Anchor :=
  (Anchor.all (body text)).find? fun anchor => (readAt? anchor).isSome

theorem readAt?_eq_some_iff {anchor : Anchor} {signature : Signature} :
    readAt? anchor = some signature ↔
      ∃ inside, IsTail anchor.after signature.name inside ∧
        signature.convention = anchor.convention ∧
        Returns signature.name anchor.before.trim signature.returnType ∧
        signature.arguments = ArgumentList.ofText inside := by
  have split : readAt? anchor = ((dropQualifiers? anchor.after.trim).bind ArgumentList.split?).bind
      fun parts => ofAnchor? parts.2 { anchor with after := parts.1 } := by
    rw [Option.bind_assoc]
    rfl
  rw [split, Option.bind_eq_some_iff]
  constructor
  · intro found
    obtain ⟨⟨head, inside⟩, cut, fields⟩ := found
    obtain ⟨tail, group⟩ := split_dropQualifiers_iff.1 cut
    obtain ⟨spells, rest⟩ := ofAnchor?_eq_some_iff.1 fields
    exact ⟨inside, ⟨head, tail, group, spells⟩, rest⟩
  · intro found
    obtain ⟨inside, ⟨head, tail, group, spells⟩, rest⟩ := found
    exact ⟨(head, inside), split_dropQualifiers_iff.2 ⟨tail, group⟩,
      ofAnchor?_eq_some_iff.2 ⟨spells, rest⟩⟩

/-- A signature is read at an anchor if and only if the anchor has a tail. -/
theorem readAt?_eq_none_iff {anchor : Anchor} :
    readAt? anchor = none ↔ ∀ name inside, ¬ IsTail anchor.after name inside := by
  rw [Option.eq_none_iff_forall_ne_some]
  constructor
  · intro unread name inside isTail
    refine unread ⟨if anchor.before.trim = [] then defaultReturnType name else anchor.before.trim,
      anchor.convention, name, ArgumentList.ofText inside⟩ ?_
    exact readAt?_eq_some_iff.2 ⟨inside, isTail, rfl, returns_iff.2 rfl, rfl⟩
  · intro noTail signature reads
    obtain ⟨inside, isTail, -⟩ := readAt?_eq_some_iff.1 reads
    exact noTail signature.name inside isTail

/-- A text is read at the first anchor of its body that has an answer. -/
theorem parse?_eq_findSome? (text : Text) :
    parse? text = (Anchor.all (body text)).findSome? readAt? := by
  apply Option.ext
  intro signature
  rw [parse?_eq_some_iff_reads, Anchor.findSome?_all_eq_some_iff]
  constructor
  · intro found
    obtain ⟨anchor, inside, reads⟩ := found
    refine ⟨anchor, reads.place, reads.alone, ?_, ?_⟩
    · exact readAt?_eq_some_iff.2
        ⟨inside, reads.tail, reads.convention, reads.returnType, reads.arguments⟩
    · intro earlier place alone shorter
      exact readAt?_eq_none_iff.2 (reads.first earlier place alone shorter)
  · intro found
    obtain ⟨anchor, place, alone, reads, fails⟩ := found
    obtain ⟨inside, isTail, convention, returnType, arguments⟩ := readAt?_eq_some_iff.1 reads
    refine ⟨anchor, inside, place, alone, isTail, ?_, convention, returnType, arguments⟩
    intro earlier samePlace earlierAlone shorter
    exact readAt?_eq_none_iff.1 (fails earlier samePlace earlierAlone shorter)

theorem parse?_eq_winner (text : Text) : parse? text = (winner? text).bind readAt? := by
  rw [parse?_eq_findSome?, winner?]
  induction Anchor.all (body text) with
  | nil => rfl
  | cons anchor anchors ih =>
      rw [List.findSome?_cons, List.find?_cons]
      cases reads : readAt? anchor with
      | none => exact ih
      | some signature => exact reads.symm

/-! ## The group of the last parenthesis -/

/-- The last closing parenthesis of a text closes the group that opens behind `front` and
holds `inside`. -/
structure TrailingGroup (text front inside rest : Text) : Prop where
  whole : text = front ++ '(' :: inside ++ ')' :: rest
  last : ')' ∉ rest
  matched : ∃ levels, Nested levels inside

variable {text front inside rest : Text}

/-- The end of a matched text is matched with no parenthesis that is open in front of it. -/
theorem not_nested_append_open {levels inner : Nat} {front inside : Text}
    (nested : Nested levels (front ++ '(' :: inside)) : ¬ Nested inner inside := by
  intro nestedInside
  have balanced := nested_iff_balanced.1 nested
  have closed := balanced.closed
  have opened := balanced.opened front (List.prefix_append front _)
  have closedInside := (nested_iff_balanced.1 nestedInside).closed
  rw [List.count_append, List.count_append, List.count_cons_self,
    List.count_cons_of_ne (by decide)] at closed
  omega

/-- Only one parenthesis opens the group that a text has open at its end. -/
theorem eq_of_open_matched {levels inner : Nat} {front inside other within : Text}
    (equal : front ++ '(' :: inside = other ++ '(' :: within) (nested : Nested levels inside)
    (nestedOther : Nested inner within) : other = front ∧ within = inside := by
  rcases List.append_eq_append_iff.1 equal with ⟨more, rfl, cut⟩ | ⟨more, rfl, cut⟩
  · cases more with
    | nil => exact ⟨List.append_nil front, (List.cons.inj cut).2.symm⟩
    | cons c more =>
        obtain ⟨-, rfl⟩ := List.cons.inj cut
        exact absurd nestedOther (not_nested_append_open nested)
  · cases more with
    | nil => exact ⟨(List.append_nil other).symm, (List.cons.inj cut).2⟩
    | cons c more =>
        obtain ⟨-, rfl⟩ := List.cons.inj cut
        exact absurd nested (not_nested_append_open nestedOther)

/-- A text has one trailing group at most. -/
theorem TrailingGroup.unique {other within behind : Text}
    (first : TrailingGroup text front inside rest)
    (second : TrailingGroup text other within behind) :
    other = front ∧ within = inside ∧ behind = rest := by
  obtain ⟨levels, nested⟩ := first.matched
  obtain ⟨inner, nestedOther⟩ := second.matched
  have cut {front inside rest : Text} (group : TrailingGroup text front inside rest) :
      splitAtLastClose? text = some (front ++ '(' :: inside ++ [')'], rest) :=
    splitAtLastClose?_eq_some_iff.2 ⟨by simp [group.whole], List.getLast?_concat, group.last⟩
  have same := Option.some.inj ((cut first).symm.trans (cut second))
  obtain ⟨sameFront, sameRest⟩ := Prod.mk.inj same
  obtain ⟨equalFront, equalInside⟩ :=
    eq_of_open_matched (List.append_cancel_right sameFront) nested nestedOther
  exact ⟨equalFront, equalInside, sameRest.symm⟩

/-! ## The group and the tokens -/

/-- What stands around the body of a text. -/
theorem exists_around_body (text : Text) :
    ∃ dropped blanks, text = dropped ++ body text ++ blanks ∧ AllBlank blanks := by
  obtain ⟨left, right, -, blank, equal⟩ := exists_trim text
  obtain ⟨modifiers, cut⟩ := dropModifiers_suffix text.trim
  refine ⟨left ++ modifiers, right, ?_, blank⟩
  conv => lhs; rw [equal, ← cut]
  simp [body]

/-- The argument list behind a token is the trailing group of the whole text. -/
theorem IsTail.trailingGroup {blanks : Text} {anchor : Anchor} {name : QualifiedName}
    (isTail : IsTail anchor.after name inside) (dropped : Text) (blank : AllBlank blanks) :
    Nested maxNesting inside ∧ ∃ middle rest,
      TrailingGroup (dropped ++ anchor.text ++ blanks)
        (dropped ++ anchor.before ++ anchor.convention.token ++ middle) inside rest := by
  obtain ⟨head, tail, group, -⟩ := isTail_iff.1 isTail
  refine ⟨group.nested, head, tail ++ blanks, ?_, ?_, maxNesting, group.nested⟩
  · rw [Anchor.text, group.whole]
    simp
  · rw [List.mem_append, not_or]
    exact ⟨group.allowed.close_not_mem, blank.not_mem (by decide)⟩

/-- A signature is read in front of the trailing group, and has the arguments in it. -/
theorem exists_trailingGroup {dropped blanks : Text} {anchor : Anchor} {signature : Signature}
    (whole : text = dropped ++ body text ++ blanks) (blank : AllBlank blanks)
    (listed : anchor ∈ Anchor.all (body text)) (reads : readAt? anchor = some signature) :
    ∃ front inside rest, TrailingGroup text front inside rest ∧ Nested maxNesting inside ∧
      dropped ++ anchor.before ++ anchor.convention.token <+: front ∧
      signature.arguments = ArgumentList.ofText inside := by
  obtain ⟨inside, isTail, -, -, arguments⟩ := readAt?_eq_some_iff.1 reads
  obtain ⟨nested, middle, rest, group⟩ := isTail.trailingGroup dropped blank
  rw [(Anchor.mem_all_iff.1 listed).1, ← whole] at group
  exact ⟨_, inside, rest, group, nested, List.prefix_append _ middle, arguments⟩

theorem exists_winner {signature : Signature} (parsed : parse? text = some signature) :
    ∃ anchor ∈ Anchor.all (body text),
      winner? text = some anchor ∧ readAt? anchor = some signature := by
  rw [parse?_eq_winner, Option.bind_eq_some_iff] at parsed
  obtain ⟨anchor, wins, reads⟩ := parsed
  exact ⟨anchor, List.mem_of_find?_eq_some wins, wins, reads⟩

/-- A text without a trailing group of little depth is no signature. -/
theorem parse?_eq_none_of_trailingGroup
    (deep : ∀ front inside rest, TrailingGroup text front inside rest → ¬ Nested maxNesting inside) :
    parse? text = none := by
  refine Option.eq_none_iff_forall_ne_some.2 fun signature parsed => ?_
  obtain ⟨dropped, blanks, whole, blank⟩ := exists_around_body text
  obtain ⟨anchor, listed, -, reads⟩ := exists_winner parsed
  obtain ⟨front, inside, rest, group, nested, -⟩ := exists_trailingGroup whole blank listed reads
  exact deep front inside rest group nested

/-- The argument list of a signature does not depend on the anchor it is read at, and no
token inside the argument list can be this anchor.  The list is the trailing group of the
text, which opens behind the token.  If nothing opens the group, or groups nest in it too
deep, no signature is read, whatever tokens the text has. -/
theorem parse?_trailing_group (text : Text) :
    ∃ dropped blanks, text = dropped ++ body text ++ blanks ∧ AllBlank blanks ∧
      -- the first token with an answer gives the signature
      parse? text = (winner? text).bind readAt? ∧
      (∀ signature, parse? text = some signature → ∃ anchor front inside rest,
        winner? text = some anchor ∧ TrailingGroup text front inside rest ∧
          dropped ++ anchor.before ++ anchor.convention.token <+: front ∧
          signature.arguments = ArgumentList.ofText inside) ∧
      (∀ front inside rest, TrailingGroup text front inside rest →
        -- there is no other trailing group
        (∀ other within behind, TrailingGroup text other within behind →
          other = front ∧ within = inside ∧ behind = rest) ∧
        -- every token with an answer stands in front of it, and has its arguments
        (∀ anchor ∈ Anchor.all (body text), ∀ signature, readAt? anchor = some signature →
          dropped ++ anchor.before ++ anchor.convention.token <+: front ∧
            signature.arguments = ArgumentList.ofText inside) ∧
        (¬ Nested maxNesting inside → parse? text = none)) ∧
      ((∀ front inside rest, ¬ TrailingGroup text front inside rest) → parse? text = none) := by
  obtain ⟨dropped, blanks, whole, blank⟩ := exists_around_body text
  refine ⟨dropped, blanks, whole, blank, parse?_eq_winner text, ?_, ?_, ?_⟩
  · intro signature parsed
    obtain ⟨anchor, listed, wins, reads⟩ := exists_winner parsed
    obtain ⟨front, inside, rest, group, -, fields⟩ := exists_trailingGroup whole blank listed reads
    exact ⟨anchor, front, inside, rest, wins, group, fields⟩
  · intro front inside rest group
    refine ⟨fun other within behind second => group.unique second, ?_, ?_⟩
    · intro anchor listed signature reads
      obtain ⟨other, within, behind, second, -, fields⟩ :=
        exists_trailingGroup whole blank listed reads
      obtain ⟨rfl, rfl, -⟩ := group.unique second
      exact fields
    · intro deep
      refine parse?_eq_none_of_trailingGroup fun other within behind second => ?_
      obtain ⟨-, rfl, -⟩ := group.unique second
      exact deep
  · intro unopened
    exact parse?_eq_none_of_trailingGroup fun front inside rest group =>
      absurd group (unopened front inside rest)

example : (winner? "void __cdecl f(int ( __stdcall *)(char), int)".toList).map (·.convention)
    = some .cdecl := by decide
example : parse? "int __cdecl f(int ( __cdecl *)(char (*)(int)))".toList = none := by decide

end Signature

end SignatureExport
