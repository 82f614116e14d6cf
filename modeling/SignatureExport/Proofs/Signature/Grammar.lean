import SignatureExport.Proofs.Signature.Group

/-!
# The grammar of signatures

`Reads` is the grammar that `parse?` accepts.  It is stated for the tokens of the
whole body, each with the text behind it, while the parser cuts the argument list
off first and looks for tokens in front of it only.  The two agree because a text
has one argument list at most: the tails of all tokens share it.
-/

namespace SignatureExport

namespace Signature

open Text
open QualifiedName (ofText?)
open Anchor (StandsAlone)

/-- What stands behind the token of a signature, blanks around it aside: a name, an
argument list and qualifiers. -/
def IsTail (after : Text) (name : QualifiedName) (inside : Text) : Prop :=
  ∃ head tail, HasGroup after.trim head inside tail ∧ ofText? head = some name

/-- A body is cut at a token into the parts of a signature. -/
structure Reads (body : Text) (anchor : Anchor) (inside : Text) (signature : Signature) :
    Prop where
  place : anchor.text = body
  alone : StandsAlone anchor.before anchor.after
  tail : IsTail anchor.after signature.name inside
  /-- No token further left has a tail. -/
  first : ∀ earlier : Anchor, earlier.text = body → StandsAlone earlier.before earlier.after →
    earlier.before.length < anchor.before.length →
      ∀ name inside, ¬ IsTail earlier.after name inside
  convention : signature.convention = anchor.convention
  returnType : Returns signature.name anchor.before.trim signature.returnType
  arguments : signature.arguments = ArgumentList.ofText inside

/-! ## Tails and blanks -/

/-- Blanks around a text go to its head and to its qualifiers. -/
theorem HasGroup.of_trim {text head inside tail : Text}
    (group : HasGroup text.trim head inside tail) :
    ∃ front back, AllBlank front ∧ HasGroup text (front ++ head) inside (tail ++ back) := by
  obtain ⟨front, back, blankFront, blankBack, equal⟩ := exists_trim text
  refine ⟨front, back, blankFront, ?_, group.nested, ?_⟩
  · rw [equal, group.whole]
    simp
  · exact (qualifierTail_append_iff blankBack).2 group.allowed

theorem isTrimmed_group {head inside tail : Text}
    (first : ∀ c ∈ head.head?, isBlank c = false) (last : ∀ c ∈ tail.getLast?, isBlank c = false) :
    IsTrimmed (head ++ '(' :: inside ++ ')' :: tail) := by
  refine ⟨?_, ?_⟩
  · cases head with
    | nil => simp; decide
    | cons c more => simpa using first
  · rw [List.getLast?_append_cons]
    cases tail with
    | nil => simp; decide
    | cons c more => rwa [List.getLast?_cons_cons]

/-- Trimming a text takes blanks off its head and off its qualifiers only. -/
theorem HasGroup.trim {text head inside tail : Text} (group : HasGroup text head inside tail) :
    HasGroup text.trim (trimStart head) inside (trimEnd tail) := by
  obtain ⟨front, blankFront, equalHead⟩ := exists_trimStart head
  obtain ⟨back, blankBack, equalTail⟩ := exists_trimEnd tail
  have allowed := group.allowed
  rw [equalTail, qualifierTail_append_iff blankBack] at allowed
  refine ⟨?_, group.nested, allowed⟩
  have middle : text =
      front ++ (trimStart head ++ '(' :: inside ++ ')' :: trimEnd tail) ++ back := by
    rw [group.whole]
    conv => lhs; rw [equalHead, equalTail]
    simp
  rw [middle]
  exact trim_of_isTrimmed blankFront (isTrimmed_group (head_trimStart head) (last_trimEnd tail))
    blankBack

/-- The tail of a token is cut in the same way with the blanks around it. -/
theorem isTail_iff {after inside : Text} {name : QualifiedName} :
    IsTail after name inside ↔
      ∃ head tail, HasGroup after head inside tail ∧ ofText? head = some name := by
  constructor
  · intro trimmed
    obtain ⟨head, tail, group, spells⟩ := trimmed
    obtain ⟨front, back, blank, group⟩ := group.of_trim
    refine ⟨front ++ head, tail ++ back, group, ?_⟩
    rw [QualifiedName.ofText?_congr (trim_append_of_allBlank_left blank head), spells]
  · intro whole
    obtain ⟨head, tail, group, spells⟩ := whole
    refine ⟨trimStart head, trimEnd tail, group.trim, ?_⟩
    obtain ⟨front, blank, equal⟩ := exists_trimStart head
    have same : (trimStart head).trim = head.trim := by
      conv => rhs; rw [equal, trim_append_of_allBlank_left blank]
    rw [QualifiedName.ofText?_congr same, spells]

/-- A token has one tail at most. -/
theorem IsTail.unique {after inside inside' : Text} {name name' : QualifiedName}
    (first : IsTail after name inside) (second : IsTail after name' inside') :
    name = name' ∧ inside = inside' := by
  obtain ⟨head, tail, group, spells⟩ := first
  obtain ⟨head', tail', group', spells'⟩ := second
  obtain ⟨rfl, rfl⟩ := group.unique group'
  exact ⟨Option.some.inj (spells.symm.trans spells'), rfl⟩

/-! ## Tails and the body -/

/-- A token with a tail is an anchor of the head of the body, with a name behind it. -/
theorem IsTail.exists_head {anchor : Anchor} {name : QualifiedName} {inside : Text}
    (isTail : IsTail anchor.after name inside) (alone : StandsAlone anchor.before anchor.after) :
    ∃ head tail, HasGroup anchor.text { anchor with after := head }.text inside tail ∧
      StandsAlone anchor.before head ∧ ofText? head = some name := by
  obtain ⟨head, tail, group, spells⟩ := isTail_iff.1 isTail
  refine ⟨head, tail, ⟨?_, group.nested, group.allowed⟩, ⟨alone.start, ?_⟩, spells⟩
  · rw [Anchor.text, group.whole]
    simp [Anchor.text, Anchor.before]
  · have starts := alone.stop
    rw [group.whole, List.append_assoc] at starts
    cases head with
    | nil => exact absurd (show isBlank '(' = true from starts) (by decide)
    | cons c more => exact starts

/-- An anchor of the head with a name behind it is a token of the body with a tail. -/
theorem HasGroup.isTail_extend {text inside tail : Text} {anchor : Anchor} {name : QualifiedName}
    (group : HasGroup text anchor.text inside tail) (spells : ofText? anchor.after = some name) :
    IsTail (anchor.extend ('(' :: inside ++ ')' :: tail)).after name inside := by
  refine isTail_iff.2 ⟨anchor.after, tail, ⟨?_, group.nested, group.allowed⟩, spells⟩
  rw [Anchor.extend, List.append_assoc]

theorem HasGroup.text_extend {text inside tail : Text} {anchor : Anchor}
    (group : HasGroup text anchor.text inside tail) :
    (anchor.extend ('(' :: inside ++ ')' :: tail)).text = text := by
  rw [Anchor.text_extend, group.whole, List.append_assoc]

/-- A text is read as a signature if and only if its body is cut at a token into the
parts of this signature. -/
theorem parse?_eq_some_iff_reads {text : Text} {signature : Signature} :
    parse? text = some signature ↔ ∃ anchor inside, Reads (body text) anchor inside signature := by
  rw [parse?_eq_some_iff_parts]
  constructor
  · intro parts
    obtain ⟨head, inside, tail, anchor, group, rfl, alone, fields, fails⟩ := parts
    obtain ⟨spells, convention, returnType, arguments⟩ := ofAnchor?_eq_some_iff.1 fields
    refine ⟨anchor.extend ('(' :: inside ++ ')' :: tail), inside, group.text_extend,
      alone.extend _, group.isTail_extend spells, ?_, convention, returnType, arguments⟩
    intro earlier sameBody earlierAlone shorter name other isTail
    obtain ⟨head, rest, otherGroup, headAlone, named⟩ := isTail.exists_head earlierAlone
    -- both argument lists end the body, so the heads in front of them are the same text
    obtain ⟨sameHead, -⟩ := group.unique (sameBody ▸ otherGroup)
    have failed := fails { earlier with after := head } sameHead.symm headAlone shorter
    exact absurd (failed.symm.trans named) (by simp)
  · intro found
    obtain ⟨anchor, inside, reads⟩ := found
    obtain ⟨head, tail, group, headAlone, spells⟩ := reads.tail.exists_head reads.alone
    rw [reads.place] at group
    refine ⟨_, inside, tail, { anchor with after := head }, group, rfl, headAlone,
      ofAnchor?_eq_some_iff.2 ⟨spells, reads.convention, reads.returnType, reads.arguments⟩, ?_⟩
    intro earlier sameHead earlierAlone shorter
    rw [← sameHead] at group
    cases spelled : ofText? earlier.after with
    | none => rfl
    | some name =>
        have isTail := group.isTail_extend spelled
        exact absurd isTail
          (reads.first _ group.text_extend (earlierAlone.extend _) shorter name inside)

end Signature

end SignatureExport
