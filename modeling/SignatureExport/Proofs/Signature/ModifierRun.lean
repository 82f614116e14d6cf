import SignatureExport.Proofs.Signature.Group
import SignatureExport.Proofs.Signature.LeadingModifier
import SignatureExport.Proofs.Signature.Reread
import SignatureExport.Proofs.Text.Pieces

/-!
# The modifiers that are dropped

What `dropModifiers` drops is a run of modifiers with blanks behind them
(`exists_modifierRun`).  Such a run holds no parenthesis and no underscore.  So a body
with a run in front has the same argument list and the same tokens as the body without
it, and what is read from the longer body can be read from the shorter one
(`parse?_isSome_behind`).  Only the return type tells the two apart
(`eq_nil_of_parse?_behind`).
-/

namespace SignatureExport

namespace Signature

open Text
open QualifiedName (ofText? isClassChar)
open Anchor (StandsAlone)

/-- Modifiers one after the other, each with blanks behind it or none. -/
inductive ModifierRun : Text → Prop where
  | nil : ModifierRun []
  | cons {modifier blanks rest : Text} : Modifier modifier → AllBlank blanks → ModifierRun rest →
      ModifierRun (modifier ++ blanks ++ rest)

/-! ## Runs -/

theorem ModifierRun.append {first second : Text} (run : ModifierRun first)
    (more : ModifierRun second) : ModifierRun (first ++ second) := by
  induction run with
  | nil => exact more
  | cons modifier blanks _ ih =>
      rw [List.append_assoc _ _ second]
      exact .cons modifier blanks ih

theorem ModifierRun.single {modifier blanks : Text} (isModifier : Modifier modifier)
    (blank : AllBlank blanks) : ModifierRun (modifier ++ blanks) := by
  rw [← List.append_nil (modifier ++ blanks)]
  exact .cons isModifier blank .nil

theorem exists_run_of_afterWord? {text word rest : Text} (listed : word ∈ modifierWords)
    (found : afterWord? text word = some rest) : ∃ front, ModifierRun front ∧ text = front ++ rest := by
  obtain ⟨c, after, blank, rfl, rfl⟩ := afterWord?_eq_some_iff.1 found
  obtain ⟨blanks, allBlank, equal⟩ := exists_trimStart after
  refine ⟨word ++ [c] ++ blanks, .single (.word listed blank) allBlank, ?_⟩
  conv => lhs; rw [equal]
  simp

theorem exists_run_of_afterThunk? {text rest : Text} (found : afterThunk? text = some rest) :
    ∃ front, ModifierRun front ∧ text = front ++ rest := by
  obtain ⟨left, right, after, blankLeft, blankRight, rfl, rfl⟩ := afterThunk?_eq_some_iff.1 found
  obtain ⟨blanks, allBlank, equal⟩ := exists_trimStart after
  refine ⟨_, .single (.thunk blankLeft blankRight) allBlank, ?_⟩
  conv => lhs; rw [equal]
  simp

/-- A step drops a run if what it finds stands behind one. -/
theorem exists_run_getD {text : Text} {found : Option Text}
    (dropped : ∀ rest, found = some rest → ∃ front, ModifierRun front ∧ text = front ++ rest) :
    ∃ front, ModifierRun front ∧ text = front ++ found.getD text := by
  cases found with
  | none => exact ⟨[], .nil, rfl⟩
  | some rest => exact dropped rest rfl

/-- What is dropped from the start of a text is a run of modifiers. -/
theorem exists_modifierRun (text : Text) :
    ∃ front, ModifierRun front ∧ text = front ++ dropModifiers text := by
  have access : ∃ front, ModifierRun front ∧ text = front ++ dropAccess text := by
    refine exists_run_getD fun rest found => ?_
    obtain ⟨word, listed, one⟩ := List.exists_of_findSome?_eq_some found
    exact exists_run_of_afterWord? (List.mem_append_left _ listed) one
  have word : ∀ word ∈ modifierWords, ∀ text,
      ∃ front, ModifierRun front ∧ text = front ++ dropWord word text :=
    fun word listed text => exists_run_getD fun _ => exists_run_of_afterWord? listed
  obtain ⟨first, firstRun, cutAccess⟩ := access
  obtain ⟨second, secondRun, cutStatic⟩ := word "static".toList (by decide) (dropAccess text)
  obtain ⟨third, thirdRun, cutVirtual⟩ :=
    word "virtual".toList (by decide) (dropWord "static".toList (dropAccess text))
  obtain ⟨last, lastRun, cutThunk⟩ := exists_run_getD fun _ => @exists_run_of_afterThunk?
    (dropWord "virtual".toList (dropWord "static".toList (dropAccess text))) _
  refine ⟨first ++ second ++ third ++ last,
    ((firstRun.append secondRun).append thirdRun).append lastRun, ?_⟩
  calc text = first ++ dropAccess text := cutAccess
    _ = first ++ (second ++ dropWord "static".toList (dropAccess text)) := by rw [← cutStatic]
    _ = first ++ (second ++ (third ++ (last ++ dropModifiers text))) := by
      rw [dropModifiers, dropThunk, ← cutThunk, ← cutVirtual]
    _ = first ++ second ++ third ++ last ++ dropModifiers text := by simp

/-! ## What a run holds -/

theorem foreign_of_modifier {modifier : Text} (isModifier : Modifier modifier) :
    '(' ∉ modifier ∧ '_' ∉ modifier :=
  ⟨isModifier.not_mem (by decide) (by decide) (by decide),
    isModifier.not_mem (by decide) (by decide) (by decide)⟩

theorem ModifierRun.foreign {front : Text} (run : ModifierRun front) :
    '(' ∉ front ∧ '_' ∉ front := by
  induction run with
  | nil => exact ⟨List.not_mem_nil, List.not_mem_nil⟩
  | cons isModifier blank _ ih =>
      obtain ⟨noParenthesis, noUnderscore⟩ := foreign_of_modifier isModifier
      exact ⟨List.not_mem_append
          (List.not_mem_append noParenthesis (blank.not_mem (by decide))) ih.1,
        List.not_mem_append (List.not_mem_append noUnderscore (blank.not_mem (by decide))) ih.2⟩

theorem exists_solid_of_modifier {modifier : Text} (isModifier : Modifier modifier) :
    ∃ c ∈ modifier, isBlank c = false := by
  cases isModifier with
  | @word word c listed _ =>
      obtain ⟨nonempty, solid⟩ := isWord_of_mem_modifierWords word listed
      obtain ⟨first, others, rfl⟩ := List.exists_cons_of_ne_nil nonempty
      exact ⟨first, by simp, solid first List.mem_cons_self⟩
  | thunk => exact ⟨'[', by simp, by decide⟩

/-- A text that starts with a modifier is no return type that was not written. -/
theorem trim_ne_of_modifier {modifier rest word : Text} (isModifier : Modifier modifier)
    (solid : IsWord word) (noBracket : '[' ∉ word) (other : word ∉ modifierWords) :
    (modifier ++ rest).trim ≠ word := by
  intro same
  have single : words (modifier ++ rest) = [word] := by
    rw [← words_trim, same, words_of_isWord solid]
  cases isModifier with
  | @word first c listed blank =>
      rw [List.append_assoc, List.singleton_append, words_append_cons blank,
        words_of_isWord (isWord_of_mem_modifierWords first listed)] at single
      exact other ((List.cons.inj single).1 ▸ listed)
  | thunk =>
      refine noBracket (same ▸ mem_trim (by decide) ?_)
      simp

/-- One return type cannot be read both behind a modifier and from a part of what
follows the modifier. -/
theorem Returns.false_of_modifier {name : QualifiedName} {modifier rest inner returnType : Text}
    (isModifier : Modifier modifier) (classChars : ∀ c ∈ name.className, isClassChar c = true)
    (returns : Returns name (modifier ++ rest).trim returnType)
    (innerReturns : Returns name inner.trim returnType) (part : inner.Sublist rest) : False := by
  obtain ⟨c, inside, bare⟩ := exists_solid_of_modifier isModifier
  have nonempty : (modifier ++ rest).trim ≠ [] :=
    List.ne_nil_of_mem (mem_trim bare (List.mem_append_left rest inside))
  have written := returns.eq_written nonempty
  cases innerWritten : inner.trim with
  | nil =>
      rw [innerWritten] at innerReturns
      obtain ⟨solid, noBracket, other, -⟩ := innerReturns.solid classChars
      exact trim_ne_of_modifier isModifier solid noBracket other written
  | cons d more =>
      have same := innerReturns.eq_written (innerWritten ▸ List.cons_ne_nil d more)
      -- the modifier has characters that are not blank and not in the inner text
      have counts := congrArg (List.countP (!isBlank ·)) (written.trans same.symm)
      rw [countP_trim, countP_trim, List.countP_append] at counts
      have fewer := part.countP_le (p := (!isBlank ·))
      have positive : 0 < modifier.countP (!isBlank ·) :=
        List.countP_pos_iff.2 ⟨c, inside, by simp [bare]⟩
      omega

/-! ## A body behind a run -/

/-- An argument list lies behind a text without parentheses. -/
theorem HasGroup.of_append {front rest head inside tail : Text} (plain : '(' ∉ front)
    (group : HasGroup (front ++ rest) head inside tail) :
    ∃ inner, head = front ++ inner ∧ HasGroup rest inner inside tail := by
  have whole : front ++ rest = head ++ '(' :: (inside ++ ')' :: tail) := by
    simpa using group.whole
  obtain ⟨inner, rfl, cut⟩ := exists_append_of_not_mem plain whole
  exact ⟨inner, rfl, by simpa using cut, group.nested, group.allowed⟩

/-- A token lies behind a text without underscores. -/
theorem exists_anchor_behind {front rest : Text} {anchor : Anchor} (plain : '_' ∉ front)
    (whole : anchor.text = front ++ rest) (alone : StandsAlone anchor.before anchor.after) :
    ∃ inner : Anchor, inner.text = rest ∧ anchor.before = front ++ inner.before ∧
      inner.convention = anchor.convention ∧ inner.after = anchor.after ∧
      StandsAlone inner.before inner.after := by
  obtain ⟨name, token⟩ := anchor.convention.exists_token_eq
  have cut : front ++ rest = anchor.before ++ '_' :: (name ++ anchor.after) := by
    rw [← whole, Anchor.text, token, List.append_assoc, List.cons_append]
  obtain ⟨before, equal, rfl⟩ := exists_append_of_not_mem plain cut
  refine ⟨⟨anchor.convention, before.reverse, anchor.after⟩, ?_, ?_, rfl, rfl, ?_, alone.stop⟩
  · rw [Anchor.text, Anchor.before, List.reverse_reverse, token, List.append_assoc,
      List.cons_append]
  · rw [equal, Anchor.before, List.reverse_reverse]
  · rw [Anchor.before, List.reverse_reverse]
    intro c last
    refine alone.start c ?_
    rw [equal, List.getLast?_append]
    exact Option.or_eq_some_iff.2 (.inl last)

section Behind

variable {front first second : Text} (run : ModifierRun front)
  (behind : body first = front ++ body second)

include run behind

/-- Nothing is lost without the modifiers in front. -/
theorem parse?_isSome_behind (found : (parse? first).isSome = true) :
    (parse? second).isSome = true := by
  obtain ⟨head, inside, tail, anchor, group, whole, alone, named⟩ := parse?_isSome_iff.1 found
  rw [behind] at group
  obtain ⟨inner, rfl, innerGroup⟩ := group.of_append run.foreign.1
  obtain ⟨shifted, sameText, -, -, sameAfter, innerAlone⟩ :=
    exists_anchor_behind run.foreign.2 whole alone
  exact parse?_isSome_iff.2
    ⟨inner, inside, tail, shifted, innerGroup, sameText, innerAlone, sameAfter ▸ named⟩

/-- With modifiers in front the return type is another one. -/
theorem eq_nil_of_parse?_behind {signature : Signature}
    (parsedFirst : parse? first = some signature) (parsedSecond : parse? second = some signature) :
    front = [] := by
  obtain ⟨_, _, _, anchor, group, whole, alone, reads, -⟩ := parse?_eq_some_iff_parts.1 parsedFirst
  obtain ⟨_, _, _, inner, innerGroup, innerWhole, -, innerReads, fails⟩ :=
    parse?_eq_some_iff_parts.1 parsedSecond
  -- both bodies have the same argument list, so the anchor of the first is one of the second
  have outer := innerGroup.append_left front
  rw [← behind] at outer
  obtain ⟨shifted, sameText, before, -, sameAfter, shiftedAlone⟩ :=
    exists_anchor_behind run.foreign.2 (whole.trans (group.unique outer).1) alone
  obtain ⟨spells, -, returns, -⟩ := ofAnchor?_eq_some_iff.1 reads
  obtain ⟨-, -, innerReturns, -⟩ := ofAnchor?_eq_some_iff.1 innerReads
  have leftmost : inner.before <+: shifted.before := by
    have ordered : inner.before.length ≤ shifted.before.length := by
      refine Nat.le_of_not_lt fun shorter => ?_
      have unnamed := fails shifted sameText shiftedAlone shorter
      rw [sameAfter, spells] at unnamed
      cases unnamed
    have inText : inner.before <+: shifted.text :=
      (innerWhole.trans sameText.symm) ▸ inner.before_isPrefix
    exact List.prefix_of_prefix_length_le inText shifted.before_isPrefix ordered
  cases run with
  | nil => rfl
  | @cons modifier blanks rest isModifier _ _ =>
      have starts : anchor.before = modifier ++ (blanks ++ rest ++ shifted.before) := by
        simpa using before
      have part : inner.before.Sublist (blanks ++ rest ++ shifted.before) :=
        leftmost.sublist.trans (List.sublist_append_right _ _)
      rw [starts] at returns
      exact (returns.false_of_modifier isModifier (QualifiedName.isClassChar_of_ofText? spells)
        innerReturns part).elim

end Behind

end Signature

end SignatureExport
