import SignatureExport.Proofs.Text.Words
import SignatureExport.Signature.Anchor

/-!
# Anchors and standing alone

`mem_all_iff` says that the anchors of a text are all the ways to write it as a
text, a token that stands alone and a text.  They are listed from left to right
(`pairwise_all`), so a search through them finds the leftmost one that does
(`findSome?_all_eq_some_iff`).
-/

namespace SignatureExport

/-! ## Tokens -/

namespace CallingConvention

theorem eq_of_leading_token {first second : CallingConvention}
    (leading : first.token <+: second.token) : first = second := by
  revert leading
  cases first <;> cases second <;> decide

/-- No token starts with another, so a text starts with at most one of them. -/
theorem token_append_inj {first second : CallingConvention} {afterFirst afterSecond : Text}
    (equal : first.token ++ afterFirst = second.token ++ afterSecond) :
    first = second ∧ afterFirst = afterSecond := by
  have same : first = second := by
    rcases List.append_eq_append_iff.1 equal with ⟨more, longer, -⟩ | ⟨more, longer, -⟩
    · exact eq_of_leading_token ⟨more, longer.symm⟩
    · exact (eq_of_leading_token ⟨more, longer.symm⟩).symm
  subst same
  exact ⟨rfl, List.append_cancel_left equal⟩

/-- A token is a word that starts with an underscore. -/
theorem exists_token_eq (convention : CallingConvention) :
    ∃ name, convention.token = '_' :: name := by
  cases convention <;> exact ⟨_, rfl⟩

theorem isWord_token (convention : CallingConvention) : Text.IsWord convention.token := by
  cases convention <;> decide

end CallingConvention

namespace Anchor

open Text (StartsWord)

/-- Whether a token between two texts stands alone.  The text behind it may not be empty. -/
structure StandsAlone (before after : Text) : Prop where
  start : StartsWord before
  stop : startsBlank after = true

theorem startsBlank_iff {text : Text} :
    startsBlank text = true ↔ ∃ c rest, text = c :: rest ∧ isBlank c = true := by
  cases text <;> simp [startsBlank]

theorem startsWord_iff_passed {passed : Text} :
    StartsWord passed.reverse ↔ passed = [] ∨ startsBlank passed = true := by
  cases passed <;> simp [StartsWord, startsBlank]

theorem before_isPrefix (anchor : Anchor) : anchor.before <+: anchor.text :=
  ⟨anchor.convention.token ++ anchor.after, by rw [text, List.append_assoc]⟩

/-- The anchor, in a text that goes on with `rest`. -/
def extend (anchor : Anchor) (rest : Text) : Anchor :=
  { anchor with after := anchor.after ++ rest }

theorem text_extend (anchor : Anchor) (rest : Text) :
    (anchor.extend rest).text = anchor.text ++ rest := by
  simp [extend, text, before]

theorem StandsAlone.extend {anchor : Anchor} (alone : StandsAlone anchor.before anchor.after)
    (rest : Text) : StandsAlone (anchor.extend rest).before (anchor.extend rest).after := by
  refine ⟨alone.start, ?_⟩
  obtain ⟨c, more, starts, blank⟩ := startsBlank_iff.1 alone.stop
  exact startsBlank_iff.2 ⟨c, more ++ rest, by simp [Anchor.extend, starts], blank⟩

/-! ## The anchors of a text -/

theorem here?_eq_some_iff {passed text : Text} {anchor : Anchor} :
    here? passed text = some anchor ↔
      anchor.passed = passed ∧ anchor.convention.token ++ anchor.after = text ∧
        StandsAlone passed.reverse anchor.after := by
  have sound {found : Anchor} (reads : here? passed text = some found) :
      found.passed = passed ∧ found.convention.token ++ found.after = text ∧
        StandsAlone passed.reverse found.after := by
    rw [here?] at reads
    split at reads
    next start =>
      obtain ⟨convention, -, reads⟩ := List.exists_of_findSome?_eq_some reads
      obtain ⟨after, cut, reads⟩ := Option.bind_eq_some_iff.1 reads
      split at reads
      next stop =>
        cases reads
        exact ⟨rfl, (Text.after?_eq_some_iff.1 cut).symm, startsWord_iff_passed.2 start, stop⟩
      next => simp at reads
    next => simp at reads
  refine ⟨sound, ?_⟩
  rintro ⟨rfl, rfl, start, stop⟩
  cases reads : here? anchor.passed (anchor.convention.token ++ anchor.after) with
  | none =>
      rw [here?, if_pos (startsWord_iff_passed.1 start), List.findSome?_eq_none_iff] at reads
      have own := reads anchor.convention (CallingConvention.mem_all _)
      simp [Text.after?_eq_some_iff.2 rfl, stop] at own
  | some found =>
      obtain ⟨samePassed, equal, -⟩ := sound reads
      obtain ⟨sameConvention, sameAfter⟩ := CallingConvention.token_append_inj equal
      obtain ⟨convention, passed, after⟩ := found
      simp_all

/-- The anchors in the rest of a text, behind the characters already passed. -/
theorem mem_inRest_iff {passed text : Text} {anchor : Anchor} :
    anchor ∈ inRest passed text ↔
      ∃ skipped, anchor.passed = skipped.reverse ++ passed ∧
        skipped ++ anchor.convention.token ++ anchor.after = text ∧
        StandsAlone anchor.before anchor.after := by
  induction text generalizing passed with
  | nil =>
      obtain ⟨name, token⟩ := anchor.convention.exists_token_eq
      simp [inRest, token]
  | cons c rest ih =>
      rw [inRest, List.mem_append, Option.mem_toList, here?_eq_some_iff, ih]
      constructor
      · rintro (⟨rfl, equal, alone⟩ | ⟨skipped, samePassed, rfl, alone⟩)
        · exact ⟨[], by simp, by simpa using equal, alone⟩
        · exact ⟨c :: skipped, by simp [samePassed], by simp, alone⟩
      · rintro ⟨skipped, samePassed, equal, alone⟩
        cases skipped with
        | nil => exact .inl ⟨by simpa using samePassed, by simpa using equal, by
            simpa [before, samePassed] using alone⟩
        | cons first more =>
            obtain ⟨rfl, rfl⟩ := List.cons.inj equal
            exact .inr ⟨more, by simp [samePassed], by simp, alone⟩

/-- The anchors of a text are the ways to cut it at a token that stands alone. -/
theorem mem_all_iff {text : Text} {anchor : Anchor} :
    anchor ∈ all text ↔ anchor.text = text ∧ StandsAlone anchor.before anchor.after := by
  rw [all, mem_inRest_iff]
  constructor
  · rintro ⟨skipped, samePassed, rfl, alone⟩
    exact ⟨by simp [Anchor.text, before, samePassed], alone⟩
  · rintro ⟨rfl, alone⟩
    exact ⟨anchor.before, by simp [before], rfl, alone⟩

theorem pairwise_inRest (passed text : Text) :
    (inRest passed text).Pairwise fun first second => first.passed.length < second.passed.length := by
  induction text generalizing passed with
  | nil => exact .nil
  | cons c rest ih =>
      rw [inRest, List.pairwise_append]
      refine ⟨by cases here? passed (c :: rest) <;> simp, ih (c :: passed), ?_⟩
      intro first inside second later
      obtain ⟨samePassed, -⟩ := here?_eq_some_iff.1 (Option.mem_toList.1 inside)
      obtain ⟨skipped, longer, -⟩ := mem_inRest_iff.1 later
      simp only [samePassed, longer, List.length_append, List.length_reverse, List.length_cons]
      omega

/-- The anchors of a text are listed from left to right. -/
theorem pairwise_all (text : Text) :
    (all text).Pairwise fun first second => first.before.length < second.before.length := by
  simpa [all, before] using pairwise_inRest [] text

/-- A search through the anchors of a text ends at the leftmost one with an answer. -/
theorem findSome?_all_eq_some_iff {α : Type} {answer? : Anchor → Option α} {text : Text}
    {answer : α} :
    (all text).findSome? answer? = some answer ↔
      ∃ anchor : Anchor, anchor.text = text ∧ StandsAlone anchor.before anchor.after ∧
        answer? anchor = some answer ∧
        ∀ earlier : Anchor, earlier.text = text → StandsAlone earlier.before earlier.after →
          earlier.before.length < anchor.before.length → answer? earlier = none := by
  rw [List.findSome?_eq_some_iff]
  have order := pairwise_all text
  constructor
  · rintro ⟨front, anchor, back, equal, found, fails⟩
    rw [equal, List.pairwise_append, List.pairwise_cons] at order
    obtain ⟨-, ⟨later, -⟩, -⟩ := order
    obtain ⟨whole, alone⟩ := mem_all_iff.1 (equal ▸ List.mem_append_right front List.mem_cons_self)
    refine ⟨anchor, whole, alone, found, fun earlier sameText earlierAlone shorter => ?_⟩
    have listed := mem_all_iff.2 ⟨sameText, earlierAlone⟩
    rw [equal, List.mem_append, List.mem_cons] at listed
    rcases listed with inFront | rfl | inBack
    · exact fails earlier inFront
    · exact absurd shorter (Nat.lt_irrefl _)
    · exact absurd shorter (Nat.lt_asymm (later earlier inBack))
  · rintro ⟨anchor, whole, alone, found, fails⟩
    obtain ⟨front, back, equal⟩ := List.append_of_mem (mem_all_iff.2 ⟨whole, alone⟩)
    refine ⟨front, anchor, back, equal, found, fun earlier inFront => ?_⟩
    rw [equal, List.pairwise_append] at order
    obtain ⟨sameText, earlierAlone⟩ := mem_all_iff.1 (equal ▸ List.mem_append_left _ inFront)
    exact fails earlier sameText earlierAlone (order.2.2 earlier inFront anchor List.mem_cons_self)

end Anchor

end SignatureExport
