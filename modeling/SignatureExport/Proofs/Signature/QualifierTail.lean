import SignatureExport.Proofs.Text.Pieces
import SignatureExport.Proofs.Text.Words
import SignatureExport.Signature.Qualifiers

/-!
# The text behind an argument list

A *qualifier tail* is what may stand behind an argument list: one of the five
lists of qualifiers between two runs of blanks.  `dropQualifiers?_eq_some_iff`
says that a text is kept up to a closing parenthesis exactly when a qualifier
tail stands behind it.  A qualifier tail holds no closing parenthesis, so there
is at most one such place.
-/

namespace SignatureExport

namespace Signature

open Text

/-- The lists of qualifiers, written out. -/
inductive Qualifiers : Text → Prop where
  | none : Qualifiers []
  | const : Qualifiers "const".toList
  | volatile : Qualifiers "volatile".toList
  | constVolatile {between : Text} : AllBlank between → between ≠ [] →
      Qualifiers ("const".toList ++ between ++ "volatile".toList)
  | volatileConst {between : Text} : AllBlank between → between ≠ [] →
      Qualifiers ("volatile".toList ++ between ++ "const".toList)

/-- What may stand behind an argument list: qualifiers between runs of blanks. -/
def QualifierTail (tail : Text) : Prop :=
  ∃ front qualifiers back, AllBlank front ∧ Qualifiers qualifiers ∧ AllBlank back ∧
    tail = front ++ qualifiers ++ back

theorem isWord_const : IsWord "const".toList := by decide

theorem isWord_volatile : IsWord "volatile".toList := by decide

/-- A run of blanks is a qualifier tail. -/
theorem qualifierTail_of_allBlank {tail : Text} (blank : AllBlank tail) : QualifierTail tail :=
  ⟨tail, [], [], blank, .none, allBlank_nil, by simp⟩

/-- The words of a qualifier tail are one of the lists. -/
theorem qualifierTail_iff_words {tail : Text} :
    QualifierTail tail ↔ tail.words ∈ qualifierLists := by
  constructor
  · rintro ⟨front, qualifiers, back, blankFront, allowed, blankBack, rfl⟩
    cases allowed with
    | none =>
        have blank : AllBlank (front ++ [] ++ back) := by simp [blankFront, blankBack]
        rw [words_of_allBlank blank]
        simp [qualifierLists]
    | const =>
        rw [words_eq_singleton_iff.2 ⟨front, back, blankFront, blankBack, isWord_const, rfl⟩]
        simp [qualifierLists]
    | volatile =>
        rw [words_eq_singleton_iff.2 ⟨front, back, blankFront, blankBack, isWord_volatile, rfl⟩]
        simp [qualifierLists]
    | constVolatile blank nonempty =>
        rw [words_eq_pair_iff.2 ⟨front, _, back, blankFront, blank, nonempty, blankBack,
          isWord_const, isWord_volatile, by simp⟩]
        simp [qualifierLists]
    | volatileConst blank nonempty =>
        rw [words_eq_pair_iff.2 ⟨front, _, back, blankFront, blank, nonempty, blankBack,
          isWord_volatile, isWord_const, by simp⟩]
        simp [qualifierLists]
  · intro listed
    simp only [qualifierLists, List.mem_cons, List.not_mem_nil, or_false] at listed
    rcases listed with empty | single | single | pair | pair
    · exact qualifierTail_of_allBlank (words_eq_nil_iff.1 empty)
    · obtain ⟨front, back, blankFront, blankBack, -, rfl⟩ := words_eq_singleton_iff.1 single
      exact ⟨front, _, back, blankFront, .const, blankBack, rfl⟩
    · obtain ⟨front, back, blankFront, blankBack, -, rfl⟩ := words_eq_singleton_iff.1 single
      exact ⟨front, _, back, blankFront, .volatile, blankBack, rfl⟩
    · obtain ⟨front, between, back, blankFront, blank, nonempty, blankBack, -, -, rfl⟩ :=
        words_eq_pair_iff.1 pair
      exact ⟨front, _, back, blankFront, .constVolatile blank nonempty, blankBack, by simp⟩
    · obtain ⟨front, between, back, blankFront, blank, nonempty, blankBack, -, -, rfl⟩ :=
        words_eq_pair_iff.1 pair
      exact ⟨front, _, back, blankFront, .volatileConst blank nonempty, blankBack, by simp⟩

theorem qualifierTail_append_iff {tail back : Text} (blank : AllBlank back) :
    QualifierTail (tail ++ back) ↔ QualifierTail tail := by
  rw [qualifierTail_iff_words, qualifierTail_iff_words, words_append_of_allBlank_right blank]

theorem QualifierTail.close_not_mem {tail : Text} (allowed : QualifierTail tail) : ')' ∉ tail := by
  have notBlank {run : Text} (blank : AllBlank run) : ')' ∉ run := blank.not_mem (by decide)
  obtain ⟨front, qualifiers, back, blankFront, listed, blankBack, rfl⟩ := allowed
  have free : ')' ∉ qualifiers := by
    cases listed with
    | none => decide
    | const => decide
    | volatile => decide
    | constVolatile blank => simp [notBlank blank]
    | volatileConst blank => simp [notBlank blank]
  simp [notBlank blankFront, notBlank blankBack, free]

/-! ## The last closing parenthesis -/

theorem splitAtLastClose?_eq_some_iff {text kept rest : Text} :
    splitAtLastClose? text = some (kept, rest) ↔
      text = kept ++ rest ∧ kept.getLast? = some ')' ∧ ')' ∉ rest := by
  constructor
  · intro found
    rw [splitAtLastClose?] at found
    split at found
    next => cases found
    next close nonempty =>
      obtain ⟨rfl, rfl⟩ := Prod.mk.inj (Option.some.inj found)
      obtain ⟨c, front, cut⟩ := List.exists_cons_of_ne_nil nonempty
      have parts : text = front.reverse ++ c :: _ ∧ _ := reverse_takeWhile_dropWhile_eq_iff.1
        ⟨(List.reverse_reverse _).symm, by rw [cut, List.reverse_reverse]⟩
      obtain ⟨equal, free, isClose⟩ := parts
      obtain rfl : c = ')' := by simpa using isClose
      rw [cut]
      exact ⟨by simpa using equal, by simp, forall_bne_iff.1 free⟩
  · rintro ⟨rfl, last, free⟩
    obtain ⟨front, rfl⟩ := List.getLast?_eq_some_iff.1 last
    obtain ⟨after, before⟩ := reverse_takeWhile_dropWhile_eq_iff.2
      ⟨List.append_assoc front [')'] rest, forall_bne_iff.2 free, bne_self_eq_false ')'⟩
    rw [splitAtLastClose?, after, before]
    simp

/-- Qualifiers are dropped exactly where a qualifier tail stands behind a closing
parenthesis. -/
theorem dropQualifiers?_eq_some_iff {text kept : Text} :
    dropQualifiers? text = some kept ↔
      ∃ tail, text = kept ++ tail ∧ kept.getLast? = some ')' ∧ QualifierTail tail := by
  rw [dropQualifiers?]
  constructor
  · intro found
    split at found
    next => simp at found
    next front rest cut =>
      split at found
      next listed =>
        obtain ⟨rfl, last, -⟩ := splitAtLastClose?_eq_some_iff.1 cut
        cases found
        exact ⟨rest, rfl, last, qualifierTail_iff_words.2 listed⟩
      next => simp at found
  · rintro ⟨tail, rfl, last, allowed⟩
    rw [splitAtLastClose?_eq_some_iff.2 ⟨rfl, last, allowed.close_not_mem⟩]
    simp [qualifierTail_iff_words.1 allowed]

end Signature

end SignatureExport
