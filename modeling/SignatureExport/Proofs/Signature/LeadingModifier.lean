import SignatureExport.Proofs.Text.Words
import SignatureExport.Signature.Modifiers

/-!
# Modifiers at the start of a text

A *modifier* is a word of modifiers with a blank behind it, or a thunk marker.
`dropModifiers` leaves a text alone exactly when no modifier starts it
(`dropModifiers_eq_self_iff`).  For a text that is cut at a blank with an
underscore next, as in front of a token, this depends only on what stands before
the blank (`dropModifiers_append_eq_self_iff`).
-/

namespace SignatureExport

namespace Signature

open Text

/-- The words that are modifiers when a blank follows. -/
def modifierWords : List Text := accessSpecifiers ++ ["static".toList, "virtual".toList]

/-- The texts that `dropModifiers` drops from the start of another. -/
inductive Modifier : Text → Prop where
  | word {word : Text} {c : Char} : word ∈ modifierWords → isBlank c = true → Modifier (word ++ [c])
  | thunk {left right : Text} : AllBlank left → AllBlank right →
      Modifier ('[' :: left ++ "thunk".toList ++ right ++ "]:".toList)

/-! ## What the single steps drop -/

theorem afterWord?_eq_some_iff {text word rest : Text} :
    afterWord? text word = some rest ↔
      ∃ c after, isBlank c = true ∧ text = word ++ c :: after ∧ rest = trimStart after := by
  rw [afterWord?]
  constructor
  · intro found
    split at found
    next c after cut =>
      split at found
      next blank =>
        exact ⟨c, after, blank, Text.after?_eq_some_iff.1 cut, (Option.some.inj found).symm⟩
      next => simp at found
    next => simp at found
  · rintro ⟨c, after, blank, equal, rfl⟩
    rw [Text.after?_eq_some_iff.2 equal]
    simp [blank]

theorem afterThunk?_eq_some_iff {text rest : Text} :
    afterThunk? text = some rest ↔
      ∃ left right after, AllBlank left ∧ AllBlank right ∧
        text = '[' :: left ++ "thunk".toList ++ right ++ "]:".toList ++ after ∧
          rest = trimStart after := by
  simp only [afterThunk?, Option.bind_eq_bind, Option.bind_eq_some_iff, Option.pure_def,
    Text.after?_eq_some_iff, Option.some.injEq]
  constructor
  · rintro ⟨inside, rfl, close, equalInside, after, equalClose, rfl⟩
    obtain ⟨left, blankLeft, cutInside⟩ := exists_trimStart inside
    obtain ⟨right, blankRight, cutClose⟩ := exists_trimStart close
    refine ⟨left, right, after, blankLeft, blankRight, ?_, rfl⟩
    conv => lhs; rw [cutInside, equalInside, cutClose, equalClose]
    simp
  · rintro ⟨left, right, after, blankLeft, blankRight, rfl, rfl⟩
    refine ⟨left ++ "thunk".toList ++ right ++ "]:".toList ++ after, by simp,
      right ++ "]:".toList ++ after, ?_, after, ?_, rfl⟩
    · simp only [List.append_assoc]
      rw [trimStart_append_of_allBlank blankLeft, trimStart_of_head (by simp; decide)]
    · rw [List.append_assoc, trimStart_append_of_allBlank blankRight,
        trimStart_of_head (by simp; decide)]

theorem afterWord?_suffix {text word rest : Text} (found : afterWord? text word = some rest) :
    rest <:+ text ∧ rest.length < text.length := by
  obtain ⟨c, after, -, rfl, rfl⟩ := afterWord?_eq_some_iff.1 found
  have inner : trimStart after <:+ after := List.dropWhile_suffix isBlank
  refine ⟨inner.trans ?_, ?_⟩
  · exact (List.suffix_cons c after).trans (List.suffix_append word _)
  · have shorter := inner.length_le
    simp only [List.length_append, List.length_cons]
    omega

theorem afterThunk?_suffix {text rest : Text} (found : afterThunk? text = some rest) :
    rest <:+ text ∧ rest.length < text.length := by
  obtain ⟨left, right, after, -, -, rfl, rfl⟩ := afterThunk?_eq_some_iff.1 found
  have inner : trimStart after <:+ after := List.dropWhile_suffix isBlank
  refine ⟨inner.trans (List.suffix_append _ after), ?_⟩
  have shorter := inner.length_le
  simp only [List.length_append, List.length_cons]
  omega

/-- A step that may drop something leaves a text alone exactly when it finds nothing. -/
theorem getD_eq_self_iff {text : Text} {found : Option Text}
    (shorter : ∀ rest, found = some rest → rest <:+ text ∧ rest.length < text.length) :
    found.getD text <:+ text ∧ (found.getD text = text ↔ found = none) := by
  cases found with
  | none => simp
  | some rest =>
      obtain ⟨inner, fewer⟩ := shorter rest rfl
      refine ⟨inner, ?_⟩
      simp only [Option.getD_some, reduceCtorEq, iff_false]
      rintro rfl
      exact Nat.lt_irrefl _ fewer

theorem dropAccess_eq_self_iff (text : Text) :
    dropAccess text <:+ text ∧
      (dropAccess text = text ↔ ∀ word ∈ accessSpecifiers, afterWord? text word = none) := by
  rw [← List.findSome?_eq_none_iff]
  refine getD_eq_self_iff fun rest found => ?_
  obtain ⟨word, -, found⟩ := List.exists_of_findSome?_eq_some found
  exact afterWord?_suffix found

theorem dropWord_eq_self_iff (word text : Text) :
    dropWord word text <:+ text ∧ (dropWord word text = text ↔ afterWord? text word = none) :=
  getD_eq_self_iff fun _ found => afterWord?_suffix found

theorem dropThunk_eq_self_iff (text : Text) :
    dropThunk text <:+ text ∧ (dropThunk text = text ↔ afterThunk? text = none) :=
  getD_eq_self_iff fun _ found => afterThunk?_suffix found

/-! ## What all steps drop -/

theorem dropModifiers_suffix (text : Text) : dropModifiers text <:+ text :=
  ((dropThunk_eq_self_iff _).1.trans (dropWord_eq_self_iff _ _).1).trans
    ((dropWord_eq_self_iff _ _).1.trans (dropAccess_eq_self_iff text).1)

theorem afterWord?_eq_none_iff {text word : Text} :
    afterWord? text word = none ↔ ∀ c, isBlank c = true → ¬ word ++ [c] <+: text := by
  rw [Option.eq_none_iff_forall_ne_some]
  constructor
  · rintro none c blank ⟨after, rfl⟩
    exact none _ (afterWord?_eq_some_iff.2 ⟨c, after, blank, by simp, rfl⟩)
  · intro none rest found
    obtain ⟨c, after, blank, rfl, -⟩ := afterWord?_eq_some_iff.1 found
    exact none c blank ⟨after, by simp⟩

theorem afterThunk?_eq_none_iff {text : Text} :
    afterThunk? text = none ↔ ∀ left right, AllBlank left → AllBlank right →
      ¬ '[' :: left ++ "thunk".toList ++ right ++ "]:".toList <+: text := by
  rw [Option.eq_none_iff_forall_ne_some]
  constructor
  · rintro none left right blankLeft blankRight ⟨after, rfl⟩
    exact none _ (afterThunk?_eq_some_iff.2 ⟨left, right, after, blankLeft, blankRight, rfl, rfl⟩)
  · intro none rest found
    obtain ⟨left, right, after, blankLeft, blankRight, rfl, -⟩ := afterThunk?_eq_some_iff.1 found
    exact none left right blankLeft blankRight (List.prefix_append _ after)

/-- All steps leave a text alone exactly when each of them does. -/
theorem dropModifiers_eq_self_iff_steps {text : Text} :
    dropModifiers text = text ↔
      (∀ word ∈ modifierWords, afterWord? text word = none) ∧ afterThunk? text = none := by
  obtain ⟨innerAccess, keepsAccess⟩ := dropAccess_eq_self_iff text
  obtain ⟨innerStatic, keepsStatic⟩ := dropWord_eq_self_iff "static".toList (dropAccess text)
  obtain ⟨innerVirtual, keepsVirtual⟩ :=
    dropWord_eq_self_iff "virtual".toList (dropWord "static".toList (dropAccess text))
  obtain ⟨innerThunk, keepsThunk⟩ :=
    dropThunk_eq_self_iff (dropWord "virtual".toList (dropWord "static".toList (dropAccess text)))
  have words : (∀ word ∈ modifierWords, afterWord? text word = none) ↔
      (∀ word ∈ accessSpecifiers, afterWord? text word = none) ∧
        afterWord? text "static".toList = none ∧ afterWord? text "virtual".toList = none := by
    simp [modifierWords, or_imp, forall_and]
  rw [words]
  constructor
  · -- The steps only ever shorten a text, so none of them may do so.
    intro keeps
    rw [dropModifiers] at keeps
    rw [keeps] at innerThunk
    have sameAccess : dropAccess text = text :=
      innerAccess.eq_of_length_le ((innerThunk.trans innerVirtual).trans innerStatic).length_le
    rw [sameAccess] at innerStatic innerVirtual innerThunk keepsStatic keepsVirtual keepsThunk keeps
    have sameStatic : dropWord "static".toList text = text :=
      innerStatic.eq_of_length_le (innerThunk.trans innerVirtual).length_le
    rw [sameStatic] at innerVirtual innerThunk keepsVirtual keepsThunk keeps
    have sameVirtual : dropWord "virtual".toList text = text :=
      innerVirtual.eq_of_length_le innerThunk.length_le
    rw [sameVirtual] at keepsThunk keeps
    exact ⟨⟨keepsAccess.1 sameAccess, keepsStatic.1 sameStatic, keepsVirtual.1 sameVirtual⟩,
      keepsThunk.1 keeps⟩
  · rintro ⟨⟨noAccess, noStatic, noVirtual⟩, noThunk⟩
    rw [dropModifiers, keepsAccess.2 noAccess, (dropWord_eq_self_iff _ _).2.2 noStatic,
      (dropWord_eq_self_iff _ _).2.2 noVirtual, (dropThunk_eq_self_iff _).2.2 noThunk]

/-- A text keeps its start exactly when no modifier stands there. -/
theorem dropModifiers_eq_self_iff {text : Text} :
    dropModifiers text = text ↔ ∀ modifier, Modifier modifier → ¬ modifier <+: text := by
  rw [dropModifiers_eq_self_iff_steps, afterThunk?_eq_none_iff]
  constructor
  · rintro ⟨noWord, noThunk⟩ modifier leading
    cases leading with
    | word listed blank => exact afterWord?_eq_none_iff.1 (noWord _ listed) _ blank
    | thunk blankLeft blankRight => exact noThunk _ _ blankLeft blankRight
  · intro free
    refine ⟨fun word listed => afterWord?_eq_none_iff.2 fun c blank => free _ (.word listed blank),
      fun left right blankLeft blankRight => free _ (.thunk blankLeft blankRight)⟩

/-! ## What a modifier holds -/

theorem isWord_of_mem_modifierWords : ∀ word ∈ modifierWords, IsWord word := by decide

/-- A modifier holds blanks, and characters of the listed words or of a thunk marker. -/
theorem Modifier.not_mem {modifier : Text} (isModifier : Modifier modifier) {c : Char}
    (bare : isBlank c = false) (noWord : ∀ word ∈ modifierWords, c ∉ word)
    (noMarker : c ∉ "[thunk]:".toList) : c ∉ modifier := by
  cases isModifier with
  | @word word d listed blank =>
      have single : AllBlank [d] := allBlank_cons.2 ⟨blank, allBlank_nil⟩
      exact List.not_mem_append (noWord word listed) (single.not_mem bare)
  | thunk blankLeft blankRight =>
      have cut : "[thunk]:".toList = '[' :: ("thunk".toList ++ "]:".toList) := rfl
      rw [cut, List.mem_cons, List.mem_append, not_or, not_or] at noMarker
      simp only [List.mem_append, List.mem_cons, not_or]
      exact ⟨⟨⟨⟨noMarker.1, blankLeft.not_mem bare⟩, noMarker.2.1⟩, blankRight.not_mem bare⟩,
        noMarker.2.2⟩

/-- What follows a closing parenthesis makes no modifier at the start of a text. -/
theorem dropModifiers_append_of_mem {text : Text} (inside : ')' ∈ text)
    (unmodified : dropModifiers text = text) (tail : Text) :
    dropModifiers (text ++ tail) = text ++ tail := by
  rw [dropModifiers_eq_self_iff] at unmodified ⊢
  intro modifier isModifier leading
  rcases Nat.le_total modifier.length text.length with shorter | longer
  · exact unmodified modifier isModifier
      (List.prefix_of_prefix_length_le leading (List.prefix_append text tail) shorter)
  · have within := List.prefix_of_prefix_length_le (List.prefix_append text tail) leading longer
    exact isModifier.not_mem (by decide) (by decide) (by decide) (within.subset inside)

/-! ## Modifiers in front of a token -/

/-- A modifier that reaches past the blank behind a text is that text and the blank. -/
theorem mem_modifierWords_of_modifier {front more run tail : Text} {c : Char}
    (modifier : Modifier (front ++ more)) (nonempty : more ≠ [])
    (leading : more <+: c :: run ++ tail) (blank : AllBlank (c :: run))
    (foreign : ∀ d ∈ tail.head?, d = '_') : front ∈ modifierWords := by
  obtain ⟨first, more, rfl⟩ := List.exists_cons_of_ne_nil nonempty
  obtain ⟨rfl, leadingMore⟩ := List.cons_prefix_cons.1 leading
  generalize whole : front ++ first :: more = text at modifier
  have noUnderscore : '_' ∉ text := modifier.not_mem (by decide) (by decide) (by decide)
  cases modifier with
  | @word word d listed _ =>
      rcases List.eq_nil_or_concat more with rfl | ⟨between, e, rfl⟩
      · obtain ⟨rfl, -⟩ := List.append_inj' whole rfl
        exact listed
      · -- The blank would lie inside the word.
        have cut : front ++ first :: between ++ [e] = word ++ [d] := by simpa using whole
        obtain ⟨rfl, -⟩ := List.append_inj' cut rfl
        have bare := (isWord_of_mem_modifierWords _ listed).solid first (by simp)
        simp [(allBlank_cons.1 blank).1] at bare
  | thunk blankLeft blankRight =>
      have colon : ':' ∈ first :: more := by
        have last := congrArg List.getLast? whole
        rw [List.getLast?_append_cons, List.getLast?_append] at last
        exact List.mem_of_getLast? last
      rw [← whole] at noUnderscore
      have notBlank : ':' ∉ first :: run := blank.not_mem (by decide)
      -- The colon at the end lies behind the blanks, and an underscore comes before it.
      rcases Nat.le_total (first :: more).length (first :: run).length with shorter | longer
      · have within := List.prefix_of_prefix_length_le leading (List.prefix_append _ tail) shorter
        exact absurd (within.subset colon) notBlank
      · obtain ⟨rest, equal⟩ :=
          List.prefix_of_prefix_length_le (List.prefix_append _ tail) leading longer
        rw [← equal, List.prefix_append_right_inj] at leading
        cases rest with
        | nil =>
            rw [List.append_nil] at equal
            exact absurd (equal ▸ colon) notBlank
        | cons d rest =>
            obtain ⟨after, rfl⟩ := leading
            obtain rfl : d = '_' := foreign d rfl
            rw [← equal] at noUnderscore
            exact absurd (by simp) noUnderscore

/-- Whether a modifier starts a text that is cut at a blank, with a token or nothing
behind the blanks, can be told from the text before the cut. -/
theorem dropModifiers_append_eq_self_iff {front run tail : Text} {c : Char}
    (blank : AllBlank (c :: run)) (foreign : ∀ d ∈ tail.head?, d = '_') :
    dropModifiers (front ++ (c :: run ++ tail)) = front ++ (c :: run ++ tail) ↔
      front ∉ modifierWords ∧ ∀ modifier, Modifier modifier → ¬ modifier <+: front := by
  rw [dropModifiers_eq_self_iff]
  constructor
  · intro free
    refine ⟨fun listed => free _ (.word listed (allBlank_cons.1 blank).1) ?_, ?_⟩
    · exact ⟨run ++ tail, by simp⟩
    · exact fun modifier isModifier leading =>
        free modifier isModifier (leading.trans (List.prefix_append front _))
  · rintro ⟨notWord, free⟩ modifier isModifier leading
    rcases Nat.le_total modifier.length front.length with shorter | longer
    · exact free modifier isModifier
        (List.prefix_of_prefix_length_le leading (List.prefix_append front _) shorter)
    · obtain ⟨more, rfl⟩ :=
        List.prefix_of_prefix_length_le (List.prefix_append front _) leading longer
      rw [List.prefix_append_right_inj] at leading
      rcases List.eq_nil_or_concat more with rfl | nonempty
      · exact free _ isModifier (by simp)
      · refine notWord (mem_modifierWords_of_modifier isModifier ?_ leading blank foreign)
        obtain ⟨between, d, rfl⟩ := nonempty
        simp

theorem dropModifiers_append_blank_iff {front : Text} :
    dropModifiers (front ++ [' ']) = front ++ [' '] ↔
      front ∉ modifierWords ∧ ∀ modifier, Modifier modifier → ¬ modifier <+: front :=
  @dropModifiers_append_eq_self_iff front [] [] ' ' (by decide) (by simp)

/-- A single blank behind a text tells what any blanks before an underscore tell. -/
theorem dropModifiers_append_iff_append_blank {front run tail : Text} (blank : AllBlank run)
    (nonempty : run ≠ []) (foreign : ∀ d ∈ tail.head?, d = '_') :
    dropModifiers (front ++ run ++ tail) = front ++ run ++ tail ↔
      dropModifiers (front ++ [' ']) = front ++ [' '] := by
  obtain ⟨c, run, rfl⟩ := List.exists_cons_of_ne_nil nonempty
  rw [List.append_assoc, dropModifiers_append_eq_self_iff blank foreign,
    dropModifiers_append_blank_iff]

end Signature

end SignatureExport
