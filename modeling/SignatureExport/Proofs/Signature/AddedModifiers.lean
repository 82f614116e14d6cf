import SignatureExport.Proofs.Signature.Group
import SignatureExport.Proofs.Signature.LeadingModifier

/-!
# Modifiers around a signature

Modifiers in front of a signature and qualifiers behind it say nothing about its
fields.  `LeadingModifiers` lists the modifiers in the order in which the parser drops
them.  It drops all of them and stops where the signature starts
(`dropModifiers_append`), and the qualifiers stand behind the parenthesis that ends the
signature.  So a signature is read alike with and without them (`parse?_around`).

Blanks between the modifiers and the signature are dropped with the last modifier, and
if there is none, with the blanks at the start of the text.
-/

namespace SignatureExport

namespace Signature

open Text

/-- One of some words with blanks behind it, or nothing. -/
inductive OptionalWord (words : List Text) : Text → Prop where
  | none : OptionalWord words []
  | word {word blanks : Text} : word ∈ words → AllBlank blanks → blanks ≠ [] →
      OptionalWord words (word ++ blanks)

/-- A thunk marker with any blanks inside its brackets and behind it, or nothing. -/
inductive OptionalThunk : Text → Prop where
  | none : OptionalThunk []
  | marker {left right blanks : Text} : AllBlank left → AllBlank right → AllBlank blanks →
      OptionalThunk ('[' :: left ++ "thunk".toList ++ right ++ "]:".toList ++ blanks)

/-- The modifiers that can stand in front of a signature, each of them optional. -/
inductive LeadingModifiers : Text → Prop where
  | ordered {access static virtual thunk : Text} : OptionalWord accessSpecifiers access →
      OptionalWord ["static".toList] static → OptionalWord ["virtual".toList] virtual →
      OptionalThunk thunk → LeadingModifiers (access ++ static ++ virtual ++ thunk)

/-! ## One modifier -/

/-- Behind a word with blanks, no other word is found. -/
theorem afterWord?_first {word blanks text other rest : Text} (solid : IsWord word)
    (blank : AllBlank blanks) (nonempty : blanks ≠ []) (otherSolid : IsWord other)
    (found : afterWord? (word ++ blanks ++ text) other = some rest) :
    other = word ∧ rest = trimStart text := by
  obtain ⟨c, after, blankFirst, equal, rfl⟩ := afterWord?_eq_some_iff.1 found
  obtain ⟨d, run, rfl⟩ := List.exists_cons_of_ne_nil nonempty
  obtain ⟨blankRun, -⟩ := allBlank_cons.1 blank
  have firstWords : words (word ++ (d :: run ++ text)) = words (other ++ c :: after) := by
    rw [← equal, List.append_assoc]
  rw [words_append solid (by simpa [EndsWord] using blankRun),
    words_append otherSolid (by simpa [EndsWord] using blankFirst)] at firstWords
  obtain ⟨rfl, -⟩ := List.cons.inj firstWords
  rw [List.append_assoc] at equal
  have behind : d :: run ++ text = c :: after := List.append_cancel_left equal
  refine ⟨rfl, ?_⟩
  have single : AllBlank [c] := allBlank_cons.2 ⟨blankFirst, allBlank_nil⟩
  rw [← trimStart_append_of_allBlank single after, List.singleton_append, ← behind,
    trimStart_append_of_allBlank blank]

/-- An optional word is dropped, if none of the words follows it. -/
theorem getD_findSome?_append {words : List Text} {piece text : Text}
    (solid : ∀ word ∈ words, IsWord word) (optional : OptionalWord words piece)
    (bare : ∀ c ∈ text.head?, isBlank c = false)
    (absent : ∀ word ∈ words, afterWord? text word = none) :
    (words.findSome? (afterWord? (piece ++ text))).getD (piece ++ text) = text := by
  cases optional with
  | none => rw [List.nil_append, List.findSome?_eq_none_iff.2 absent, Option.getD_none]
  | @word word blanks listed blank nonempty =>
      have own : afterWord? (word ++ blanks ++ text) word = some text := by
        obtain ⟨c, run, rfl⟩ := List.exists_cons_of_ne_nil nonempty
        obtain ⟨blankFirst, blankRun⟩ := allBlank_cons.1 blank
        refine afterWord?_eq_some_iff.2 ⟨c, run ++ text, blankFirst, by simp, ?_⟩
        rw [trimStart_append_of_allBlank blankRun, trimStart_of_head bare]
      cases found : words.findSome? (afterWord? (word ++ blanks ++ text)) with
      | none =>
          rw [List.findSome?_eq_none_iff.1 found word listed] at own
          cases own
      | some rest =>
          obtain ⟨other, otherListed, reads⟩ := List.exists_of_findSome?_eq_some found
          obtain ⟨-, rfl⟩ :=
            afterWord?_first (solid word listed) blank nonempty (solid other otherListed) reads
          rw [Option.getD_some, trimStart_of_head bare]

theorem dropAccess_append {piece text : Text} (optional : OptionalWord accessSpecifiers piece)
    (bare : ∀ c ∈ text.head?, isBlank c = false)
    (absent : ∀ word ∈ accessSpecifiers, afterWord? text word = none) :
    dropAccess (piece ++ text) = text :=
  getD_findSome?_append (by decide) optional bare absent

theorem dropWord_append {word piece text : Text} (solid : IsWord word)
    (optional : OptionalWord [word] piece) (bare : ∀ c ∈ text.head?, isBlank c = false)
    (absent : afterWord? text word = none) : dropWord word (piece ++ text) = text := by
  have dropped := getD_findSome?_append (by simpa using solid) optional bare (by simpa using absent)
  rwa [List.findSome?_singleton] at dropped

theorem dropThunk_append {piece text : Text} (optional : OptionalThunk piece)
    (bare : ∀ c ∈ text.head?, isBlank c = false) (absent : afterThunk? text = none) :
    dropThunk (piece ++ text) = text := by
  cases optional with
  | none => exact (dropThunk_eq_self_iff text).2.2 absent
  | @marker left right blanks blankLeft blankRight blank =>
      have found : afterThunk? ('[' :: left ++ "thunk".toList ++ right ++ "]:".toList ++ blanks ++
          text) = some text := by
        refine afterThunk?_eq_some_iff.2 ⟨left, right, blanks ++ text, blankLeft, blankRight,
          by simp, ?_⟩
        rw [trimStart_append_of_allBlank blank, trimStart_of_head bare]
      rw [dropThunk, found, Option.getD_some]

/-! ## What is looked for in front of later modifiers -/

section InFront

variable {piece text : Text}

theorem head_optionalWord_append {words : List Text} (solid : ∀ word ∈ words, IsWord word)
    (optional : OptionalWord words piece) (bare : ∀ c ∈ text.head?, isBlank c = false) :
    ∀ c ∈ (piece ++ text).head?, isBlank c = false := by
  cases optional with
  | none => exact bare
  | @word word blanks listed _ _ =>
      obtain ⟨nonempty, noBlank⟩ := solid word listed
      obtain ⟨c, more, rfl⟩ := List.exists_cons_of_ne_nil nonempty
      simpa using noBlank c List.mem_cons_self

theorem head_optionalThunk_append (optional : OptionalThunk piece)
    (bare : ∀ c ∈ text.head?, isBlank c = false) :
    ∀ c ∈ (piece ++ text).head?, isBlank c = false := by
  cases optional with
  | none => exact bare
  | marker =>
      simp only [List.cons_append, List.head?_cons, Option.mem_some_iff, forall_eq']
      decide

theorem afterWord?_optionalWord_append {words : List Text} {word : Text}
    (solid : ∀ word ∈ words, IsWord word) (optional : OptionalWord words piece)
    (wordSolid : IsWord word) (other : word ∉ words) (absent : afterWord? text word = none) :
    afterWord? (piece ++ text) word = none := by
  cases optional with
  | none => exact absent
  | @word first blanks listed blank nonempty =>
      cases found : afterWord? (first ++ blanks ++ text) word with
      | none => rfl
      | some rest =>
          obtain ⟨rfl, -⟩ :=
            afterWord?_first (solid first listed) blank nonempty wordSolid found
          exact absurd listed other

theorem afterWord?_optionalThunk_append {word : Text} (optional : OptionalThunk piece)
    (listed : word ∈ modifierWords) (absent : afterWord? text word = none) :
    afterWord? (piece ++ text) word = none := by
  have noBracket : ∀ word ∈ modifierWords, '[' ∉ word := by decide
  cases optional with
  | none => exact absent
  | marker =>
      obtain ⟨d, more, rfl⟩ :=
        List.exists_cons_of_ne_nil (isWord_of_mem_modifierWords _ listed).nonempty
      rw [afterWord?_eq_none_iff]
      rintro c - ⟨after, equal⟩
      obtain rfl : d = '[' := (List.cons.inj equal).1
      exact noBracket _ listed List.mem_cons_self

end InFront

/-! ## All modifiers -/

/-- All modifiers in front of a text are dropped, and nothing else. -/
theorem dropModifiers_append {front text : Text} (modifiers : LeadingModifiers front)
    (bare : ∀ c ∈ text.head?, isBlank c = false) (unmodified : dropModifiers text = text) :
    dropModifiers (front ++ text) = text := by
  obtain ⟨noWord, noThunk⟩ := dropModifiers_eq_self_iff_steps.1 unmodified
  have staticWord : ∀ word ∈ ["static".toList], IsWord word := by decide
  have virtualWord : ∀ word ∈ ["virtual".toList], IsWord word := by decide
  cases modifiers with
  | @ordered access static virtual thunk isAccess isStatic isVirtual isThunk =>
      have bareThunk := head_optionalThunk_append isThunk bare
      have bareVirtual := head_optionalWord_append virtualWord isVirtual bareThunk
      have bareStatic := head_optionalWord_append staticWord isStatic bareVirtual
      -- a word that is looked for is not found in front of what comes behind it
      have atThunk : ∀ word ∈ modifierWords, afterWord? (thunk ++ text) word = none :=
        fun word listed => afterWord?_optionalThunk_append isThunk listed (noWord word listed)
      have atVirtual : ∀ word ∈ modifierWords, word ∉ ["virtual".toList] →
          afterWord? (virtual ++ (thunk ++ text)) word = none := fun word listed other =>
        afterWord?_optionalWord_append virtualWord isVirtual
          (isWord_of_mem_modifierWords word listed) other (atThunk word listed)
      have others : ∀ word ∈ accessSpecifiers,
          word ∉ ["static".toList] ∧ word ∉ ["virtual".toList] := by decide
      have atStatic : ∀ word ∈ accessSpecifiers,
          afterWord? (static ++ (virtual ++ (thunk ++ text))) word = none := by
        intro word isSpecifier
        obtain ⟨notStatic, notVirtual⟩ := others word isSpecifier
        have listed : word ∈ modifierWords := List.mem_append_left _ isSpecifier
        exact afterWord?_optionalWord_append staticWord isStatic
          (isWord_of_mem_modifierWords word listed) notStatic (atVirtual word listed notVirtual)
      rw [List.append_assoc, List.append_assoc, List.append_assoc, dropModifiers,
        dropAccess_append isAccess bareStatic atStatic,
        dropWord_append (by decide) isStatic bareVirtual (atVirtual _ (by decide) (by decide)),
        dropWord_append (by decide) isVirtual bareThunk (atThunk _ (by decide)),
        dropThunk_append isThunk bare noThunk]

theorem OptionalWord.append {words : List Text} {piece blanks : Text}
    (optional : OptionalWord words piece) (nonempty : piece ≠ []) (blank : AllBlank blanks) :
    OptionalWord words (piece ++ blanks) := by
  cases optional with
  | none => exact absurd rfl nonempty
  | word listed inner present =>
      rw [List.append_assoc]
      exact .word listed (allBlank_append.2 ⟨inner, blank⟩)
        (List.append_ne_nil_of_left_ne_nil present _)

theorem OptionalThunk.append {piece blanks : Text} (optional : OptionalThunk piece)
    (nonempty : piece ≠ []) (blank : AllBlank blanks) : OptionalThunk (piece ++ blanks) := by
  cases optional with
  | none => exact absurd rfl nonempty
  | marker left right inner =>
      rw [List.append_assoc]
      exact .marker left right (allBlank_append.2 ⟨inner, blank⟩)

/-- Blanks behind some modifiers belong to the last of them. -/
theorem LeadingModifiers.append {front blanks : Text} (modifiers : LeadingModifiers front)
    (nonempty : front ≠ []) (blank : AllBlank blanks) : LeadingModifiers (front ++ blanks) := by
  cases modifiers with
  | @ordered access static virtual thunk isAccess isStatic isVirtual isThunk =>
      by_cases noThunk : thunk = []
      · by_cases noVirtual : virtual = []
        · by_cases noStatic : static = []
          · have isLast : access ≠ [] := by
              rintro rfl
              exact nonempty (by simp [noStatic, noVirtual, noThunk])
            have longer := LeadingModifiers.ordered (isAccess.append isLast blank) isStatic
              isVirtual isThunk
            simpa [noStatic, noVirtual, noThunk] using longer
          · have longer := LeadingModifiers.ordered isAccess (isStatic.append noStatic blank)
              isVirtual isThunk
            simpa [noVirtual, noThunk] using longer
        · have longer := LeadingModifiers.ordered isAccess isStatic
            (isVirtual.append noVirtual blank) isThunk
          simpa [noThunk] using longer
      · have longer := LeadingModifiers.ordered isAccess isStatic isVirtual
          (isThunk.append noThunk blank)
        simpa using longer

theorem LeadingModifiers.head_append {front text : Text} (modifiers : LeadingModifiers front)
    (bare : ∀ c ∈ text.head?, isBlank c = false) :
    ∀ c ∈ (front ++ text).head?, isBlank c = false := by
  cases modifiers with
  | ordered isAccess isStatic isVirtual isThunk =>
      rw [List.append_assoc, List.append_assoc, List.append_assoc]
      exact head_optionalWord_append (by decide) isAccess (head_optionalWord_append (by decide)
        isStatic (head_optionalWord_append (by decide) isVirtual
          (head_optionalThunk_append isThunk bare)))

/-! ## A signature with modifiers around it -/

/-- What follows a trimmed text, with the blanks at its end dropped, leaves it trimmed. -/
theorem isTrimmed_append_trimEnd {text : Text} (trimmed : IsTrimmed text) (nonempty : text ≠ [])
    (tail : Text) : IsTrimmed (text ++ trimEnd tail) := by
  obtain ⟨c, rest, rfl⟩ := List.exists_cons_of_ne_nil nonempty
  refine ⟨by simpa using trimmed.head, ?_⟩
  intro d last
  rw [List.getLast?_append, Option.mem_def, Option.or_eq_some_iff] at last
  rcases last with last | ⟨-, last⟩
  · exact last_trimEnd tail d last
  · exact trimmed.last d last

/-- The body of a signature with modifiers in front and qualifiers behind is the
signature with qualifiers behind. -/
theorem exists_body_around {front text tail : Text} (modifiers : LeadingModifiers front)
    (qualifiers : QualifierTail tail) (ends : text.trim.getLast? = some ')')
    (unmodified : dropModifiers text.trim = text.trim) :
    ∃ behind, QualifierTail behind ∧ body (front ++ text ++ tail) = text.trim ++ behind := by
  obtain ⟨left, right, blankLeft, blankRight, equal⟩ := exists_trim text
  obtain ⟨back, blankBack, cut⟩ := exists_trimEnd (right ++ tail)
  have allowed : QualifierTail (trimEnd (right ++ tail)) := by
    rw [← qualifierTail_append_iff blankBack, ← cut, qualifierTail_iff_words,
      words_append_of_allBlank blankRight, ← qualifierTail_iff_words]
    exact qualifiers
  refine ⟨trimEnd (right ++ tail), allowed, ?_⟩
  have inside : ')' ∈ text.trim := List.mem_of_getLast? ends
  have core := dropModifiers_append_of_mem inside unmodified (trimEnd (right ++ tail))
  have trimmed : IsTrimmed (text.trim ++ trimEnd (right ++ tail)) :=
    isTrimmed_append_trimEnd (isTrimmed_trim text) (List.ne_nil_of_mem inside) (right ++ tail)
  have whole : front ++ text ++ tail
      = front ++ left ++ (text.trim ++ trimEnd (right ++ tail)) ++ back := by
    conv => lhs; rw [equal, List.append_assoc, List.append_assoc _ right tail, cut]
    simp
  rw [whole, body]
  by_cases empty : front = []
  · rw [empty, List.nil_append, trim_of_isTrimmed blankLeft trimmed blankBack, core]
  · have more := modifiers.append empty blankLeft
    have trimmedMore : IsTrimmed (front ++ left ++ (text.trim ++ trimEnd (right ++ tail))) := by
      refine ⟨more.head_append trimmed.head, ?_⟩
      rw [List.getLast?_append_of_ne_nil _ (by simp [List.ne_nil_of_mem inside])]
      exact trimmed.last
    rw [← List.nil_append (front ++ left ++ _),
      trim_of_isTrimmed allBlank_nil trimmedMore blankBack,
      dropModifiers_append more trimmed.head core]

/-- A signature is read alike, or refused alike, with modifiers in front of it and
qualifiers behind it. -/
theorem parse?_around {front text tail : Text} (modifiers : LeadingModifiers front)
    (qualifiers : QualifierTail tail) (ends : text.trim.getLast? = some ')')
    (unmodified : dropModifiers text.trim = text.trim) :
    parse? (front ++ text ++ tail) = parse? text := by
  obtain ⟨behind, allowed, around⟩ := exists_body_around modifiers qualifiers ends unmodified
  have kept : dropQualifiers? (text.trim ++ behind) = some text.trim :=
    dropQualifiers?_eq_some_iff.2 ⟨behind, rfl, ends, allowed⟩
  have keptAlone : dropQualifiers? text.trim = some text.trim :=
    dropQualifiers?_eq_some_iff.2 ⟨[], by simp, ends, qualifierTail_of_allBlank allBlank_nil⟩
  rw [parse?_eq_bind, parse?_eq_bind, around, kept, body, unmodified, keptAlone]

/-- A virtual function with every modifier but `static`, and with both qualifiers. -/
theorem parse?_around_virtual :
    parse? ("public: virtual [ thunk ]:\t".toList ++ " int __cdecl A::f(int) ".toList ++
      " const\tvolatile ".toList) = parse? " int __cdecl A::f(int) ".toList :=
  have access : OptionalWord accessSpecifiers ("public:".toList ++ [' ']) :=
    .word (by decide) (by decide) (by decide)
  have virtual : OptionalWord ["virtual".toList] ("virtual".toList ++ [' ']) :=
    .word (by decide) (by decide) (by decide)
  have thunk : OptionalThunk ('[' :: [' '] ++ "thunk".toList ++ [' '] ++ "]:".toList ++ ['\t']) :=
    .marker (by decide) (by decide) (by decide)
  have modifiers : LeadingModifiers "public: virtual [ thunk ]:\t".toList :=
    .ordered access .none virtual thunk
  have qualifiers : QualifierTail " const\tvolatile ".toList :=
    qualifierTail_iff_words.2 (by decide)
  parse?_around modifiers qualifiers (by decide) (by decide)

end Signature

end SignatureExport
