import SignatureExport.Proofs.Signature.Layout

/-!
# Reading a signature again

A signature that was read can be written out and read again.  This gives the same
signature unless the second reading takes a modifier off the return type, cuts the
key at another place than the first, or takes a lone argument `void` for none.
`parse?_text_iff` states that nothing else goes wrong.

A return type that was written may hold tokens.  They are anchors of both texts,
and whether a name stands behind them does not depend on the layout.
-/

namespace SignatureExport

namespace Signature

open Text
open QualifiedName (ofText? isClassChar)
open ArgumentList (IsArgument)
open Anchor (StandsAlone startsBlank)

/-! ## Return types -/

/-- A return type that was not written is a single word, and no modifier or token. -/
theorem Returns.solid {name : QualifiedName} {returnType : Text}
    (returns : Returns name [] returnType)
    (classChars : ∀ c ∈ name.className, isClassChar c = true) :
    IsWord returnType ∧ '[' ∉ returnType ∧ returnType ∉ modifierWords ∧
      ∀ convention : CallingConvention, convention.token ≠ returnType := by
  cases returns with
  | written nonempty => exact absurd rfl nonempty
  | constructor _ inClass _ =>
      have star : '*' ∈ name.className ++ ['*'] := by simp
      refine ⟨⟨by simp, ?_⟩, ?_, ?_, ?_⟩
      · intro c inside
        rcases List.mem_append.1 inside with listed | listed
        · exact QualifiedName.isBlank_of_isClassChar (classChars c listed)
        · obtain rfl := List.mem_singleton.1 listed
          decide
      · intro inside
        rcases List.mem_append.1 inside with listed | listed
        · exact absurd (classChars _ listed) (by decide)
        · exact absurd listed (by decide)
      · intro listed
        have noStar : ∀ word ∈ modifierWords, '*' ∉ word := by decide
        exact noStar _ listed star
      · intro convention same
        have noStar : '*' ∉ convention.token := by cases convention <;> decide
        exact noStar (same ▸ star)
  | nothing _ _ =>
      refine ⟨by decide, by decide, by decide, ?_⟩
      intro convention
      cases convention <;> decide

theorem isTrimmed_of_isWord {word : Text} (solid : IsWord word) : IsTrimmed word where
  head := fun c first => solid.solid c (List.mem_of_mem_head? first)
  last := fun c last => solid.solid c (List.mem_of_mem_getLast? last)

/-- A return type has a character and no blank at its ends. -/
theorem Returns.trimmed {name : QualifiedName} {written returnType : Text}
    (returns : Returns name written.trim returnType)
    (classChars : ∀ c ∈ name.className, isClassChar c = true) :
    returnType ≠ [] ∧ returnType.trim = returnType := by
  by_cases empty : written.trim = []
  · rw [empty] at returns
    obtain ⟨isWord, -⟩ := returns.solid classChars
    exact ⟨isWord.nonempty, (isTrimmed_of_isWord isWord).trim_eq⟩
  · rw [← returns.eq_written empty]
    exact ⟨empty, trim_trim written⟩

/-- No modifier starts a single word that is none. -/
theorem dropModifiers_of_isWord {word : Text} (solid : IsWord word) (noBracket : '[' ∉ word)
    (other : word ∉ modifierWords) : dropModifiers (word ++ [' ']) = word ++ [' '] := by
  rw [dropModifiers_append_blank_iff]
  refine ⟨other, ?_⟩
  intro modifier isModifier leading
  cases isModifier with
  | @word found c listed blank =>
      have inside : c ∈ word := leading.subset (by simp)
      simp [solid.solid c inside] at blank
  | thunk _ _ => exact noBracket (leading.subset (by simp))

/-! ## What was read -/

/-- All conditions for reading a signature again but three hold of one that was read. -/
theorem readable_of_parts {signature : Signature} {inside : Text} {anchor : Anchor}
    (nested : Nested ArgumentList.maxNesting inside)
    (fields : ofAnchor? inside anchor = some signature)
    (unmodified : dropModifiers (signature.returnType ++ [' ']) = signature.returnType ++ [' '])
    (named : ofText? signature.key = some signature.name)
    (notVoid : signature.arguments ≠ ["void".toList]) : Readable signature := by
  obtain ⟨spells, -, returns, arguments⟩ := ofAnchor?_eq_some_iff.1 fields
  obtain ⟨written, trimmed⟩ := returns.trimmed (QualifiedName.isClassChar_of_ofText? spells)
  refine ⟨written, trimmed, unmodified, named, ?_, notVoid⟩
  rw [arguments]
  exact fun argument listed => ArgumentList.isArgument_of_mem_ofText nested listed

/-- A token inside the return type with no name behind it has none either once the
signature is written out. -/
theorem ofText?_reread {tail run after : Text} {convention : CallingConvention}
    {name : QualifiedName} (blank : AllBlank run) (nonempty : run ≠ [])
    (stop : startsBlank after = true) (spells : ofText? after = some name)
    (named : ofText? name.key = some name)
    (fails : ofText? (tail ++ run ++ (convention.token ++ after)) = none) :
    ofText? (tail ++ [' '] ++ (convention.token ++ ' ' :: name.key)) = none := by
  have space : AllBlank [' '] := by decide
  have solid := convention.isWord_token
  have bare (front : Text) : (front ++ convention.token).trim ≠ [] := by
    obtain ⟨c, rest, token⟩ := List.exists_cons_of_ne_nil solid.nonempty
    intro empty
    have blanks := trim_eq_nil_iff.1 empty c (by simp [token])
    simp [solid.solid c (by simp [token])] at blanks
  have key : trim (' ' :: name.key) = name.key := by
    rw [← List.singleton_append, trim_append_of_allBlank_left space]
    exact (QualifiedName.isTrimmed_key spells).trim_eq
  have spellsKey : ofText? (' ' :: name.key) = some name := by
    rw [← named]
    exact QualifiedName.ofText?_congr (by rw [key, (QualifiedName.isTrimmed_key spells).trim_eq])
  obtain ⟨c, rest, starts, blankStart⟩ := Anchor.startsBlank_iff.1 stop
  rw [← List.append_assoc, QualifiedName.ofText?_append_eq_none_iff (bare _)
    ⟨c, by simp [starts], blankStart⟩ (QualifiedName.trim_nonempty_of_ofText? spells)
    (QualifiedName.hasOwnParentheses_of_ofText? spells),
    QualifiedName.hasOwnParentheses_append_run blank nonempty] at fails
  rw [← List.append_assoc, QualifiedName.ofText?_append_eq_none_iff (bare _)
    ⟨' ', rfl, by decide⟩ (QualifiedName.trim_nonempty_of_ofText? spellsKey)
    (QualifiedName.hasOwnParentheses_of_ofText? spellsKey),
    QualifiedName.hasOwnParentheses_append_run space (by decide), key]
  exact fails.imp_left (QualifiedName.scopeMark_suffix_key spells)

/-- A token that stands alone in a text does so with blanks around the text. -/
theorem standsAlone_between {front before rest run : Text} (blankFront : AllBlank front)
    (start : StartsWord before) (boundary : EndsWord rest) (blankRun : AllBlank run)
    (nonempty : run ≠ []) (after : Text) :
    StandsAlone (front ++ before) (rest ++ run ++ after) := by
  refine ⟨?_, ?_⟩
  · by_cases empty : before = []
    · rw [empty, List.append_nil]
      exact blankFront.startsWord
    · rwa [StartsWord, List.getLast?_append_of_ne_nil front empty]
  · rw [Anchor.startsBlank_iff]
    cases rest with
    | nil =>
        obtain ⟨c, more, rfl⟩ := List.exists_cons_of_ne_nil nonempty
        exact ⟨c, more ++ after, rfl, (allBlank_cons.1 blankRun).1⟩
    | cons c rest => exact ⟨c, rest ++ run ++ after, rfl, boundary c rfl⟩

/-- A token in the text before an anchor is an anchor too, further left. -/
theorem exists_anchor_before {anchor : Anchor} {before rest : Text}
    {convention : CallingConvention} (alone : StandsAlone anchor.before anchor.after)
    (inside : anchor.before.trim = before ++ convention.token ++ rest) (start : StartsWord before)
    (boundary : EndsWord rest) :
    ∃ (earlier : Anchor) (run : Text), earlier.text = anchor.text ∧
      StandsAlone earlier.before earlier.after ∧ earlier.before.length < anchor.before.length ∧
      AllBlank run ∧ run ≠ [] ∧
      earlier.after = rest ++ run ++ (anchor.convention.token ++ anchor.after) := by
  have nonempty : anchor.before.trim ≠ [] := by
    simp [inside, convention.isWord_token.nonempty]
  obtain ⟨front, run, blankFront, blankRun, apart, equal⟩ := alone.start.exists_trim nonempty
  rw [inside] at equal
  let earlier : Anchor := ⟨convention, (front ++ before).reverse,
    rest ++ run ++ (anchor.convention.token ++ anchor.after)⟩
  have earlierBefore : earlier.before = front ++ before := List.reverse_reverse _
  refine ⟨earlier, run, ?_, ?_, ?_, blankRun, apart, rfl⟩
  · rw [Anchor.text, earlierBefore, Anchor.text, equal]
    simp [earlier]
  · rw [earlierBefore]
    exact standsAlone_between blankFront start boundary blankRun apart _
  · have positive := List.length_pos_of_ne_nil apart
    rw [earlierBefore, equal]
    simp only [List.length_append]
    omega

/-- A readable signature that was read is read again. -/
theorem parse?_text_of_readable {text : Text} {signature : Signature}
    (parsed : parse? text = some signature) (readable : Readable signature) :
    parse? signature.text = some signature := by
  obtain ⟨head, inside, tail, anchor, group, rfl, alone, fields, fails⟩ :=
    parse?_eq_some_iff_parts.1 parsed
  obtain ⟨spells, sameConvention, returns, -⟩ := ofAnchor?_eq_some_iff.1 fields
  rw [← Layout.text_plain]
  refine (Layout.plain signature).parse?_text readable ?_
  intro before convention rest written start boundary
  by_cases empty : anchor.before.trim = []
  · -- a return type that was not written has no token
    rw [empty] at returns
    obtain ⟨solid, -, -, noToken⟩ := returns.solid (QualifiedName.isClassChar_of_ofText? spells)
    have listed := mem_words start convention.isWord_token boundary
    rw [← written, words_of_isWord solid, List.mem_singleton] at listed
    exact absurd listed (noToken convention)
  · -- a token of one that was written has been tried before
    have inReturnType := (returns.eq_written empty).trans written
    obtain ⟨earlier, run, sameText, earlierAlone, shorter, blank, apart, after⟩ :=
      exists_anchor_before alone inReturnType start boundary
    have failed := fails earlier sameText earlierAlone shorter
    rw [after] at failed
    have again := ofText?_reread blank apart alone.stop spells readable.named failed
    rw [← sameConvention] at again
    simpa [Layout.plain, Layout.anchor, key] using again

/-! ## What is read again -/

theorem body_text_iff {signature : Signature} (nonempty : signature.returnType ≠ [])
    (trimmed : signature.returnType.trim = signature.returnType) :
    body signature.text = signature.text ↔
      dropModifiers (signature.returnType ++ [' ']) = signature.returnType ++ [' '] := by
  rw [← Layout.text_plain]
  exact (Layout.plain signature).body_text_iff nonempty trimmed

theorem body_text_suffix {signature : Signature} (nonempty : signature.returnType ≠ [])
    (trimmed : signature.returnType.trim = signature.returnType) :
    body signature.text <:+ signature.text := by
  have trimText : signature.text.trim = signature.text := by
    rw [← Layout.text_plain]
    exact (Layout.plain signature).trim_text nonempty trimmed
  have dropped := dropModifiers_suffix signature.text.trim
  rw [trimText] at dropped
  rwa [body, trimText]

/-- The token of a text that was written out has the return type before it. -/
theorem trim_before_ne_nil {signature : Signature} {anchor : Anchor} {name : QualifiedName}
    (sameHead : anchor.text = (Layout.plain signature).head)
    (alone : StandsAlone anchor.before anchor.after)
    (returns : Returns name anchor.before.trim signature.returnType)
    (classChars : ∀ c ∈ name.className, isClassChar c = true) : anchor.before.trim ≠ [] := by
  intro empty
  rw [empty] at returns
  obtain ⟨solid, -, -, noToken⟩ := returns.solid classChars
  obtain ⟨c, more, cut⟩ := List.exists_cons_of_ne_nil solid.nonempty
  have before : anchor.before = [] := by
    cases start : anchor.before with
    | nil => rfl
    | cons d before =>
        have blank := trim_eq_nil_iff.1 empty d (by simp [start])
        simp only [Anchor.text, start, Layout.head, cut, List.cons_append, List.cons.injEq] at sameHead
        have bare := solid.solid c (by simp [cut])
        simp [← sameHead.1, blank] at bare
  have shorter : anchor.before.length < (Layout.plain signature).anchor.before.length := by
    rw [before]
    simp [Anchor.before, Layout.anchor, Layout.plain]
  obtain ⟨tail, written, boundary, -⟩ :=
    (Layout.plain signature).exists_tail_of_earlier sameHead alone shorter
  have listed := mem_words alone.start anchor.convention.isWord_token boundary
  rw [← written, words_of_isWord solid, List.mem_singleton] at listed
  exact noToken _ listed

/-- The return type of a signature that is read from its own text is written there. -/
theorem written_of_reread {signature : Signature} {anchor : Anchor} {front : Text}
    (split : front ++ body signature.text = signature.text)
    (sameHead : front ++ anchor.text = (Layout.plain signature).head)
    (alone : StandsAlone anchor.before anchor.after)
    (returns : Returns signature.name anchor.before.trim signature.returnType)
    (classChars : ∀ c ∈ signature.name.className, isClassChar c = true) :
    anchor.before.trim = signature.returnType := by
  by_cases empty : anchor.before.trim = []
  · exfalso
    obtain ⟨nonempty, trimmed⟩ := returns.trimmed classChars
    have default : Returns signature.name [] signature.returnType := empty ▸ returns
    obtain ⟨solid, noBracket, other, -⟩ := default.solid classChars
    have unmodified := dropModifiers_of_isWord solid noBracket other
    rw [(body_text_iff nonempty trimmed).2 unmodified] at split
    obtain rfl : front = [] := List.append_left_eq_self.1 split
    exact trim_before_ne_nil sameHead alone returns classChars empty
  · exact returns.eq_written empty

/-- The text around a token is long enough for the parts that are read off it, so a
text that was written out has nothing else around its token. -/
theorem plain_around_token {signature : Signature} {anchor : Anchor} {front : Text}
    (sameHead : front ++ anchor.text = (Layout.plain signature).head)
    (alone : StandsAlone anchor.before anchor.after)
    (spells : ofText? anchor.after = some signature.name)
    (sameConvention : signature.convention = anchor.convention)
    (written : anchor.before.trim = signature.returnType) (nonempty : signature.returnType ≠ []) :
    front = [] ∧ anchor.after = ' ' :: signature.key := by
  obtain ⟨left, right, -, -, apart, equal⟩ := alone.start.exists_trim (written ▸ nonempty)
  obtain ⟨c, more, starts, blank⟩ := Anchor.startsBlank_iff.1 alone.stop
  have short : signature.key.length ≤ more.length := by
    have least := QualifiedName.length_key_le spells
    have single : AllBlank [c] := allBlank_cons.2 ⟨blank, allBlank_nil⟩
    rw [starts, ← List.singleton_append, trim_append_of_allBlank_left single] at least
    exact Nat.le_trans least (length_trim_le more)
  have positive := List.length_pos_of_ne_nil apart
  have cut : front ++ anchor.before ++ anchor.convention.token ++ anchor.after =
      signature.returnType ++ [' '] ++ signature.convention.token ++ ' ' :: signature.key := by
    simpa [Anchor.text, Layout.head, Layout.plain] using sameHead
  have lengths := congrArg List.length cut
  have width := congrArg List.length equal
  rw [written] at width
  simp only [List.length_append, List.length_cons, List.length_nil, starts, sameConvention] at lengths width
  refine ⟨List.length_eq_zero_iff.1 (by omega), ?_⟩
  refine (List.append_inj' cut ?_).2
  simp only [starts, List.length_cons]
  omega

/-- A signature that is read from its own text is readable. -/
theorem readable_of_parse?_text {signature : Signature}
    (reread : parse? signature.text = some signature) : Readable signature := by
  obtain ⟨head, inside, tail, anchor, group, rfl, alone, fields, -⟩ :=
    parse?_eq_some_iff_parts.1 reread
  obtain ⟨spells, sameConvention, returns, arguments⟩ := ofAnchor?_eq_some_iff.1 fields
  have classChars := QualifiedName.isClassChar_of_ofText? spells
  obtain ⟨nonempty, trimmed⟩ := returns.trimmed classChars
  have proper : ∀ argument ∈ signature.arguments, IsArgument argument := by
    rw [arguments]
    exact fun argument listed => ArgumentList.isArgument_of_mem_ofText group.nested listed
  -- the body is an end of the text, so both have the same argument list
  obtain ⟨front, split⟩ := body_text_suffix nonempty trimmed
  have outer := group.append_left front
  rw [split, ← Layout.text_plain] at outer
  obtain ⟨sameHead, sameInside⟩ := outer.unique ((Layout.plain signature).hasGroup_text proper)
  have notVoid : signature.arguments ≠ ["void".toList] := by
    intro lone
    have joined : inside = [',', ' '].intercalate signature.arguments := sameInside
    rw [joined, lone] at arguments
    exact absurd arguments (by decide)
  have written := written_of_reread split sameHead alone returns classChars
  obtain ⟨rfl, after⟩ := plain_around_token sameHead alone spells sameConvention written nonempty
  have named : ofText? signature.key = some signature.name := by
    have space : AllBlank [' '] := by decide
    rw [← spells, after, ← List.singleton_append]
    exact (QualifiedName.ofText?_congr (trim_append_of_allBlank_left space _)).symm
  exact ⟨nonempty, trimmed, (body_text_iff nonempty trimmed).1 split, named, proper, notVoid⟩

/-- A signature that was read is read again from its own text if and only if no
modifier starts its return type, its key is cut where its name is, and its
arguments are not a lone `void`. -/
theorem parse?_text_iff {text : Text} {signature : Signature}
    (parsed : parse? text = some signature) :
    parse? signature.text = some signature ↔
      dropModifiers (signature.returnType ++ [' ']) = signature.returnType ++ [' '] ∧
        ofText? signature.key = some signature.name ∧
        signature.arguments ≠ ["void".toList] := by
  constructor
  · intro reread
    have readable := readable_of_parse?_text reread
    exact ⟨readable.unmodified, readable.named, readable.notVoid⟩
  · intro conditions
    obtain ⟨unmodified, named, notVoid⟩ := conditions
    obtain ⟨head, inside, tail, anchor, group, -, -, fields, -⟩ :=
      parse?_eq_some_iff_parts.1 parsed
    exact parse?_text_of_readable parsed
      (readable_of_parts group.nested fields unmodified named notVoid)

/-- The first token has no name behind it, in the text that is read and in its own. -/
theorem parse?_text_token_in_returnType :
    parse? (Signature.text ⟨"int __cdecl (x)".toList, .stdcall, ⟨[], "f".toList⟩, []⟩)
      = some ⟨"int __cdecl (x)".toList, .stdcall, ⟨[], "f".toList⟩, []⟩ :=
  (@parse?_text_iff "int __cdecl (x)	__stdcall f(void)".toList _ (by decide)).2
    ⟨by decide, by decide, by decide⟩

/-- Each of the three conditions alone can fail for a signature that was read. -/
theorem exists_parse?_text_ne :
    (∃ signature, parse? "void __cdecl F(void,)".toList = some signature ∧
      parse? signature.text ≠ some signature) ∧
    (∃ signature, parse? "virtual static int __cdecl F()".toList = some signature ∧
      parse? signature.text ≠ some signature) ∧
    ∃ signature, parse? "int __cdecl A:: :B()".toList = some signature ∧
      parse? signature.text ≠ some signature := by
  refine ⟨?_, ?_, ?_⟩
  · exact ⟨⟨"void".toList, .cdecl, ⟨[], "F".toList⟩, ["void".toList]⟩, by decide, by decide⟩
  · exact ⟨⟨"static int".toList, .cdecl, ⟨[], "F".toList⟩, []⟩, by decide, by decide⟩
  · exact ⟨⟨"int".toList, .cdecl, ⟨"A".toList, ":B".toList⟩, []⟩, by decide, by decide⟩

end Signature

end SignatureExport
