import SignatureExport.Proofs.Text.Words
import SignatureExport.Signature.Name

/-!
# Reading a qualified name

`ofText?_eq_some` says what a text that spells a name looks like: a class, two
colons and a member, or a method alone.  A text fails to spell a name when it has
a parenthesis that belongs to no call operator, or when its method is empty or
ends with two colons.

A text with a blank in its middle is never a class alone.  So whether it spells a
name can be told from its two halves (`ofText?_append_eq_none_iff`), whatever the
class of the name is.
-/

namespace SignatureExport

namespace QualifiedName

open Text

/-! ## The characters of a class -/

/-- The code points of the blank characters. -/
def blankCodes : List Nat :=
  [0x9, 0xA, 0xB, 0xC, 0xD, 0x20, 0x85, 0xA0, 0x1680, 0x2000, 0x2001, 0x2002, 0x2003, 0x2004,
    0x2005, 0x2006, 0x2007, 0x2008, 0x2009, 0x200A, 0x2028, 0x2029, 0x202F, 0x205F, 0x3000]

theorem toNat_mem_blankCodes {c : Char} (blank : isBlank c = true) : c.toNat ∈ blankCodes := by
  simp only [isBlank, Bool.or_eq_true, Bool.and_eq_true, decide_eq_true_eq, beq_iff_eq] at blank
  simp only [blankCodes, List.mem_cons, List.not_mem_nil, or_false]
  omega

theorem isClassChar_blankCodes : ∀ n ∈ blankCodes, isClassChar (Char.ofNat n) = false := by
  decide +kernel

theorem isBlank_of_isClassChar {c : Char} (allowed : isClassChar c = true) : isBlank c = false := by
  rw [← Bool.not_eq_true]
  intro blank
  have listed := toNat_mem_blankCodes blank
  have refused := isClassChar_blankCodes _ listed
  rw [Char.ofNat_toNat, allowed] at refused
  exact absurd refused (by decide)

theorem ne_of_isClassChar {c d : Char} (allowed : isClassChar c = true)
    (refused : isClassChar d = false) : c ≠ d := by
  rintro rfl
  simp [allowed] at refused

/-! ## Parentheses of a method -/

/-- A text without parentheses has none of its own to account for. -/
theorem hasOwnParentheses_of_plain {text : Text} (plain : ∀ c ∈ text, c ≠ '(' ∧ c ≠ ')') :
    hasOwnParentheses 0 text = true := by
  induction text with
  | nil => rfl
  | cons c rest ih =>
      have notOperator : callOperator.isPrefixOf (c :: rest) = false := by
        rw [← Bool.not_eq_true]
        intro leading
        have inside := (List.isPrefixOf_iff_prefix.1 leading).subset
          (show '(' ∈ callOperator by decide)
        exact (plain '(' inside).1 rfl
      obtain ⟨notOpen, notClose⟩ := plain c List.mem_cons_self
      rw [hasOwnParentheses, notOperator]
      simp [notOpen, notClose, ih fun d inside => plain d (List.mem_cons_of_mem c inside)]

/-- A character that the call operator does not have ends any occurrence of it. -/
theorem isPrefixOf_append_cons {front back : Text} {c : Char} (foreign : c ∉ callOperator) :
    callOperator.isPrefixOf (front ++ c :: back) = callOperator.isPrefixOf front := by
  rw [Bool.eq_iff_iff, List.isPrefixOf_iff_prefix, List.isPrefixOf_iff_prefix]
  constructor
  · intro leading
    rcases Nat.le_total callOperator.length front.length with shorter | longer
    · exact List.prefix_of_prefix_length_le leading (List.prefix_append front _) shorter
    · obtain ⟨more, equal⟩ :=
        List.prefix_of_prefix_length_le (List.prefix_append front _) leading longer
      rw [← equal, List.prefix_append_right_inj] at leading
      cases more with
      | nil =>
          have same : front = callOperator := by simpa using equal
          exact same ▸ List.prefix_refl front
      | cons d more =>
          obtain ⟨rfl, -⟩ := List.cons_prefix_cons.1 leading
          exact absurd (equal ▸ List.mem_append_right front List.mem_cons_self) foreign
  · exact fun leading => leading.trans (List.prefix_append front _)

theorem hasOwnParentheses_cons_foreign {c : Char} (foreign : c ∉ callOperator) (rest : Text) :
    hasOwnParentheses 0 (c :: rest) = hasOwnParentheses 0 rest := by
  have notOpen : c ≠ '(' := fun equal => foreign (equal ▸ by decide)
  have notClose : c ≠ ')' := fun equal => foreign (equal ▸ by decide)
  have notOperator : callOperator.isPrefixOf (c :: rest) = false := by
    rw [← List.nil_append (c :: rest), isPrefixOf_append_cons foreign]
    rfl
  rw [hasOwnParentheses, notOperator]
  simp [notOpen, notClose]

/-- The parentheses on the two sides of a character that is not in the call
operator are accounted for apart. -/
theorem hasOwnParentheses_append_cons {c : Char} (foreign : c ∉ callOperator) (skip : Nat)
    (front back : Text) (room : skip ≤ front.length) :
    hasOwnParentheses skip (front ++ c :: back) =
      (hasOwnParentheses skip front && hasOwnParentheses 0 back) := by
  induction front generalizing skip with
  | nil =>
      obtain rfl : skip = 0 := by simpa using room
      rw [List.nil_append, hasOwnParentheses_cons_foreign foreign]
      rfl
  | cons d front ih =>
      cases skip with
      | succ skip => exact ih skip (Nat.le_of_succ_le_succ room)
      | zero =>
          rw [List.cons_append, hasOwnParentheses, ← List.cons_append,
            isPrefixOf_append_cons foreign, hasOwnParentheses]
          split
          next leading =>
            refine ih _ ?_
            have fits := (List.isPrefixOf_iff_prefix.1 leading).length_le
            rw [List.length_cons] at fits
            omega
          next => simp only [ih 0 (Nat.zero_le _), Bool.and_assoc]

theorem blank_not_mem_callOperator {c : Char} (blank : isBlank c = true) : c ∉ callOperator := by
  intro inside
  have isWord : IsWord callOperator := by decide
  simp [isWord.solid c inside] at blank

theorem hasOwnParentheses_of_allBlank {text : Text} (blank : AllBlank text) :
    hasOwnParentheses 0 text = true :=
  hasOwnParentheses_of_plain blank.plain

theorem hasOwnParentheses_append_of_endsWord {front back : Text} (boundary : EndsWord back) :
    hasOwnParentheses 0 (front ++ back) =
      (hasOwnParentheses 0 front && hasOwnParentheses 0 back) := by
  cases back with
  | nil => simp [hasOwnParentheses]
  | cons c back =>
      have foreign := blank_not_mem_callOperator (boundary c rfl)
      rw [hasOwnParentheses_append_cons foreign 0 front back (Nat.zero_le _),
        hasOwnParentheses_cons_foreign foreign]

theorem hasOwnParentheses_append_of_startsWord {front back : Text} (boundary : StartsWord front) :
    hasOwnParentheses 0 (front ++ back) =
      (hasOwnParentheses 0 front && hasOwnParentheses 0 back) := by
  rcases List.eq_nil_or_concat front with rfl | ⟨more, c, rfl⟩
  · simp [hasOwnParentheses]
  · have foreign := blank_not_mem_callOperator (boundary c (by simp))
    rw [List.concat_eq_append, List.append_assoc, List.singleton_append,
      hasOwnParentheses_append_cons foreign 0 more back (Nat.zero_le _),
      hasOwnParentheses_append_cons foreign 0 more [] (Nat.zero_le _)]
    simp [hasOwnParentheses]

/-- Blanks between two texts keep their parentheses apart. -/
theorem hasOwnParentheses_append_run {front run back : Text} (blank : AllBlank run)
    (nonempty : run ≠ []) :
    hasOwnParentheses 0 (front ++ run ++ back) =
      (hasOwnParentheses 0 front && hasOwnParentheses 0 back) := by
  rw [hasOwnParentheses_append_of_startsWord (startsWord_append blank nonempty),
    hasOwnParentheses_append_of_endsWord blank.endsWord, hasOwnParentheses_of_allBlank blank,
    Bool.and_true]

theorem hasOwnParentheses_trim (text : Text) :
    hasOwnParentheses 0 text.trim = hasOwnParentheses 0 text := by
  obtain ⟨front, back, blankFront, blankBack, equal⟩ := exists_trim text
  rw [equal, hasOwnParentheses_append_of_endsWord blankBack.endsWord,
    hasOwnParentheses_append_of_startsWord blankFront.startsWord,
    hasOwnParentheses_of_allBlank blankFront, hasOwnParentheses_of_allBlank blankBack,
    ← equal, Bool.true_and, Bool.and_true]

/-! ## Classes and members -/

theorem isWord_scopeMark : IsWord scopeMark := by decide

/-- A text is cut behind a class, and a member is left. -/
theorem eq_of_splitClass? {text className member : Text}
    (cut : splitClass? text = some (className, member)) :
    text = className ++ scopeMark ++ member ∧ className ≠ [] ∧
      (∀ c ∈ className, isClassChar c = true) ∧ isMember member = true := by
  induction text generalizing className with
  | nil => simp [splitClass?] at cut
  | cons c rest ih =>
      rw [splitClass?] at cut
      split at cut
      next allowed =>
        split at cut
        next longer inner found =>
          cases cut
          obtain ⟨rfl, -, classChars, isMember⟩ := ih found
          refine ⟨rfl, List.cons_ne_nil _ _, ?_, isMember⟩
          intro d inside
          rcases List.mem_cons.1 inside with rfl | inside
          · exact allowed
          · exact classChars d inside
        next =>
          split at cut
          next inner after =>
            split at cut
            next isMember =>
              cases cut
              refine ⟨?_, List.cons_ne_nil _ _, by simpa using allowed, isMember⟩
              rw [Text.after?_eq_some_iff.1 after]
              rfl
            next => simp at cut
          next => simp at cut
      next => simp at cut

/-- The name that a text spells has a class before its member, or is a method alone. -/
theorem ofText?_eq_some {text : Text} {name : QualifiedName} (spells : ofText? text = some name) :
    isMethodName name.methodName = true ∧
      ((∃ member, splitClass? text.trim = some (name.className, member) ∧
          name.methodName = member.trim) ∨
        splitClass? text.trim = none ∧ name = ⟨[], text.trim⟩) := by
  rw [ofText?] at spells
  cases cut : splitClass? text.trim with
  | none =>
      simp only [cut, Option.ite_none_right_eq_some, Option.some.injEq] at spells
      obtain ⟨isName, rfl⟩ := spells
      exact ⟨isName, .inr ⟨rfl, rfl⟩⟩
  | some pair =>
      simp only [cut, Option.ite_none_right_eq_some, Option.some.injEq] at spells
      obtain ⟨isName, rfl⟩ := spells
      exact ⟨isName, .inl ⟨pair.2, rfl, rfl⟩⟩

/-- The blanks at the ends of a text do not count. -/
theorem ofText?_congr {first second : Text} (same : first.trim = second.trim) :
    ofText? first = ofText? second := by
  rw [ofText?, ofText?, same]

theorem isMethodName_iff {text : Text} :
    isMethodName text = true ↔
      text ≠ [] ∧ ¬ scopeMark <:+ text ∧ hasOwnParentheses 0 text = true := by
  simp [isMethodName, and_assoc, ← List.isSuffixOf_iff_suffix]

/-- A member at the end of a trimmed text is a run of blanks and its trimmed text. -/
theorem exists_trim_member {front member : Text} (trimmed : IsTrimmed (front ++ member))
    (nonempty : member ≠ []) :
    member.trim ≠ [] ∧ ∃ blanks, AllBlank blanks ∧ member = blanks ++ member.trim := by
  have bare : ∀ c ∈ member.getLast?, isBlank c = false := by
    intro c last
    refine trimmed.last c ?_
    rw [List.getLast?_append]
    exact Option.or_eq_some_iff.2 (.inl last)
  refine ⟨fun empty => ?_, ?_⟩
  · have blank := trim_eq_nil_iff.1 empty (member.getLast nonempty) (List.getLast_mem nonempty)
    simp [bare _ (List.getLast?_eq_some_getLast nonempty)] at blank
  · obtain ⟨blanks, blank, equal⟩ := exists_trimStart member
    exact ⟨blanks, blank, by rw [trim_eq_trimStart bare]; exact equal⟩

theorem isMember_iff {member : Text} :
    isMember member = true ↔ member ≠ [] ∧ '\n' ∉ member := by
  simp [isMember]

theorem isMember_nonempty {member : Text} (left : isMember member = true) : member ≠ [] :=
  (isMember_iff.1 left).1

/-- A class has no parentheses, so those of a text are those of its member. -/
theorem hasOwnParentheses_member {text className member : Text}
    (cut : splitClass? text = some (className, member)) :
    hasOwnParentheses 0 text = hasOwnParentheses 0 member := by
  obtain ⟨equal, -, classChars, -⟩ := eq_of_splitClass? cut
  have plain : ∀ c ∈ className, c ≠ '(' ∧ c ≠ ')' := fun c inside =>
    ⟨ne_of_isClassChar (classChars c inside) (by decide),
      ne_of_isClassChar (classChars c inside) (by decide)⟩
  have foreign : ':' ∉ callOperator := by decide
  have colons : className ++ scopeMark ++ member = className ++ ':' :: ':' :: member := by
    simp [scopeMark]
  rw [equal, colons, hasOwnParentheses_append_cons foreign 0 _ _ (Nat.zero_le _),
    hasOwnParentheses_cons_foreign foreign, hasOwnParentheses_of_plain plain, Bool.true_and]

/-! ## Facts about a name that was read -/

theorem hasOwnParentheses_of_ofText? {text : Text} {name : QualifiedName}
    (spells : ofText? text = some name) : hasOwnParentheses 0 text = true := by
  obtain ⟨isName, ⟨member, cut, method⟩ | ⟨-, rfl⟩⟩ := ofText?_eq_some spells
  · rw [← hasOwnParentheses_trim, hasOwnParentheses_member cut, ← hasOwnParentheses_trim member,
      ← method]
    exact (isMethodName_iff.1 isName).2.2
  · rw [← hasOwnParentheses_trim]
    exact (isMethodName_iff.1 isName).2.2

theorem isClassChar_of_ofText? {text : Text} {name : QualifiedName}
    (spells : ofText? text = some name) : ∀ c ∈ name.className, isClassChar c = true := by
  obtain ⟨-, ⟨member, cut, -⟩ | ⟨-, rfl⟩⟩ := ofText?_eq_some spells
  · exact (eq_of_splitClass? cut).2.2.1
  · simp

theorem key_of_class {className method : Text} (nonempty : className ≠ []) :
    key ⟨className, method⟩ = className ++ scopeMark ++ method := if_neg nonempty

/-- The key of a name that was read starts and ends with no blank. -/
theorem isTrimmed_key {text : Text} {name : QualifiedName} (spells : ofText? text = some name) :
    IsTrimmed name.key := by
  obtain ⟨isName, ⟨member, cut, method⟩ | ⟨-, rfl⟩⟩ := ofText?_eq_some spells
  · obtain ⟨-, nonempty, classChars, -⟩ := eq_of_splitClass? cut
    obtain ⟨className, methodName⟩ := name
    rw [key_of_class nonempty]
    obtain ⟨c, more, rfl⟩ := List.exists_cons_of_ne_nil nonempty
    refine ⟨by simpa using isBlank_of_isClassChar (classChars c List.mem_cons_self), ?_⟩
    have bare := (isTrimmed_trim member).last
    rw [← method] at bare
    rw [List.getLast?_append_of_ne_nil _ (isMethodName_iff.1 isName).1]
    exact bare
  · exact isTrimmed_trim text

/-- A key is no longer than the text it was read from. -/
theorem length_key_le {text : Text} {name : QualifiedName} (spells : ofText? text = some name) :
    name.key.length ≤ text.trim.length := by
  obtain ⟨-, ⟨member, cut, method⟩ | ⟨-, rfl⟩⟩ := ofText?_eq_some spells
  · obtain ⟨equal, nonempty, -⟩ := eq_of_splitClass? cut
    obtain ⟨className, methodName⟩ := name
    subst method
    rw [key_of_class nonempty, equal]
    simpa using length_trim_le member
  · exact Nat.le_refl _

theorem trim_nonempty_of_ofText? {text : Text} {name : QualifiedName}
    (spells : ofText? text = some name) : text.trim ≠ [] := by
  obtain ⟨isName, ⟨member, cut, -⟩ | ⟨-, rfl⟩⟩ := ofText?_eq_some spells
  · obtain ⟨equal, nonempty, -⟩ := eq_of_splitClass? cut
    simp [equal, nonempty]
  · exact (isMethodName_iff.1 isName).1

/-! ## Texts with a blank in the middle -/

theorem isMethodName_eq_false_iff {text : Text} (nonempty : text ≠ []) :
    isMethodName text = false ↔ scopeMark <:+ text ∨ hasOwnParentheses 0 text = false := by
  rw [← Bool.not_eq_true, isMethodName_iff, ← Bool.not_eq_true]
  grind

/-- A text that ends with two colons does so in any piece at its end that is long
enough to hold them. -/
theorem scopeMark_suffix_of_append {front piece : Text} (trailing : scopeMark <:+ front ++ piece)
    (room : 2 ≤ piece.length) : scopeMark <:+ piece :=
  List.suffix_of_suffix_length_le trailing (List.suffix_append front piece) room

/-- The two colons at the end of a member of some length are those of its trimmed text. -/
theorem scopeMark_suffix_trim_iff {blanks member : Text} (blank : AllBlank blanks)
    (equal : member = blanks ++ member.trim) :
    scopeMark <:+ member ↔ scopeMark <:+ member.trim := by
  constructor
  · intro trailing
    rw [equal] at trailing
    exact suffix_of_suffix_append blank.startsWord isWord_scopeMark.solid trailing
  · intro trailing
    rw [equal]
    exact trailing.trans (List.suffix_append blanks _)

/-- A trimmed text with a blank inside spells a name unless it ends with two colons
or has a parenthesis too many. -/
theorem ofText?_eq_none_iff {text : Text} {c : Char} (inside : c ∈ text.trim)
    (blank : isBlank c = true) :
    ofText? text = none ↔ scopeMark <:+ text.trim ∨ hasOwnParentheses 0 text = false := by
  have nonempty : text.trim ≠ [] := List.ne_nil_of_mem inside
  rw [← hasOwnParentheses_trim text, ofText?]
  cases cut : splitClass? text.trim with
  | none =>
      rw [← isMethodName_eq_false_iff nonempty]
      simp
  | some pair =>
      obtain ⟨className, member⟩ := pair
      obtain ⟨equal, -, classChars, left⟩ := eq_of_splitClass? cut
      have trimmed := isTrimmed_trim text
      rw [equal] at trimmed
      obtain ⟨memberNonempty, blanks, blankFront, memberEqual⟩ :=
        exists_trim_member trimmed (isMember_nonempty left)
      -- The blank lies in the member, so the member has room for two colons.
      have inMember : c ∈ member := by
        rw [equal, List.append_assoc, List.mem_append, List.mem_append] at inside
        rcases inside with inClass | inMark | inMember
        · simp [isBlank_of_isClassChar (classChars c inClass)] at blank
        · simp [isWord_scopeMark.solid c inMark] at blank
        · exact inMember
      have room : 2 ≤ member.length := by
        rcases member with _ | ⟨d, _ | ⟨e, rest⟩⟩
        · simp at inMember
        · obtain rfl : c = d := by simpa using inMember
          have bare := trimmed.last c (by simp)
          simp [blank] at bare
        · simp
      have sameEnd : scopeMark <:+ text.trim ↔ scopeMark <:+ member.trim := by
        rw [← scopeMark_suffix_trim_iff blankFront memberEqual, equal]
        exact ⟨fun trailing => scopeMark_suffix_of_append trailing room,
          fun trailing => trailing.trans (List.suffix_append _ member)⟩
      rw [hasOwnParentheses_member cut, ← hasOwnParentheses_trim member, sameEnd,
        ← isMethodName_eq_false_iff memberNonempty]
      simp

/-- A text that spells a name and ends with two colons ends so in its key.  The
member is then a single colon, and no blank is dropped before it. -/
theorem scopeMark_suffix_key {text : Text} {name : QualifiedName}
    (spells : ofText? text = some name) (trailing : scopeMark <:+ text.trim) :
    scopeMark <:+ name.key := by
  obtain ⟨isName, ⟨member, cut, method⟩ | ⟨-, rfl⟩⟩ := ofText?_eq_some spells
  · obtain ⟨equal, nonempty, -, left⟩ := eq_of_splitClass? cut
    obtain ⟨className, methodName⟩ := name
    subst method
    have trimmed := isTrimmed_trim text
    rw [equal] at trimmed trailing
    obtain ⟨memberNonempty, blanks, blankFront, memberEqual⟩ :=
      exists_trim_member trimmed (isMember_nonempty left)
    rw [key_of_class nonempty]
    rcases Nat.lt_or_ge member.length 2 with short | room
    · have lengths := congrArg List.length memberEqual
      have positive := List.length_pos_iff.2 memberNonempty
      rw [List.length_append] at lengths
      obtain rfl : blanks = [] := List.eq_nil_of_length_eq_zero (by omega)
      rw [List.nil_append] at memberEqual
      rw [← memberEqual]
      exact trailing
    · have inner := (scopeMark_suffix_trim_iff blankFront memberEqual).1
        (scopeMark_suffix_of_append trailing room)
      exact absurd inner (isMethodName_iff.1 isName).2.1
  · exact absurd trailing (isMethodName_iff.1 isName).2.1

/-- A text in front of another that starts with a blank spoils the name there only
through its parentheses, unless two colons stand at the end. -/
theorem ofText?_append_eq_none_iff {front after : Text} (bare : front.trim ≠ [])
    (stop : ∃ c ∈ after.head?, isBlank c = true) (nonempty : after.trim ≠ [])
    (own : hasOwnParentheses 0 after = true) :
    ofText? (front ++ after) = none ↔
      scopeMark <:+ after.trim ∨ hasOwnParentheses 0 front = false := by
  obtain ⟨between, blank, nonemptyBetween, middle⟩ := exists_trim_append bare nonempty stop
  obtain ⟨c, run, rfl⟩ := List.exists_cons_of_ne_nil nonemptyBetween
  have inside : c ∈ (front ++ after).trim := by simp [middle]
  have sameEnd : scopeMark <:+ (front ++ after).trim ↔ scopeMark <:+ after.trim := by
    rw [middle]
    exact ⟨suffix_of_suffix_append (startsWord_append blank nonemptyBetween) isWord_scopeMark.solid,
      fun trailing => trailing.trans (List.suffix_append _ _)⟩
  have boundary : EndsWord after := by
    obtain ⟨d, first, blankFirst⟩ := stop
    intro e sameFirst
    obtain rfl : d = e := Option.some.inj (first.symm.trans sameFirst)
    exact blankFirst
  rw [ofText?_eq_none_iff inside (allBlank_cons.1 blank).1, sameEnd,
    hasOwnParentheses_append_of_endsWord boundary, own, Bool.and_true]

end QualifiedName

end SignatureExport
