import SignatureExport.Proofs.Signature.NameSplit
import SignatureExport.Proofs.Signature.OperatorParentheses

/-!
# The longest class

A text can be split into a class, two colons and a member in several ways: the colons of a
scope may stand in the class, and so may those between the brackets of a template.
`splitClass?` tries the longest class first and takes less if no member is left.  What it
arrives at is the split with the longest class (`splitClass?_eq_some_iff`), and it finds one
if there is any (`splitClass?_eq_none_iff`).

So a text divides into one class and one method, and it spells a name unless the method is
ill-formed (`ofText?_longest_class`).
-/

namespace SignatureExport

namespace QualifiedName

open Text

/-! ## Splits -/

/-- A text is a class, two colons and a member, which stays on one line. -/
structure ClassSplit (text className member : Text) : Prop where
  whole : text = className ++ scopeMark ++ member
  inClass : className ≠ []
  classChars : ∀ c ∈ className, isClassChar c = true
  left : member ≠ []
  oneLine : '\n' ∉ member

variable {text className member : Text}

theorem ClassSplit.isMember (split : ClassSplit text className member) : isMember member = true :=
  isMember_iff.2 ⟨split.left, split.oneLine⟩

/-- A cut that is found is a split. -/
theorem classSplit_of_splitClass? (cut : splitClass? text = some (className, member)) :
    ClassSplit text className member := by
  obtain ⟨whole, inClass, classChars, isMember⟩ := eq_of_splitClass? cut
  obtain ⟨left, oneLine⟩ := isMember_iff.1 isMember
  exact ⟨whole, inClass, classChars, left, oneLine⟩

/-- A class is a single character, or it goes on in the rest of the text. -/
theorem ClassSplit.cases_cons {c : Char} {rest : Text}
    (split : ClassSplit (c :: rest) className member) :
    isClassChar c = true ∧ (className = [c] ∧ Text.after? scopeMark rest = some member ∨
      ∃ more, className = c :: more ∧ ClassSplit rest more member) := by
  obtain ⟨whole, inClass, classChars, left, oneLine⟩ := split
  cases className with
  | nil => exact absurd rfl inClass
  | cons d more =>
      obtain ⟨rfl, behind⟩ := List.cons.inj whole
      refine ⟨classChars c List.mem_cons_self, ?_⟩
      cases more with
      | nil => exact .inl ⟨rfl, Text.after?_eq_some_iff.2 behind⟩
      | cons e more =>
          have inMore : ∀ d ∈ e :: more, isClassChar d = true :=
            fun d inside => classChars d (List.mem_cons_of_mem c inside)
          exact .inr ⟨e :: more, rfl, behind, List.cons_ne_nil e more, inMore, left, oneLine⟩

/-- A text with a split is cut, behind a class that is no shorter. -/
theorem ClassSplit.exists_cut (split : ClassSplit text className member) :
    ∃ longest rest, splitClass? text = some (longest, rest) ∧
      className.length ≤ longest.length := by
  induction text generalizing className with
  | nil =>
      obtain ⟨classEmpty, -⟩ := List.append_eq_nil_iff.1 split.whole.symm
      exact absurd (List.append_eq_nil_iff.1 classEmpty).1 split.inClass
  | cons c rest ih =>
      obtain ⟨allowed, ⟨rfl, behind⟩ | ⟨more, rfl, inRest⟩⟩ := split.cases_cons
      · -- Any cut in the rest makes the class longer than this character.
        cases found : splitClass? rest with
        | some pair =>
            obtain ⟨longer, other⟩ := pair
            exact ⟨c :: longer, other, by simp [splitClass?, allowed, found], by simp⟩
        | none =>
            have cut : splitClass? (c :: rest) = some ([c], member) := by
              simp [splitClass?, allowed, found, behind, split.isMember]
            exact ⟨[c], member, cut, Nat.le_refl _⟩
      · obtain ⟨longest, other, found, shorter⟩ := ih inRest
        exact ⟨c :: longest, other, by simp [splitClass?, allowed, found],
          Nat.succ_le_succ shorter⟩

/-- The length of its class tells a split from the others. -/
theorem ClassSplit.eq_of_length {other rest : Text} (split : ClassSplit text className member)
    (second : ClassSplit text other rest) (same : className.length = other.length) :
    className = other ∧ member = rest := by
  have whole := split.whole.symm.trans second.whole
  rw [List.append_assoc, List.append_assoc] at whole
  obtain ⟨sameClass, behind⟩ := List.append_inj whole same
  exact ⟨sameClass, List.append_cancel_left behind⟩

/-- No split has a longer class. -/
def IsLongest (text className : Text) : Prop :=
  ∀ other rest, ClassSplit text other rest → other.length ≤ className.length

theorem isLongest_of_splitClass? (cut : splitClass? text = some (className, member)) :
    IsLongest text className := by
  intro other rest split
  obtain ⟨longest, behind, found, shorter⟩ := split.exists_cut
  rw [cut, Option.some.injEq, Prod.mk.injEq] at found
  rw [found.1]
  exact shorter

/-- A text is cut at its split with the longest class. -/
theorem splitClass?_eq_some_iff :
    splitClass? text = some (className, member) ↔
      ClassSplit text className member ∧ IsLongest text className := by
  constructor
  · intro cut
    exact ⟨classSplit_of_splitClass? cut, isLongest_of_splitClass? cut⟩
  · intro ⟨split, isLongest⟩
    obtain ⟨longest, rest, cut, shorter⟩ := split.exists_cut
    have found := classSplit_of_splitClass? cut
    have same := Nat.le_antisymm shorter (isLongest longest rest found)
    obtain ⟨rfl, rfl⟩ := split.eq_of_length found same
    exact cut

/-- A text is not cut only if it has no split. -/
theorem splitClass?_eq_none_iff :
    splitClass? text = none ↔ ∀ className member, ¬ ClassSplit text className member := by
  constructor
  · intro uncut className member split
    obtain ⟨longest, rest, cut, -⟩ := split.exists_cut
    rw [uncut] at cut
    exact absurd cut (Option.some_ne_none _).symm
  · intro noSplit
    cases cut : splitClass? text with
    | none => rfl
    | some pair => exact absurd (classSplit_of_splitClass? cut) (noSplit pair.1 pair.2)

example : splitClass? "A<B::C>:::::f".toList = some ("A<B::C>:::".toList, "f".toList) := by decide
example : splitClass? "A::operator,::".toList = some ("A".toList, "operator,::".toList) := by decide

/-! ## Names -/

/-- A trimmed text divides into a class and a method. -/
inductive Divides (text : Text) : QualifiedName → Prop where
  | member {className member : Text} : ClassSplit text className member →
      IsLongest text className → Divides text ⟨className, member.trim⟩
  | free : (∀ className member, ¬ ClassSplit text className member) → Divides text ⟨[], text⟩

/-- A text is the name of no method. -/
def IllFormed (method : Text) : Prop :=
  method = [] ∨ scopeMark <:+ method ∨ ¬ ParenthesesInOperator method

instance (method : Text) : Decidable (IllFormed method) := inferInstanceAs (Decidable (_ ∨ _))

theorem isMethodName_iff_not_illFormed {method : Text} :
    isMethodName method = true ↔ ¬ IllFormed method := by
  rw [isMethodName_iff, hasOwnParentheses_iff, IllFormed, not_or, not_or, not_not]

theorem Divides.unique {name other : QualifiedName} (first : Divides text name)
    (second : Divides text other) : other = name := by
  cases first with
  | member split isLongest =>
      cases second with
      | member otherSplit otherLongest =>
          have same := Nat.le_antisymm (isLongest _ _ otherSplit) (otherLongest _ _ split)
          obtain ⟨rfl, rfl⟩ := otherSplit.eq_of_length split same
          rfl
      | free noSplit => exact absurd split (noSplit _ _)
  | free noSplit =>
      cases second with
      | member split => exact absurd split (noSplit _ _)
      | free => rfl

theorem exists_divides (text : Text) : ∃ name, Divides text name := by
  cases cut : splitClass? text with
  | some pair =>
      obtain ⟨split, isLongest⟩ := splitClass?_eq_some_iff.1 cut
      exact ⟨_, .member split isLongest⟩
  | none => exact ⟨_, .free (splitClass?_eq_none_iff.1 cut)⟩

/-- The name that a text divides into is spelled unless its method is ill-formed. -/
theorem Divides.ofText?_eq {head : Text} {name : QualifiedName} (divides : Divides head.trim name) :
    ofText? head = if IllFormed name.methodName then none else some name := by
  have answer : ofText? head = if isMethodName name.methodName then some name else none := by
    cases divides with
    | member split isLongest =>
        rw [ofText?, splitClass?_eq_some_iff.2 ⟨split, isLongest⟩]
    | free noSplit => rw [ofText?, splitClass?_eq_none_iff.2 noSplit]
  rw [answer]
  by_cases illFormed : IllFormed name.methodName
  · have refused : ¬ isMethodName name.methodName = true :=
      fun isName => isMethodName_iff_not_illFormed.1 isName illFormed
    rw [if_pos illFormed, if_neg refused]
  · rw [if_neg illFormed, if_pos (isMethodName_iff_not_illFormed.2 illFormed)]

/-- A trimmed text divides in one way, into the longest class and its method.  It spells
this name unless the method is ill-formed, which the parentheses of the method tell by
where they stand, or by what is left of it without its call operators. -/
theorem ofText?_longest_class (head : Text) :
    ∃ name, Divides head.trim name ∧ (∀ other, Divides head.trim other → other = name) ∧
      ofText? head = (if IllFormed name.methodName then none else some name) ∧
      (ParenthesesInOperator name.methodName ↔
        ∀ c ∈ replaceAll name.methodName callOperator [], c ≠ '(' ∧ c ≠ ')') := by
  obtain ⟨name, divides⟩ := exists_divides head.trim
  refine ⟨name, divides, fun other second => divides.unique second, divides.ofText?_eq, ?_⟩
  rw [← hasOwnParentheses_iff, hasOwnParentheses_eq_all_replaceAll]
  simp

end QualifiedName

end SignatureExport
