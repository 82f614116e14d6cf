import SignatureExport.Proofs.Text.Trimming
import SignatureExport.Signature.Name

/-!
# Parentheses of the call operator

The parentheses of a method name belong to occurrences of the call operator.  This is said
in three ways that agree.  `hasOwnParentheses` reads the text from the left and passes over
each occurrence.  `ParenthesesInOperator` looks for an occurrence around each parenthesis
(`hasOwnParentheses_iff`).  And a text without its occurrences has no parentheses left
(`hasOwnParentheses_eq_all_replaceAll`).

The second needs that no occurrence reaches into another, whichever is read first
(`eq_of_border`).
-/

namespace SignatureExport

namespace QualifiedName

open Text

/-- Every parenthesis of a text lies in an occurrence of the call operator. -/
def ParenthesesInOperator (text : Text) : Prop :=
  ∀ front c back, text = front ++ c :: back → c = '(' ∨ c = ')' →
    ∃ before left right after, front = before ++ left ∧ callOperator = left ++ c :: right ∧
      back = right ++ after

/-- A character near the start of an occurrence of the call operator lies in it. -/
theorem exists_rest_of_operator {front back : Text} {c : Char}
    (leading : callOperator <+: front ++ c :: back) (near : front.length < callOperator.length) :
    ∃ right after, callOperator = front ++ c :: right ∧ back = right ++ after := by
  obtain ⟨after, equal⟩ := leading
  rcases List.append_eq_append_iff.1 equal with ⟨more, longer, -⟩ | ⟨more, cut, rest⟩
  · rw [longer, List.length_append] at near
    omega
  · cases more with
    | nil =>
        rw [cut, List.append_nil] at near
        exact absurd near (Nat.lt_irrefl _)
    | cons d right =>
        obtain ⟨rfl, rfl⟩ := List.cons.inj rest
        exact ⟨right, after, cut, rfl⟩

/-- If a text accounts for its parentheses behind the first `skip` characters, each of
them lies in an occurrence of the call operator. -/
theorem exists_operator_around {skip : Nat} {front back : Text} {c : Char}
    (own : hasOwnParentheses skip (front ++ c :: back) = true) (passed : skip ≤ front.length)
    (parenthesis : c = '(' ∨ c = ')') :
    ∃ before left right after, front = before ++ left ∧ callOperator = left ++ c :: right ∧
      back = right ++ after := by
  induction front generalizing skip with
  | nil =>
      obtain rfl : skip = 0 := by simpa using passed
      rw [List.nil_append, hasOwnParentheses] at own
      split at own
      next leading =>
        obtain ⟨right, after, equal, behind⟩ := @exists_rest_of_operator [] back c
          (List.isPrefixOf_iff_prefix.1 leading) (by decide)
        exact ⟨[], [], right, after, rfl, equal, behind⟩
      next => rcases parenthesis with rfl | rfl <;> simp at own
  | cons d front ih =>
      have later {skip : Nat} (own : hasOwnParentheses skip (front ++ c :: back) = true)
          (passed : skip ≤ front.length) :
          ∃ before left right after, d :: front = before ++ left ∧
            callOperator = left ++ c :: right ∧ back = right ++ after := by
        obtain ⟨before, left, right, after, rfl, equal, behind⟩ := ih own passed
        exact ⟨d :: before, left, right, after, rfl, equal, behind⟩
      cases skip with
      | succ skip => exact later own (Nat.le_of_succ_le_succ passed)
      | zero =>
          rw [List.cons_append, hasOwnParentheses] at own
          split at own
          next leading =>
            by_cases near : (d :: front).length < callOperator.length
            · obtain ⟨right, after, equal, behind⟩ :=
                exists_rest_of_operator (List.isPrefixOf_iff_prefix.1 leading) near
              exact ⟨[], d :: front, right, after, rfl, equal, behind⟩
            · refine later own ?_
              rw [List.length_cons] at near
              omega
          next =>
            simp only [Bool.and_eq_true] at own
            exact later own.2 (Nat.zero_le _)

theorem parenthesesInOperator_of_hasOwnParentheses {text : Text}
    (own : hasOwnParentheses 0 text = true) : ParenthesesInOperator text := by
  rintro front c back rfl parenthesis
  exact exists_operator_around own (Nat.zero_le _) parenthesis

/-! ## Occurrences that do not overlap -/

/-- The call operator ends with no start of its own but the whole. -/
theorem eq_of_border {border : Text} (leads : border <+: callOperator)
    (ends : border <:+ callOperator) : border = [] ∨ border = callOperator := by
  have lengths : ∀ n ≤ callOperator.length,
      callOperator.take n = callOperator.drop (callOperator.length - n) →
        n = 0 ∨ n = callOperator.length := by decide
  have same := (List.prefix_iff_eq_take.1 leads).symm.trans (List.suffix_iff_eq_drop.1 ends)
  rcases lengths border.length leads.length_le same with empty | whole
  · exact .inl (List.eq_nil_of_length_eq_zero empty)
  · exact .inr (leads.eq_of_length whole)

/-- Behind an occurrence of the call operator the others are told apart from it. -/
theorem ParenthesesInOperator.behind {after : Text}
    (all : ParenthesesInOperator (callOperator ++ after)) : ParenthesesInOperator after := by
  rintro front c back rfl parenthesis
  obtain ⟨before, left, right, rest, cut, equal, behind⟩ :=
    all (callOperator ++ front) c back (by simp) parenthesis
  rcases List.append_eq_append_iff.1 cut with ⟨more, rfl, rfl⟩ | ⟨border, whole, rfl⟩
  · exact ⟨more, left, right, rest, rfl, equal, behind⟩
  · have leads : border <+: callOperator := ⟨front ++ c :: right, by rw [equal]; simp⟩
    rcases eq_of_border leads ⟨before, whole.symm⟩ with rfl | rfl
    · exact ⟨[], front, right, rest, rfl, by simpa using equal, behind⟩
    · -- the occurrence would be longer than the call operator
      have lengths := congrArg List.length equal
      simp at lengths

/-- Where no occurrence of the call operator starts, the first character is no parenthesis. -/
theorem ParenthesesInOperator.tail {c : Char} {rest : Text} (all : ParenthesesInOperator (c :: rest))
    (apart : ¬ callOperator <+: c :: rest) :
    (c ≠ '(' ∧ c ≠ ')') ∧ ParenthesesInOperator rest := by
  constructor
  · rw [← not_or]
    intro parenthesis
    obtain ⟨before, left, right, after, cut, equal, rfl⟩ := all [] c rest rfl parenthesis
    obtain ⟨rfl, rfl⟩ := List.append_eq_nil_iff.1 cut.symm
    exact apart ⟨after, by rw [equal]; rfl⟩
  · rintro front d back rfl parenthesis
    obtain ⟨before, left, right, after, cut, equal, rfl⟩ := all (c :: front) d back rfl parenthesis
    cases before with
    | nil =>
        rw [List.nil_append] at cut
        exact absurd ⟨after, by rw [equal, ← cut]; simp⟩ apart
    | cons e before =>
        obtain ⟨rfl, rfl⟩ := List.cons.inj cut
        exact ⟨before, left, right, after, rfl, equal, rfl⟩

theorem hasOwnParentheses_length (passed rest : Text) :
    hasOwnParentheses passed.length (passed ++ rest) = hasOwnParentheses 0 rest := by
  induction passed with
  | nil => rfl
  | cons c passed ih => exact ih

theorem hasOwnParentheses_of_parenthesesInOperator (text : Text)
    (all : ParenthesesInOperator text) : hasOwnParentheses 0 text = true := by
  match text with
  | [] => rfl
  | c :: rest =>
      rw [hasOwnParentheses]
      split
      next leading =>
        obtain ⟨after, equal⟩ := List.isPrefixOf_iff_prefix.1 leading
        have inRest : rest = callOperator.tail ++ after := (List.cons.inj equal).2.symm
        have shorter : after.length < (c :: rest).length := by
          rw [inRest, List.length_cons, List.length_append]
          omega
        rw [← equal] at all
        have passed := hasOwnParentheses_length callOperator.tail after
        rw [← inRest, List.length_tail] at passed
        rw [passed]
        exact hasOwnParentheses_of_parenthesesInOperator after all.behind
      next apart =>
        rw [List.isPrefixOf_iff_prefix] at apart
        obtain ⟨⟨notOpen, notClose⟩, inRest⟩ := all.tail apart
        simp [notOpen, notClose, hasOwnParentheses_of_parenthesesInOperator rest inRest]
termination_by text.length

theorem hasOwnParentheses_iff {text : Text} :
    hasOwnParentheses 0 text = true ↔ ParenthesesInOperator text :=
  ⟨parenthesesInOperator_of_hasOwnParentheses, hasOwnParentheses_of_parenthesesInOperator text⟩

instance (text : Text) : Decidable (ParenthesesInOperator text) :=
  decidable_of_iff _ hasOwnParentheses_iff

/-! ## Removing the occurrences -/

theorem hasOwnParentheses_eq_all_replaceFrom (skip : Nat) (text : Text) :
    hasOwnParentheses skip text =
      (replaceFrom callOperator [] skip text).all fun c => c != '(' && c != ')' := by
  induction text generalizing skip with
  | nil => cases skip <;> rfl
  | cons c rest ih =>
      cases skip with
      | succ skip => exact ih skip
      | zero =>
          rw [hasOwnParentheses, replaceFrom]
          split
          next => exact ih _
          next => rw [ih, List.all_cons]

/-- A text accounts for its parentheses if none is left without the call operators. -/
theorem hasOwnParentheses_eq_all_replaceAll (text : Text) :
    hasOwnParentheses 0 text =
      (replaceAll text callOperator []).all fun c => c != '(' && c != ')' :=
  hasOwnParentheses_eq_all_replaceFrom 0 text

end QualifiedName

end SignatureExport
