import SignatureExport.Text.Basic

/-!
# Nested parentheses

`Nested levels text` says that the parentheses of a text are balanced and that
there are at most `levels` of them around any character.  It is a grammar: a text
is a sequence of other characters and of groups, and what a group holds may nest
one level less.  `isNested` counts instead: it reads the text from the left and
keeps the number of open groups.  `Balanced` compares the counts of parentheses in
each front of the text.  All three mean the same (`nested_iff_isNested`,
`nested_iff_balanced`).
-/

namespace SignatureExport

namespace Text

/-- The parentheses of a text are balanced and nest at most `levels` deep. -/
inductive Nested : Nat → Text → Prop where
  /-- The empty text. -/
  | nil {levels : Nat} : Nested levels []
  /-- A character that is no parenthesis, and a text. -/
  | plain {levels : Nat} {c : Char} {text : Text} :
      c ≠ '(' → c ≠ ')' → Nested levels text → Nested levels (c :: text)
  /-- A group and a text. -/
  | group {levels : Nat} {inside text : Text} :
      Nested levels inside → Nested (levels + 1) text →
        Nested (levels + 1) ('(' :: inside ++ ')' :: text)

/-- A text without parentheses is nested to any depth. -/
theorem Nested.of_plain {levels : Nat} {text : Text} (plain : ∀ c ∈ text, c ≠ '(' ∧ c ≠ ')') :
    Nested levels text := by
  induction text with
  | nil => exact .nil
  | cons c rest ih =>
      obtain ⟨notOpen, notClose⟩ := plain c List.mem_cons_self
      exact .plain notOpen notClose (ih fun d inside => plain d (List.mem_cons_of_mem c inside))

theorem Nested.append {levels : Nat} {first second : Text} (nestedFirst : Nested levels first)
    (nestedSecond : Nested levels second) : Nested levels (first ++ second) := by
  induction nestedFirst with
  | nil => exact nestedSecond
  | plain notOpen notClose _ ih => exact .plain notOpen notClose (ih nestedSecond)
  | @group levels inside text nestedInside _ _ ih =>
      have equal : '(' :: inside ++ ')' :: text ++ second
          = '(' :: inside ++ ')' :: (text ++ second) := by simp
      rw [equal]
      exact .group nestedInside (ih nestedSecond)

/-! ## Counting open groups -/

/-- Whether a text closes the `depth` groups that are open before it and opens no
more than `levels` at a time. -/
def isNestedFrom (levels : Nat) : Nat → Text → Bool
  | depth, [] => depth = 0
  | depth, c :: text =>
      if c = '(' then depth < levels && isNestedFrom levels (depth + 1) text
      else if c = ')' then depth ≠ 0 && isNestedFrom levels (depth - 1) text
      else isNestedFrom levels depth text

/-- Whether the parentheses of a text are balanced and nest at most `levels` deep. -/
def isNested (levels : Nat) (text : Text) : Bool := isNestedFrom levels 0 text

theorem isNestedFrom_append_of_plain_left {text : Text} (plain : ∀ c ∈ text, c ≠ '(' ∧ c ≠ ')')
    (levels depth : Nat) (rest : Text) :
    isNestedFrom levels depth (text ++ rest) = isNestedFrom levels depth rest := by
  induction text with
  | nil => rfl
  | cons c text ih =>
      obtain ⟨notOpen, notClose⟩ := plain c List.mem_cons_self
      rw [List.cons_append, isNestedFrom, if_neg notOpen, if_neg notClose]
      exact ih fun d inside => plain d (List.mem_cons_of_mem c inside)

theorem isNestedFrom_append_of_plain_right {back : Text} (plain : ∀ c ∈ back, c ≠ '(' ∧ c ≠ ')')
    (levels depth : Nat) (text : Text) :
    isNestedFrom levels depth (text ++ back) = isNestedFrom levels depth text := by
  induction text generalizing depth with
  | nil =>
      have passed := isNestedFrom_append_of_plain_left plain levels depth []
      rwa [List.append_nil] at passed
  | cons c text ih => simp only [List.cons_append, isNestedFrom, ih]

/-- Counting passes over a nested text without a change of the depth. -/
theorem Nested.isNestedFrom_append {inner levels depth : Nat} {text : Text}
    (nested : Nested inner text) (room : depth + inner ≤ levels) (rest : Text) :
    isNestedFrom levels depth (text ++ rest) = isNestedFrom levels depth rest := by
  induction nested generalizing depth rest with
  | nil => rfl
  | plain notOpen notClose _ ih =>
      rw [List.cons_append, isNestedFrom, if_neg notOpen, if_neg notClose, ih room]
  | @group inner inside text _ _ ihInside ihText =>
      have below : depth < levels := by omega
      have equal : '(' :: inside ++ ')' :: text ++ rest
          = '(' :: (inside ++ (')' :: (text ++ rest))) := by simp
      rw [equal, isNestedFrom, if_pos rfl, ihInside (by omega), isNestedFrom, if_neg (by decide),
        if_pos rfl, Nat.add_sub_cancel, ihText room]
      simp [below]

/-- A text that closes an open group is nested up to the parenthesis that does so. -/
theorem exists_close {levels : Nat} (depth : Nat) (text : Text)
    (closes : isNestedFrom levels (depth + 1) text = true) :
    ∃ inside rest, text = inside ++ ')' :: rest ∧ Nested (levels - (depth + 1)) inside ∧
      isNestedFrom levels depth rest = true := by
  match text with
  | [] => simp [isNestedFrom] at closes
  | c :: text =>
      rw [isNestedFrom] at closes
      split at closes
      next opens =>
        subst opens
        obtain ⟨below, more⟩ : depth + 1 < levels ∧ isNestedFrom levels (depth + 2) text = true := by
          simpa using closes
        -- The inner group closes first, and the open group closes in what follows it.
        obtain ⟨inner, middle, equal, nestedInner, closesMiddle⟩ :=
          exists_close (depth + 1) text more
        have shorter : middle.length < text.length := by simp [equal]; omega
        obtain ⟨inside, rest, rfl, nestedInside, closesRest⟩ :=
          exists_close depth middle closesMiddle
        refine ⟨'(' :: inner ++ ')' :: inside, rest, by simp [equal], ?_, closesRest⟩
        have level : levels - (depth + 1) = levels - (depth + 1 + 1) + 1 := by omega
        rw [level] at nestedInside ⊢
        exact .group nestedInner nestedInside
      next notOpen =>
        split at closes
        next close =>
          subst close
          exact ⟨[], text, rfl, .nil, by simpa using closes⟩
        next notClose =>
          obtain ⟨inside, rest, rfl, nested, closesRest⟩ := exists_close depth text closes
          exact ⟨c :: inside, rest, rfl, .plain notOpen notClose nested, closesRest⟩
termination_by text.length
decreasing_by all_goals simp_wf <;> omega

theorem nested_of_isNestedFrom {levels : Nat} (text : Text)
    (balanced : isNestedFrom levels 0 text = true) : Nested levels text := by
  match text with
  | [] => exact .nil
  | c :: text =>
      rw [isNestedFrom] at balanced
      split at balanced
      next opens =>
        subst opens
        obtain ⟨below, more⟩ : 0 < levels ∧ isNestedFrom levels 1 text = true := by
          simpa using balanced
        obtain ⟨inside, rest, equal, nestedInside, closesRest⟩ := exists_close 0 text more
        have shorter : rest.length < text.length := by simp [equal]; omega
        obtain ⟨inner, rfl⟩ : ∃ inner, levels = inner + 1 := ⟨levels - 1, by omega⟩
        rw [equal]
        exact .group nestedInside (nested_of_isNestedFrom rest closesRest)
      next notOpen =>
        split at balanced
        next close => simp at balanced
        next notClose => exact .plain notOpen notClose (nested_of_isNestedFrom text balanced)
termination_by text.length
decreasing_by all_goals simp_wf <;> omega

/-- The grammar of nested texts and the count of open groups agree. -/
theorem nested_iff_isNested {levels : Nat} {text : Text} :
    Nested levels text ↔ isNested levels text = true := by
  refine ⟨fun nested => ?_, nested_of_isNestedFrom text⟩
  have passed := nested.isNestedFrom_append (Nat.le_of_eq (Nat.zero_add levels)) []
  rw [List.append_nil] at passed
  rw [isNested, passed]
  rfl

instance (levels : Nat) (text : Text) : Decidable (Nested levels text) :=
  decidable_of_iff _ nested_iff_isNested.symm

example : Nested 1 "void (*)(int, int)".toList := by decide
example : ¬ Nested 1 "void (*)(int (*)(char))".toList := by decide
example : ¬ Nested 2 ")(".toList := by decide

/-! ## Counting in fronts -/

/-- Counted from the left, a text closes no group that it did not open, leaves none
open, and has at most `levels` groups open at a time. -/
structure Balanced (levels : Nat) (text : Text) : Prop where
  closed : text.count '(' = text.count ')'
  opened : ∀ front, front <+: text → front.count ')' ≤ front.count '('
  shallow : ∀ front, front <+: text → front.count '(' ≤ front.count ')' + levels

theorem forall_front_cons_iff {c : Char} {text : Text} {holds : Text → Prop} :
    (∀ front, front <+: c :: text → holds front) ↔
      holds [] ∧ ∀ front, front <+: text → holds (c :: front) := by
  constructor
  · exact fun all => ⟨all [] List.nil_prefix, fun front leads => all (c :: front) (by simpa)⟩
  · rintro ⟨empty, longer⟩ front leads
    rcases List.prefix_cons_iff.1 leads with rfl | ⟨rest, rfl, shorter⟩
    · exact empty
    · exact longer rest shorter

/-- Counting behind `depth` open groups is counting in the fronts of the text. -/
theorem isNestedFrom_iff_count {levels depth : Nat} (room : depth ≤ levels) (text : Text) :
    isNestedFrom levels depth text = true ↔ depth + text.count '(' = text.count ')' ∧
      ∀ front, front <+: text → front.count ')' ≤ depth + front.count '(' ∧
        depth + front.count '(' ≤ front.count ')' + levels := by
  induction text generalizing depth with
  | nil => simp [isNestedFrom, room]
  | cons c text ih =>
      rw [isNestedFrom, forall_front_cons_iff]
      split
      next opens =>
        subst opens
        by_cases below : depth < levels
        · have one (n : Nat) : depth + 1 + n = depth + (n + 1) := by omega
          simp [below, ih below, one, room]
        · refine iff_of_false (by simp [below]) fun ⟨_, _, deeper⟩ => ?_
          have first := (deeper [] List.nil_prefix).2
          simp at first
          omega
      next notOpen =>
        split
        next close =>
          subst close
          cases depth with
          | zero =>
              refine iff_of_false (by simp) fun ⟨_, _, negative⟩ => ?_
              simpa using (negative [] List.nil_prefix).1
          | succ outer =>
              have passed (n : Nat) : outer + 1 + n = outer + n + 1 := by omega
              have closed (n : Nat) : n + 1 + levels = n + levels + 1 := by omega
              simp [ih (Nat.le_of_succ_le room), passed, closed, room]
        next notClose => simp [ih room, notOpen, notClose, room]

/-- The grammar of nested texts and the counts of parentheses in their fronts agree. -/
theorem nested_iff_balanced {levels : Nat} {text : Text} :
    Nested levels text ↔ Balanced levels text := by
  rw [nested_iff_isNested, isNested, isNestedFrom_iff_count (Nat.zero_le levels), Nat.zero_add]
  simp only [Nat.zero_add]
  constructor
  · rintro ⟨closed, counts⟩
    exact ⟨closed, fun front leads => (counts front leads).1, fun front leads => (counts front leads).2⟩
  · rintro ⟨closed, opened, shallow⟩
    exact ⟨closed, fun front leads => ⟨opened front leads, shallow front leads⟩⟩

end Text

end SignatureExport
