import SignatureExport.Proofs.Text.Nesting
import SignatureExport.Signature.ArgumentList

/-!
# The group that closes a text

`split?` reads a text from its end.  Its answer is described without any scan by
`split?_eq_some_iff`: the text is a head and a group in parentheses, and what the
group holds nests at most `maxNesting` deep.  The scan never passes the
parenthesis that opens the group, so a text can be cut in one way only, whatever
parentheses its head has.
-/

namespace SignatureExport

namespace ArgumentList

open Text (Nested)

/-! ## One step of the scan -/

theorem scan?_close (depth : Nat) (inside rest : Text) :
    scan? depth inside (')' :: rest) =
      if maxNesting < depth then none
      else scan? (depth + 1) (if depth = 0 then inside else ')' :: inside) rest := by
  conv => lhs; unfold scan?
  rw [if_pos rfl]

theorem scan?_first_close (rest : Text) : scan? 0 [] (')' :: rest) = scan? 1 [] rest := by
  rw [scan?_close, if_neg (Nat.not_lt_zero maxNesting), if_pos rfl]

theorem scan?_inner_close {depth : Nat} (room : depth < maxNesting) (inside rest : Text) :
    scan? (depth + 1) inside (')' :: rest) = scan? (depth + 2) (')' :: inside) rest := by
  rw [scan?_close, if_neg (Nat.not_lt.2 room), if_neg (Nat.succ_ne_zero depth)]

theorem scan?_last_open (inside rest : Text) :
    scan? 1 inside ('(' :: rest) = some (rest.reverse, inside) := rfl

theorem scan?_open (depth : Nat) (inside rest : Text) :
    scan? (depth + 2) inside ('(' :: rest) = scan? (depth + 1) ('(' :: inside) rest := rfl

theorem scan?_plain {c : Char} (notOpen : c ≠ '(') (notClose : c ≠ ')') (depth : Nat)
    (inside rest : Text) : scan? depth inside (c :: rest) = scan? depth (c :: inside) rest := by
  conv => lhs; unfold scan?
  rw [if_neg notClose, if_neg notOpen]

/-! ## The scan and nested texts -/

/-- The scan passes over a nested text as long as there is room for its groups. -/
theorem scan?_reverse_append {levels depth : Nat} {text : Text} (nested : Nested levels text)
    (room : depth + levels ≤ maxNesting) (inside rest : Text) :
    scan? (depth + 1) inside (text.reverse ++ rest) = scan? (depth + 1) (text ++ inside) rest := by
  induction nested generalizing depth inside rest with
  | nil => rfl
  | @plain levels c text notOpen notClose _ ih =>
      rw [List.reverse_cons, List.append_assoc, ih room, List.singleton_append,
        scan?_plain notOpen notClose, List.cons_append]
  | @group levels inner text _ _ ihInner ihText =>
      have equal : ('(' :: inner ++ ')' :: text).reverse ++ rest
          = text.reverse ++ ')' :: (inner.reverse ++ '(' :: rest) := by simp
      rw [equal, ihText room, scan?_inner_close (by omega),
        ihInner (show depth + 1 + levels ≤ maxNesting by omega), scan?_open]
      simp

/-- A scan that succeeds has passed over a nested text when it meets the
parenthesis that opens the group it is in. -/
theorem exists_open (depth : Nat) (inside text : Text) {answer : Text × Text}
    (found : scan? (depth + 1) inside text = some answer) (room : depth ≤ maxNesting) :
    ∃ group rest, text = group.reverse ++ '(' :: rest ∧ Nested (maxNesting - depth) group := by
  match text with
  | [] => simp [scan?] at found
  | c :: text =>
      by_cases close : c = ')'
      · subst close
        by_cases below : depth < maxNesting
        · -- An inner group starts here.  Its own parenthesis comes first.
          rw [scan?_inner_close below] at found
          obtain ⟨inner, middle, equal, nestedInner⟩ :=
            exists_open (depth + 1) (')' :: inside) text found below
          have shorter : middle.length < text.length := by simp [equal]; omega
          rw [equal, scan?_reverse_append nestedInner (by omega), scan?_open] at found
          obtain ⟨group, rest, rfl, nested⟩ := exists_open depth _ middle found room
          refine ⟨group ++ ('(' :: inner ++ ')' :: []), rest, by simp [equal], nested.append ?_⟩
          have level : maxNesting - depth = maxNesting - (depth + 1) + 1 := by omega
          rw [level]
          exact .group nestedInner .nil
        · rw [scan?_close, if_pos (by omega)] at found
          cases found
      · by_cases opens : c = '('
        · subst opens
          exact ⟨[], text, rfl, .nil⟩
        · rw [scan?_plain opens close] at found
          obtain ⟨group, rest, rfl, nested⟩ := exists_open depth _ text found room
          exact ⟨group ++ [c], rest, by simp, nested.append (.plain opens close .nil)⟩
termination_by text.length
decreasing_by all_goals simp_wf <;> omega

/-- A text is cut exactly where a nested group closes at its end. -/
theorem split?_eq_some_iff {text head inside : Text} :
    split? text = some (head, inside) ↔
      text = head ++ '(' :: inside ++ [')'] ∧ Nested maxNesting inside := by
  constructor
  · intro found
    rw [split?] at found
    split at found
    next last =>
      obtain ⟨front, rfl⟩ := List.getLast?_eq_some_iff.1 last
      rw [List.reverse_append, List.reverse_singleton, List.singleton_append,
        scan?_first_close] at found
      obtain ⟨group, rest, equal, nested⟩ := exists_open 0 [] _ found (Nat.zero_le _)
      rw [equal, scan?_reverse_append nested (by omega), scan?_last_open, List.append_nil] at found
      obtain ⟨rfl, rfl⟩ := Prod.mk.inj (Option.some.inj found)
      refine ⟨?_, nested⟩
      rw [← List.reverse_reverse front, equal]
      simp
    next => simp at found
  · rintro ⟨rfl, nested⟩
    rw [split?, if_pos List.getLast?_concat]
    have equal : (head ++ '(' :: inside ++ [')']).reverse
        = ')' :: (inside.reverse ++ '(' :: head.reverse) := by simp
    rw [equal, scan?_first_close, scan?_reverse_append nested (by omega), scan?_last_open]
    simp

end ArgumentList

end SignatureExport
