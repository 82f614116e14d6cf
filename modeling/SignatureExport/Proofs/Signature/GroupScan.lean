import SignatureExport.Proofs.Signature.ArgumentGroup

/-!
# The run of the scan

`Reaches` follows the scan of a text turn by turn, and `Stops` says what ends it.  A
parenthesis that opens a group takes one from the count of open groups, and the count is
not zero then (`Reaches.depth_pos`).  The reason is the first turn: a scan starts only at
a parenthesis that closes a group, and it ends when that group is complete.  So each
scan runs until it stops, and what it stops with is the answer (`exists_stops`).

The answer does not mention the run.  A text is cut where a group closes at its end that
is balanced when it is read from the left (`split?_exact`).
-/

namespace SignatureExport

namespace ArgumentList

open Text (Balanced)

/-! ## Turns -/

/-- The scan of a text gets to a state.  `depth` groups are open, `inside` was read in the
outermost one, and `left` is left to read, last character first. -/
inductive Reaches (text : Text) : Nat → Text → Text → Prop where
  /-- The scan starts at a closing parenthesis. -/
  | start : text.getLast? = some ')' → Reaches text 0 [] text.reverse
  /-- A closing parenthesis opens a group, if there is room for it. -/
  | close {depth : Nat} {inside rest : Text} : Reaches text depth inside (')' :: rest) →
      depth ≤ maxNesting →
      Reaches text (depth + 1) (if depth = 0 then inside else ')' :: inside) rest
  /-- An opening parenthesis completes a group.  It is not the last one. -/
  | opens {depth : Nat} {inside rest : Text} : Reaches text depth inside ('(' :: rest) →
      depth - 1 ≠ 0 → Reaches text (depth - 1) ('(' :: inside) rest
  /-- Any other character is passed over. -/
  | plain {depth : Nat} {inside rest : Text} {c : Char} : Reaches text depth inside (c :: rest) →
      c ≠ '(' → c ≠ ')' → Reaches text depth (c :: inside) rest

/-- A state in which the scan stops, and its answer there. -/
inductive Stops : Nat → Text → Text → Option (Text × Text) → Prop where
  /-- The text was read to its start. -/
  | exhausted {depth : Nat} {inside : Text} : Stops depth inside [] none
  /-- There is no room for another group. -/
  | tooDeep {depth : Nat} {inside rest : Text} : maxNesting < depth →
      Stops depth inside (')' :: rest) none
  /-- The outermost group is complete. -/
  | complete {inside rest : Text} : Stops 1 inside ('(' :: rest) (some (rest.reverse, inside))

variable {text inside left rest : Text} {depth : Nat}

/-! ## Open groups -/

/-- Before the first group is open, a closing parenthesis comes next. -/
theorem Reaches.exists_close (reaches : Reaches text depth inside left) (outside : depth = 0) :
    ∃ rest, left = ')' :: rest := by
  induction reaches with
  | start last =>
      obtain ⟨front, rfl⟩ := List.getLast?_eq_some_iff.1 last
      exact ⟨front.reverse, by simp⟩
  | close => exact absurd outside (Nat.succ_ne_zero _)
  | opens _ more => exact absurd outside more
  | plain _ _ notClose ih =>
      obtain ⟨rest, equal⟩ := ih outside
      exact absurd (List.cons.inj equal).1 notClose

/-- A group is open whenever the scan meets an opening parenthesis. -/
theorem Reaches.depth_pos (reaches : Reaches text depth inside ('(' :: rest)) : 1 ≤ depth := by
  refine Nat.one_le_iff_ne_zero.2 fun outside => ?_
  obtain ⟨rest, equal⟩ := reaches.exists_close outside
  exact absurd (List.cons.inj equal).1 (by decide)

/-- The open groups are the closing parentheses that were read, less the opening ones. -/
theorem Reaches.exists_read (reaches : Reaches text depth inside left) :
    ∃ read, text = left.reverse ++ read ∧ depth + read.count '(' = read.count ')' := by
  induction reaches with
  | start => exact ⟨[], by simp⟩
  | close _ _ ih =>
      obtain ⟨read, equal, counts⟩ := ih
      refine ⟨')' :: read, by simpa using equal, ?_⟩
      rw [List.count_cons_of_ne (by decide), List.count_cons_self]
      omega
  | opens reaches _ ih =>
      obtain ⟨read, equal, counts⟩ := ih
      have positive := reaches.depth_pos
      refine ⟨'(' :: read, by simpa using equal, ?_⟩
      rw [List.count_cons_self, List.count_cons_of_ne (by decide)]
      omega
  | @plain depth inside rest c _ notOpen notClose ih =>
      obtain ⟨read, equal, counts⟩ := ih
      exact ⟨c :: read, by simpa using equal, by simpa [notOpen, notClose] using counts⟩

/-! ## The answer -/

/-- A turn does not change the answer. -/
theorem Reaches.scan?_eq (reaches : Reaches text depth inside left) :
    scan? depth inside left = split? text := by
  induction reaches with
  | start last => rw [split?, if_pos last]
  | close _ room ih => rw [← ih, scan?_close, if_neg (Nat.not_lt.2 room)]
  | @opens depth inside rest _ more ih =>
      obtain ⟨outer, rfl⟩ : ∃ outer, depth = outer + 2 := ⟨depth - 2, by omega⟩
      rw [← ih, scan?_open]
      rfl
  | plain _ notOpen notClose ih => rw [← ih, scan?_plain notOpen notClose]

theorem Stops.scan?_eq {answer : Option (Text × Text)} (stops : Stops depth inside left answer) :
    scan? depth inside left = answer := by
  cases stops with
  | exhausted => rw [scan?]
  | tooDeep deep => rw [scan?_close, if_pos deep]
  | complete => rw [scan?_last_open]

/-- A state that the scan gets to has no other answer than the one of the text. -/
theorem Reaches.stops {answer : Option (Text × Text)} (reaches : Reaches text depth inside left)
    (stops : Stops depth inside left answer) : Stops depth inside left (split? text) := by
  rw [← reaches.scan?_eq, stops.scan?_eq]
  exact stops

/-- From each of its states a scan goes on until it stops. -/
theorem Reaches.exists_stops (reaches : Reaches text depth inside left) :
    ∃ depth inside left, Reaches text depth inside left ∧ Stops depth inside left (split? text) := by
  induction left generalizing depth inside with
  | nil => exact ⟨depth, inside, [], reaches, reaches.stops .exhausted⟩
  | cons c rest ih =>
      by_cases close : c = ')'
      · subst close
        by_cases room : depth ≤ maxNesting
        · exact ih (reaches.close room)
        · have deep : maxNesting < depth := Nat.lt_of_not_le room
          exact ⟨depth, inside, ')' :: rest, reaches, reaches.stops (.tooDeep deep)⟩
      · by_cases opens : c = '('
        · subst opens
          have positive := reaches.depth_pos
          by_cases last : depth = 1
          · subst last
            exact ⟨1, inside, '(' :: rest, reaches, reaches.stops .complete⟩
          · exact ih (reaches.opens (by omega))
        · exact ih (reaches.plain opens close)

/-! ## The group at the end -/

/-- A text ends with a group.  Its inside is balanced and opens at most `maxNesting` groups
at a time. -/
structure EndsWithGroup (text head inside : Text) : Prop where
  whole : text = head ++ '(' :: inside ++ [')']
  balanced : Balanced maxNesting inside

theorem endsWithGroup_iff {head : Text} :
    EndsWithGroup text head inside ↔ split? text = some (head, inside) := by
  rw [split?_eq_some_iff, Text.nested_iff_balanced]
  exact ⟨fun ⟨whole, balanced⟩ => ⟨whole, balanced⟩, fun ⟨whole, balanced⟩ => ⟨whole, balanced⟩⟩

/-- A text is cut at the group that it ends with, and there is at most one.  The scan that
finds the group runs until it stops, and a group is open whenever it meets an opening
parenthesis. -/
theorem split?_exact (text : Text) :
    (∀ head inside, split? text = some (head, inside) ↔ EndsWithGroup text head inside) ∧
    (split? text = none ↔ ∀ head inside, ¬ EndsWithGroup text head inside) ∧
    (∀ head inside other within, EndsWithGroup text head inside →
      EndsWithGroup text other within → head = other ∧ inside = within) ∧
    -- the count of open groups is what was read, and is not zero when one is taken from it
    (∀ depth inside left, Reaches text depth inside left →
      ∃ read, text = left.reverse ++ read ∧ depth + read.count '(' = read.count ')') ∧
    (∀ depth inside rest, Reaches text depth inside ('(' :: rest) → 1 ≤ depth) ∧
    -- a scan that starts gets to a state in which it stops with the answer
    (text.getLast? ≠ some ')' → split? text = none) ∧
    (text.getLast? = some ')' → ∃ depth inside left, Reaches text depth inside left ∧
      Stops depth inside left (split? text)) := by
  refine ⟨fun head inside => endsWithGroup_iff.symm, ?_, ?_, fun _ _ _ => Reaches.exists_read,
    fun _ _ _ => Reaches.depth_pos, ?_, fun last => (Reaches.start last).exists_stops⟩
  · rw [Option.eq_none_iff_forall_ne_some, Prod.forall]
    simp only [endsWithGroup_iff, ne_eq]
  · intro head inside other within one two
    rw [endsWithGroup_iff] at one two
    exact Prod.mk.inj (Option.some.inj (one.symm.trans two))
  · intro last
    rw [split?, if_neg last]

end ArgumentList

end SignatureExport
