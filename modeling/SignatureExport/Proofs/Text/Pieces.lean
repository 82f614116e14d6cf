import Mathlib.Data.List.Basic
import SignatureExport.Text.Basic

/-!
# Pieces between marks

A text is cut at a mark by `List.splitOn` and joined again by `List.intercalate`.
The lemmas here say what the pieces hold.  None holds the mark
(`not_mem_of_mem_splitOn`), other characters are those of the text
(`mem_intercalate_iff`), and there is one piece more than there are marks
(`length_splitOn`).  Two texts side by side have the pieces of both, of which the last of
the first and the first of the second make one (`exists_splitOn_append`).  A search from the
end of a text is a search in the reversed one (`reverse_takeWhile_dropWhile_eq_iff`).
-/

namespace SignatureExport

namespace Text

/-! ## Joining -/

/-- A joined text holds the characters of its pieces, the mark aside. -/
theorem mem_intercalate_iff {mark c : Char} (different : c ≠ mark) {pieces : List Text} :
    c ∈ [mark].intercalate pieces ↔ ∃ piece ∈ pieces, c ∈ piece := by
  induction pieces with
  | nil => simp
  | cons piece others ih =>
      cases others with
      | nil => simp
      | cons next others =>
          rw [List.intercalate_cons_cons, List.mem_append, ih]
          simp [different]

/-- The marks of a joined text are those between its pieces and those inside them. -/
theorem count_intercalate (mark : Char) {pieces : List Text} (nonempty : pieces ≠ []) :
    ([mark].intercalate pieces).count mark + 1 = pieces.length + pieces.flatten.count mark := by
  induction pieces with
  | nil => exact absurd rfl nonempty
  | cons piece others ih =>
      cases others with
      | nil => simp; omega
      | cons next others =>
          have rest := ih (List.cons_ne_nil next others)
          rw [List.intercalate_cons_cons, List.flatten_cons, List.count_append, List.count_append,
            List.count_append, List.count_singleton_self, List.length_cons]
          omega

/-- Two lists of pieces are joined one behind the other. -/
theorem intercalate_append (mark : Char) {front back : List Text} (nonemptyFront : front ≠ [])
    (nonemptyBack : back ≠ []) :
    [mark].intercalate (front ++ back)
      = [mark].intercalate front ++ mark :: [mark].intercalate back := by
  induction front with
  | nil => exact absurd rfl nonemptyFront
  | cons piece front ih =>
      cases front with
      | nil =>
          obtain ⟨first, others, rfl⟩ := List.exists_cons_of_ne_nil nonemptyBack
          simp
      | cons next front =>
          have rest := ih (List.cons_ne_nil next front)
          rw [List.cons_append] at rest
          rw [List.cons_append, List.cons_append, List.intercalate_cons_cons, rest,
            List.intercalate_cons_cons]
          simp only [List.append_assoc]

/-- Pieces of which none is empty make up a text that is not empty. -/
theorem intercalate_eq_nil_iff (mark : Char) {pieces : List Text}
    (nonempty : ∀ piece ∈ pieces, piece ≠ []) : [mark].intercalate pieces = [] ↔ pieces = [] := by
  cases pieces with
  | nil => simp
  | cons piece others =>
      have first := nonempty piece List.mem_cons_self
      cases others with
      | nil => simp [first]
      | cons next others => simp [List.intercalate_cons_cons]

/-- Pieces in front of others are followed by a mark. -/
theorem intercalate_append_back (mark : Char) (front : List Text) {back : List Text}
    (nonempty : back ≠ []) :
    [mark].intercalate (front ++ back)
      = [mark].intercalate (front ++ [[]]) ++ [mark].intercalate back := by
  cases front with
  | nil => simp
  | cons piece front =>
      rw [intercalate_append mark (List.cons_ne_nil piece front) nonempty,
        intercalate_append mark (List.cons_ne_nil piece front) (List.cons_ne_nil [] [])]
      simp

/-- A text in front of the first piece is in front of all. -/
theorem intercalate_cons_append (mark : Char) (front piece : Text) (others : List Text) :
    [mark].intercalate ((front ++ piece) :: others)
      = front ++ [mark].intercalate (piece :: others) := by
  cases others with
  | nil => simp
  | cons next others => simp [List.intercalate_cons_cons]

/-- A joined text with an empty last piece ends with the mark. -/
theorem exists_intercalate_concat_nil (mark : Char) {front : List Text} (nonempty : front ≠ []) :
    ∃ start, [mark].intercalate (front ++ [[]]) = start ++ [mark] :=
  ⟨_, by rw [intercalate_append mark nonempty (List.cons_ne_nil [] []), List.intercalate_singleton]⟩

/-! ## The last element that fails a test -/

section LastFailing

variable {α : Type} {test : α → Bool} {list front back : List α} {a : α}

/-- The elements up to the first that fails a test, and the rest. -/
theorem takeWhile_dropWhile_eq_iff :
    list.takeWhile test = front ∧ list.dropWhile test = a :: back ↔
      list = front ++ a :: back ∧ (∀ b ∈ front, test b = true) ∧ test a = false := by
  constructor
  · rintro ⟨rfl, rest⟩
    have stops := List.head?_dropWhile_not test list
    rw [rest] at stops
    refine ⟨?_, List.all_eq_true.1 List.all_takeWhile, by simpa using stops⟩
    rw [← rest, List.takeWhile_append_dropWhile]
  · rintro ⟨rfl, passes, fails⟩
    rw [List.takeWhile_append_of_pos passes, List.dropWhile_append_of_pos passes,
      List.takeWhile_cons_of_neg (by simp [fails]), List.dropWhile_cons_of_neg (by simp [fails])]
    simp

/-- The elements behind the last that fails a test, and the rest, both in reverse order. -/
theorem reverse_takeWhile_dropWhile_eq_iff :
    list.reverse.takeWhile test = back.reverse ∧ list.reverse.dropWhile test = a :: front.reverse ↔
      list = front ++ a :: back ∧ (∀ b ∈ back, test b = true) ∧ test a = false := by
  have turned : list.reverse = back.reverse ++ a :: front.reverse ↔ list = front ++ a :: back := by
    rw [List.reverse_eq_iff]
    simp
  rw [takeWhile_dropWhile_eq_iff, turned]
  simp

end LastFailing

/-- A search for a character passes over a text that does not hold it. -/
theorem forall_bne_iff {mark : Char} {text : Text} :
    (∀ c ∈ text, (c != mark) = true) ↔ mark ∉ text := by
  simp only [bne_iff_ne]
  exact ⟨fun all inside => all mark inside rfl, fun absent c inside same => absent (same ▸ inside)⟩

/-! ## Cutting -/

/-- A character that a text does not hold stands behind that text. -/
theorem exists_append_of_not_mem {front rest before after : Text} {c : Char} (absent : c ∉ front)
    (equal : front ++ rest = before ++ c :: after) :
    ∃ inner, before = front ++ inner ∧ rest = inner ++ c :: after := by
  rcases List.append_eq_append_iff.1 equal with ⟨inner, rfl, cut⟩ | ⟨more, rfl, cut⟩
  · exact ⟨inner, rfl, cut⟩
  · cases more with
    | nil => exact ⟨[], by simp, cut.symm⟩
    | cons d more =>
        obtain ⟨rfl, -⟩ := List.cons.inj cut
        exact absurd (by simp) absent

theorem cutAt?_eq_none_iff {mark : Char} {text : Text} : cutAt? mark text = none ↔ mark ∉ text := by
  constructor
  · intro uncut marked
    obtain ⟨before, after, equal, fresh⟩ := List.eq_append_cons_of_mem marked
    rw [cutAt?_eq_some_iff.2 ⟨equal, fresh⟩] at uncut
    cases uncut
  · intro absent
    cases cut : cutAt? mark text with
    | none => rfl
    | some parts =>
        obtain ⟨rfl, -⟩ := cutAt?_eq_some_iff.1 cut
        exact absurd (List.mem_append_right _ List.mem_cons_self) absent

theorem splitOn_append_cons (mark : Char) (before after : Text) :
    (before ++ mark :: after).splitOn mark = before.splitOn mark ++ after.splitOn mark :=
  List.splitOnP_append_cons before after (beq_self_eq_true mark)

theorem not_mem_of_mem_splitOn {mark : Char} {text piece : Text}
    (listed : piece ∈ text.splitOn mark) : mark ∉ piece := by
  by_cases marked : mark ∈ text
  · obtain ⟨before, after, rfl, fresh⟩ := List.eq_append_cons_of_mem marked
    rw [splitOn_append_cons, List.splitOn_eq_singleton fresh, List.singleton_append,
      List.mem_cons] at listed
    rcases listed with rfl | later
    · exact fresh
    · have shorter : after.length < (before ++ mark :: after).length := by simp; omega
      exact not_mem_of_mem_splitOn later
  · rw [List.splitOn_eq_singleton marked, List.mem_singleton] at listed
    exact listed ▸ marked
termination_by text.length

/-- A piece holds characters of the text only. -/
theorem mem_of_mem_splitOn {mark c : Char} {text piece : Text}
    (listed : piece ∈ text.splitOn mark) (inside : c ∈ piece) : c ∈ text := by
  have different : c ≠ mark := fun same => not_mem_of_mem_splitOn listed (same ▸ inside)
  have joined : [mark].intercalate (text.splitOn mark) = text := List.intercalate_splitOn mark
  rw [← joined, mem_intercalate_iff different]
  exact ⟨piece, listed, inside⟩

theorem length_splitOn (mark : Char) (text : Text) :
    (text.splitOn mark).length = text.count mark + 1 := by
  have counts := count_intercalate mark (List.splitOn_ne_nil mark text)
  have free : (text.splitOn mark).flatten.count mark = 0 := by
    rw [List.count_eq_zero, List.mem_flatten]
    rintro ⟨piece, listed, inside⟩
    exact not_mem_of_mem_splitOn listed inside
  rw [List.intercalate_splitOn, free] at counts
  omega

/-- Joined pieces come back from a cut if and only if none holds the mark. -/
theorem splitOn_intercalate_iff {mark : Char} {pieces : List Text} (nonempty : pieces ≠ []) :
    ([mark].intercalate pieces).splitOn mark = pieces ↔ ∀ piece ∈ pieces, mark ∉ piece := by
  constructor
  · intro back piece listed
    exact not_mem_of_mem_splitOn (back ▸ listed)
  · exact fun free => List.splitOn_intercalate mark free nonempty

/-- Two texts side by side share a piece. -/
theorem exists_splitOn_append (mark : Char) (first second : Text) :
    ∃ front last next others, first.splitOn mark = front ++ [last] ∧
      second.splitOn mark = next :: others ∧
      (first ++ second).splitOn mark = front ++ (last ++ next) :: others := by
  obtain ⟨next, others, cutSecond⟩ := List.exists_cons_of_ne_nil (List.splitOn_ne_nil mark second)
  rcases List.eq_nil_or_concat (first.splitOn mark) with empty | ⟨front, last, cutFirst⟩
  · exact absurd empty (List.splitOn_ne_nil mark first)
  · rw [List.concat_eq_append] at cutFirst
    refine ⟨front, last, next, others, cutFirst, cutSecond, ?_⟩
    have joined : [mark].intercalate (front ++ (last ++ next) :: others) = first ++ second := by
      have firstJoined : [mark].intercalate (front ++ [last]) = first := by
        rw [← cutFirst, List.intercalate_splitOn]
      have secondJoined : [mark].intercalate (next :: others) = second := by
        rw [← cutSecond, List.intercalate_splitOn]
      rw [intercalate_append_back mark front (List.cons_ne_nil _ _), ← firstJoined, ← secondJoined,
        intercalate_append_back mark front (List.cons_ne_nil last []), List.intercalate_singleton,
        List.append_assoc]
      exact congrArg _ (intercalate_cons_append mark last next others)
    rw [← joined]
    refine (splitOn_intercalate_iff (by simp)).2 ?_
    intro piece listed
    have solidFirst : ∀ piece ∈ front ++ [last], mark ∉ piece := fun piece listed =>
      not_mem_of_mem_splitOn (cutFirst ▸ listed)
    have solidSecond : ∀ piece ∈ next :: others, mark ∉ piece := fun piece listed =>
      not_mem_of_mem_splitOn (cutSecond ▸ listed)
    rw [List.mem_append, List.mem_cons] at listed
    rcases listed with inFront | rfl | inOthers
    · exact solidFirst piece (List.mem_append_left _ inFront)
    · exact List.not_mem_append (solidFirst last (by simp)) (solidSecond next (by simp))
    · exact solidSecond piece (List.mem_cons_of_mem _ inOthers)

end Text

end SignatureExport
