import SignatureExport.Proofs.Text.Nesting
import SignatureExport.Proofs.Text.Trimming
import SignatureExport.Signature.ArgumentList

/-!
# Spelling an argument list

`Spells arguments inside` says how a list of arguments can be written between the
parentheses of an argument list: with a comma between neighbours and with any
blanks around them.  `isArgument_of_mem_ofText` says that all that is ever read from
there is an argument.
-/

namespace SignatureExport

namespace ArgumentList

open Text

/-- Every comma of the text stands inside parentheses. -/
def CommasInside (text : Text) : Prop :=
  ∀ front back, text = front ++ ',' :: back → front.count ')' < front.count '('

theorem commasInside_iff_take {text : Text} :
    CommasInside text ↔ ∀ i < text.length, text[i]? = some ',' →
      (text.take i).count ')' < (text.take i).count '(' := by
  constructor
  · intro commas i _ found
    refine commas (text.take i) (text.drop (i + 1)) ?_
    obtain ⟨bound, comma⟩ := List.getElem?_eq_some_iff.1 found
    rw [← comma, List.getElem_cons_drop, List.take_append_drop]
  · intro commas front back equal
    have counts := commas front.length (by simp [equal]) (by simp [equal])
    rwa [equal, List.take_left] at counts

instance (text : Text) : Decidable (CommasInside text) :=
  decidable_of_iff _ commasInside_iff_take.symm

/-- A text that can be an argument. -/
structure IsArgument (text : Text) : Prop where
  nonempty : text ≠ []
  trimmed : text.trim = text
  nested : Nested maxNesting text
  commas : CommasInside text

instance (text : Text) : Decidable (IsArgument text) :=
  decidable_of_iff (text ≠ [] ∧ text.trim = text ∧ Nested maxNesting text ∧ CommasInside text)
    ⟨fun ⟨nonempty, trimmed, nested, commas⟩ => ⟨nonempty, trimmed, nested, commas⟩,
      fun isArgument => ⟨isArgument.nonempty, isArgument.trimmed, isArgument.nested,
        isArgument.commas⟩⟩

/-- The texts that spell a list of arguments. -/
inductive Spells : List Text → Text → Prop where
  | none {blanks : Text} : AllBlank blanks → Spells [] blanks
  | last {left argument right : Text} : AllBlank left → AllBlank right →
      Spells [argument] (left ++ argument ++ right)
  | more {left argument right next inside : Text} {others : List Text} :
      AllBlank left → AllBlank right → Spells (next :: others) inside →
        Spells (argument :: next :: others) (left ++ argument ++ right ++ ',' :: inside)

/-! ## Texts in which no comma is read -/

/-- A closing parenthesis too many can only keep the depth higher than the count says. -/
theorem count_le_foldl_depthAfter (depth : Nat) (text : Text) :
    depth + text.count '(' ≤ text.foldl depthAfter depth + text.count ')' := by
  induction text generalizing depth with
  | nil => simp
  | cons c rest ih =>
      have step := ih (depthAfter depth c)
      simp only [List.foldl_cons, List.count_cons]
      by_cases opens : c = '('
      · subst opens
        simp only [depthAfter, if_true, beq_self_eq_true] at step ⊢
        simp
        omega
      · by_cases closes : c = ')'
        · subst closes
          simp only [depthAfter, if_neg opens, if_true] at step ⊢
          simp
          omega
        · simp only [depthAfter, if_neg opens, if_neg closes] at step ⊢
          simp [opens, closes]
          omega

theorem foldl_depthAfter_of_nested {levels : Nat} {text : Text} (nested : Nested levels text)
    (depth : Nat) : text.foldl depthAfter depth = depth := by
  induction nested generalizing depth with
  | nil => rfl
  | plain notOpen notClose _ ih =>
      rw [List.foldl_cons, depthAfter, if_neg notOpen, if_neg notClose, ih]
  | group _ _ ihInside ihText =>
      rw [List.foldl_append, List.foldl_cons, List.foldl_cons, ihInside, ihText]
      simp [depthAfter]

/-- A piece is read on over a text that has commas inside groups only. -/
theorem splitCommas_append (depth : Nat) (piece text rest : Text)
    (deep : ∀ front back, text = front ++ ',' :: back → front.foldl depthAfter depth ≠ 0) :
    splitCommas depth piece (text ++ rest)
      = splitCommas (text.foldl depthAfter depth) (text.reverse ++ piece) rest := by
  induction text generalizing depth piece with
  | nil => rfl
  | cons c text ih =>
      have inGroup : ¬ (c = ',' ∧ depth = 0) := by
        intro top
        obtain ⟨rfl, outside⟩ := top
        exact deep [] text rfl outside
      rw [List.cons_append, splitCommas, if_neg inGroup, ih]
      · simp
      · intro front back equal
        have inner := deep (c :: front) back (by rw [equal, List.cons_append])
        rwa [List.foldl_cons] at inner

theorem splitCommas_append_of_commasInside {levels : Nat} {text : Text}
    (nested : Nested levels text) (commas : CommasInside text) (piece rest : Text) :
    splitCommas 0 piece (text ++ rest) = splitCommas 0 (text.reverse ++ piece) rest := by
  rw [splitCommas_append, foldl_depthAfter_of_nested nested]
  intro front back equal
  have counts := commas front back equal
  have depth := count_le_foldl_depthAfter 0 front
  omega

theorem nested_of_allBlank {levels : Nat} {text : Text} (blank : AllBlank text) :
    Nested levels text :=
  .of_plain blank.plain

theorem splitCommas_append_of_allBlank {blanks : Text} (blank : AllBlank blanks) (depth : Nat)
    (piece rest : Text) :
    splitCommas depth piece (blanks ++ rest) = splitCommas depth (blanks.reverse ++ piece) rest := by
  have nested : Nested 0 blanks := nested_of_allBlank blank
  rw [splitCommas_append, foldl_depthAfter_of_nested nested]
  intro front back equal
  exact absurd (by simp [equal]) (blank.not_mem (show isBlank ',' = false by decide))

/-! ## The pieces between the commas -/

/-- Blanks in front of a piece do not change what is left of it. -/
theorem map_trim_splitCommas_blanks {blanks : Text} (blank : AllBlank blanks) (depth : Nat)
    (piece text : Text) :
    (splitCommas depth (piece ++ blanks) text).map trim
      = (splitCommas depth piece text).map trim := by
  induction text generalizing depth piece with
  | nil =>
      rw [splitCommas, splitCommas, List.map_singleton, List.map_singleton, List.reverse_append,
        trim_append_of_allBlank_left blank.reverse]
  | cons c rest ih =>
      rw [splitCommas, splitCommas]
      split
      next =>
        rw [List.map_cons, List.map_cons, List.reverse_append,
          trim_append_of_allBlank_left blank.reverse]
      next => exact ih _ (c :: piece)

/-- Blanks behind the last piece do not change what is left of it. -/
theorem map_trim_splitCommas_append_blanks {blanks : Text} (blank : AllBlank blanks) (depth : Nat)
    (piece text : Text) :
    (splitCommas depth piece (text ++ blanks)).map trim
      = (splitCommas depth piece text).map trim := by
  induction text generalizing depth piece with
  | nil =>
      have read := splitCommas_append_of_allBlank blank depth piece []
      rw [List.append_nil] at read
      rw [List.nil_append, read, splitCommas, splitCommas, List.map_singleton, List.map_singleton,
        List.reverse_append, List.reverse_reverse, trim_append_of_allBlank_right blank]
  | cons c rest ih =>
      rw [List.cons_append, splitCommas, splitCommas]
      split
      next => rw [List.map_cons, List.map_cons, ih]
      next => exact ih _ (c :: piece)

theorem map_trim_splitCommas_trim (text : Text) :
    (splitCommas 0 [] text.trim).map trim = (splitCommas 0 [] text).map trim := by
  obtain ⟨front, back, blankFront, blankBack, equal⟩ := exists_trim text
  have whole : (splitCommas 0 [] text).map trim
      = (splitCommas 0 [] (front ++ text.trim)).map trim := by
    conv => lhs; rw [equal]
    exact map_trim_splitCommas_append_blanks blankBack 0 [] _
  rw [whole, splitCommas_append_of_allBlank blankFront, List.append_nil,
    ← List.nil_append front.reverse, map_trim_splitCommas_blanks blankFront.reverse]

/-- The blanks around the text in an argument list do not count. -/
theorem ofText_eq (inside : Text) :
    ofText inside = if inside.trim = "void".toList then []
      else ((splitCommas 0 [] inside).map trim).filter (· ≠ []) := by
  rw [ofText, map_trim_splitCommas_trim]

/-! ## Spelled lists -/

theorem nested_of_spells {arguments : List Text} {inside : Text}
    (spelled : Spells arguments inside) (proper : ∀ argument ∈ arguments, IsArgument argument) :
    Nested maxNesting inside := by
  induction spelled with
  | none blank => exact nested_of_allBlank blank
  | last blankLeft blankRight =>
      exact ((nested_of_allBlank blankLeft).append (proper _ List.mem_cons_self).nested).append
        (nested_of_allBlank blankRight)
  | more blankLeft blankRight _ ih =>
      refine (((nested_of_allBlank blankLeft).append (proper _ List.mem_cons_self).nested).append
        (nested_of_allBlank blankRight)).append (.plain (by decide) (by decide) (ih ?_))
      exact fun other listed => proper other (List.mem_cons_of_mem _ listed)

/-- Blanks can be written before the first argument. -/
theorem Spells.blanks_append {arguments : List Text} {inside blanks : Text}
    (spelled : Spells arguments inside) (blank : AllBlank blanks) :
    Spells arguments (blanks ++ inside) := by
  cases spelled with
  | none others => exact .none (allBlank_append.2 ⟨blank, others⟩)
  | @last left argument right blankLeft blankRight =>
      have equal : blanks ++ (left ++ argument ++ right) = blanks ++ left ++ argument ++ right := by
        simp
      rw [equal]
      exact .last (allBlank_append.2 ⟨blank, blankLeft⟩) blankRight
  | @more left argument right next inside others blankLeft blankRight spelled =>
      have equal : blanks ++ (left ++ argument ++ right ++ ',' :: inside)
          = blanks ++ left ++ argument ++ right ++ ',' :: inside := by simp
      rw [equal]
      exact .more (allBlank_append.2 ⟨blank, blankLeft⟩) blankRight spelled

/-- A list with a comma and a space between neighbours is spelled. -/
theorem spells_intercalate (arguments : List Text) :
    Spells arguments ([',', ' '].intercalate arguments) := by
  induction arguments with
  | nil => exact .none allBlank_nil
  | cons argument others ih =>
      cases others with
      | nil =>
          have equal : [',', ' '].intercalate [argument] = [] ++ argument ++ [] := by simp
          rw [equal]
          exact .last allBlank_nil allBlank_nil
      | cons next others =>
          have space : AllBlank [' '] := by decide
          have equal : [',', ' '].intercalate (argument :: next :: others)
              = [] ++ argument ++ [] ++ ',' :: ([' '] ++ [',', ' '].intercalate (next :: others)) := by
            simp [List.intercalate_cons_cons]
          rw [equal]
          exact .more allBlank_nil allBlank_nil (ih.blanks_append space)

/-! ## What is read is an argument -/

theorem commasInside_concat {text : Text} {c : Char} (commas : CommasInside text)
    (deep : c = ',' → text.count ')' < text.count '(') : CommasInside (text ++ [c]) := by
  intro front back equal
  rcases List.eq_nil_or_concat back with rfl | ⟨more, d, rfl⟩
  · obtain ⟨rfl, same⟩ := List.append_inj' equal rfl
    exact deep (List.cons.inj same).1
  · have cut : text ++ [c] = front ++ ',' :: more ++ [d] := by simpa using equal
    exact commas front more (List.append_inj' cut rfl).1

theorem isNestedFrom_cons_iff {levels depth : Nat} {c : Char} {rest : Text} :
    isNestedFrom levels depth (c :: rest) = true ↔
      (c = '(' → depth < levels) ∧ (c = ')' → depth ≠ 0) ∧
        isNestedFrom levels (depthAfter depth c) rest = true := by
  rw [isNestedFrom, depthAfter]
  by_cases opens : c = '('
  · simp [opens]
  · by_cases closes : c = ')'
    · simp [closes]
    · simp [opens, closes]

/-- What is known of a piece, written last character first, while `depth` groups
are open in it: what closes the groups completes the piece to a nested text. -/
structure OpenPiece (levels depth : Nat) (piece : Text) : Prop where
  closes : ∀ rest, isNestedFrom levels depth rest = true →
    isNestedFrom levels 0 (piece.reverse ++ rest) = true
  commas : CommasInside piece.reverse
  count : piece.count '(' = piece.count ')' + depth

theorem openPiece_nil (levels : Nat) : OpenPiece levels 0 [] where
  closes := fun _ nested => nested
  commas := fun front back equal => by simp at equal
  count := rfl

/-- A character keeps a piece open as long as counting allows it. -/
theorem OpenPiece.cons {levels depth : Nat} {piece : Text} {c : Char}
    (opened : OpenPiece levels depth piece) (notTop : ¬ (c = ',' ∧ depth = 0))
    (room : c = '(' → depth < levels) (within : c = ')' → depth ≠ 0) :
    OpenPiece levels (depthAfter depth c) (c :: piece) where
  closes := by
    intro rest nested
    rw [List.reverse_cons, List.append_assoc, List.singleton_append]
    exact opened.closes _ (isNestedFrom_cons_iff.2 ⟨room, within, nested⟩)
  commas := by
    rw [List.reverse_cons]
    refine commasInside_concat opened.commas fun comma => ?_
    have positive : depth ≠ 0 := fun outside => notTop ⟨comma, outside⟩
    have count := opened.count
    rw [List.count_reverse, List.count_reverse]
    omega
  count := by
    have count := opened.count
    by_cases opens : c = '('
    · simp [opens, depthAfter]
      omega
    · by_cases closes : c = ')'
      · have positive := within closes
        simp [closes, depthAfter]
        omega
      · simp [opens, closes, depthAfter, count]

/-- The pieces of a nested text are nested, and their commas stand inside groups. -/
theorem nested_of_mem_splitCommas {levels depth : Nat} {piece text : Text}
    (opened : OpenPiece levels depth piece) (nested : isNestedFrom levels depth text = true) :
    ∀ found ∈ splitCommas depth piece text, Nested levels found ∧ CommasInside found := by
  induction text generalizing depth piece with
  | nil =>
      intro found listed
      obtain rfl : depth = 0 := by simpa [isNestedFrom] using nested
      obtain rfl : found = piece.reverse := by simpa [splitCommas] using listed
      have complete := opened.closes [] nested
      rw [List.append_nil] at complete
      exact ⟨nested_iff_isNested.2 complete, opened.commas⟩
  | cons c rest ih =>
      intro found listed
      obtain ⟨room, within, nestedRest⟩ := isNestedFrom_cons_iff.1 nested
      rw [splitCommas] at listed
      split at listed
      next top =>
        obtain ⟨rfl, rfl⟩ := top
        rcases List.mem_cons.1 listed with rfl | later
        · have complete := opened.closes [] rfl
          rw [List.append_nil] at complete
          exact ⟨nested_iff_isNested.2 complete, opened.commas⟩
        · exact ih (openPiece_nil levels) nestedRest found later
      next notTop => exact ih (opened.cons notTop room within) nestedRest found listed

/-- Trimming keeps a text nested, since blanks are no parentheses. -/
theorem nested_trim {levels : Nat} {text : Text} (nested : Nested levels text) :
    Nested levels text.trim := by
  obtain ⟨front, back, blankFront, blankBack, equal⟩ := exists_trim text
  rw [nested_iff_isNested, isNested, equal,
    isNestedFrom_append_of_plain_right blankBack.plain,
    isNestedFrom_append_of_plain_left blankFront.plain] at nested
  exact nested_iff_isNested.2 nested

theorem commasInside_trim {text : Text} (commas : CommasInside text) : CommasInside text.trim := by
  obtain ⟨left, right, blankLeft, -, equal⟩ := exists_trim text
  intro front back cut
  have counts := commas (left ++ front) (back ++ right) (by rw [equal, cut]; simp)
  have noOpen : left.count '(' = 0 :=
    List.count_eq_zero.2 (blankLeft.not_mem (by decide))
  have noClose : left.count ')' = 0 :=
    List.count_eq_zero.2 (blankLeft.not_mem (by decide))
  simpa [noOpen, noClose] using counts

/-- What is read from a nested text is a trimmed text that nests no deeper. -/
theorem parts_of_mem_ofText {levels : Nat} {inside argument : Text} (nested : Nested levels inside)
    (listed : argument ∈ ofText inside) :
    argument ≠ [] ∧ argument.trim = argument ∧ Nested levels argument ∧ CommasInside argument := by
  rw [ofText_eq] at listed
  split at listed
  next => simp at listed
  next =>
    obtain ⟨piece, nonempty⟩ := List.mem_filter.1 listed
    obtain ⟨whole, found, rfl⟩ := List.mem_map.1 piece
    obtain ⟨nestedWhole, commas⟩ :=
      nested_of_mem_splitCommas (openPiece_nil levels) (nested_iff_isNested.1 nested) whole found
    exact ⟨by simpa using nonempty, trim_trim whole, nested_trim nestedWhole,
      commasInside_trim commas⟩

/-- Whatever is read from an argument list is an argument. -/
theorem isArgument_of_mem_ofText {inside argument : Text} (nested : Nested maxNesting inside)
    (listed : argument ∈ ofText inside) : IsArgument argument := by
  obtain ⟨nonempty, trimmed, nestedArgument, commas⟩ := parts_of_mem_ofText nested listed
  exact ⟨nonempty, trimmed, nestedArgument, commas⟩

end ArgumentList

end SignatureExport
