import Mathlib.Data.List.Induction
import SignatureExport.Proofs.Signature.ArgumentSpelling
import SignatureExport.Proofs.Text.Pieces

/-!
# Separating arguments

`Separated pieces text` says that a text writes a list of pieces in order, with gaps of
blanks and commas around them and with a comma in each gap between neighbours.  Every
text is such a text for what is read from it (`separated_ofText`), so nothing but gaps is
lost.  Pieces whose parentheses are balanced, to any depth, are read back from such a text
(`kept_of_separated`), and so are arguments from a text that spells them
(`ofText_of_spells`).

A comma separates only where no group is open.  Where one is, the comma stays in its
argument (`exists_argument_around`).
-/

namespace SignatureExport

namespace ArgumentList

open Text

/-- A gap between arguments: blanks and commas only. -/
def IsGap (text : Text) : Prop := ∀ c ∈ text, isBlank c = true ∨ c = ','

instance (text : Text) : Decidable (IsGap text) :=
  List.decidableBAll _ text

/-- A text that is one argument of a list.  Its groups nest to any depth. -/
structure IsPiece (text : Text) : Prop where
  nonempty : text ≠ []
  trimmed : text.trim = text
  nested : ∃ levels, Nested levels text
  commas : CommasInside text

/-- The texts that write a list of pieces. -/
inductive Separated : List Text → Text → Prop where
  | none {gap : Text} : IsGap gap → Separated [] gap
  | last {front piece back : Text} : IsGap front → IsGap back →
      Separated [piece] (front ++ piece ++ back)
  | more {front piece gap next rest : Text} {others : List Text} : IsGap front → IsGap gap →
      Separated (next :: others) rest →
        Separated (piece :: next :: others) (front ++ piece ++ gap ++ ',' :: rest)

/-- A group is open behind a text: an end of the text opens more groups than it closes. -/
def GroupOpen (front : Text) : Prop :=
  ∃ opened, opened <:+ front ∧ opened.count ')' < opened.count '('

/-- What is left of the pieces between commas.  Blanks around a piece are dropped, and so
is a piece of blanks only. -/
def kept (pieces : List Text) : List Text := (pieces.map trim).filter (· ≠ [])

/-! ## Open groups -/

theorem exists_opened_concat_iff {front : Text} {c : Char} {n : Nat} :
    (∃ opened, opened <:+ front ++ [c] ∧ opened.count ')' + (n + 1) ≤ opened.count '(') ↔
      ∃ opened, opened <:+ front ∧
        opened.count ')' + [c].count ')' + (n + 1) ≤ opened.count '(' + [c].count '(' := by
  constructor
  · rintro ⟨opened, ending, counts⟩
    rcases List.suffix_concat_iff.1 ending with rfl | ⟨shorter, rfl, inFront⟩
    · simp at counts
    · exact ⟨shorter, inFront, by simpa only [List.count_append] using counts⟩
  · rintro ⟨opened, ending, counts⟩
    exact ⟨opened ++ [c], List.suffix_append_self_iff.2 ending,
      by simpa only [List.count_append] using counts⟩

/-- The depth is the number of groups that some end of the text leaves open. -/
theorem le_foldl_depthAfter_iff {n : Nat} {front : Text} :
    n ≤ front.foldl depthAfter 0 ↔
      ∃ opened, opened <:+ front ∧ opened.count ')' + n ≤ opened.count '(' := by
  induction front using List.reverseRecOn generalizing n with
  | nil => simp
  | append_singleton front c ih =>
      rw [List.foldl_append, List.foldl_cons, List.foldl_nil, depthAfter]
      cases n with
      | zero => exact iff_of_true (Nat.zero_le _) ⟨[], List.nil_suffix, Nat.le_refl _⟩
      | succ n =>
          rw [exists_opened_concat_iff]
          by_cases opens : c = '('
          · subst opens
            rw [if_pos rfl, Nat.succ_le_succ_iff, ih]
            simp [← Nat.add_assoc]
          · by_cases closes : c = ')'
            · subst closes
              have deeper : n + 1 ≤ front.foldl depthAfter 0 - 1 ↔
                  n + 2 ≤ front.foldl depthAfter 0 := by omega
              rw [if_neg opens, if_pos rfl, deeper, ih]
              simp [Nat.add_comm, Nat.add_left_comm]
            · rw [if_neg opens, if_neg closes, ih]
              simp [opens, closes]

theorem groupOpen_iff {front : Text} : GroupOpen front ↔ front.foldl depthAfter 0 ≠ 0 := by
  rw [← Nat.one_le_iff_ne_zero, le_foldl_depthAfter_iff]
  rfl

/-! ## Reading a list back -/

theorem ofText_eq_kept (inside : Text) :
    ofText inside = if inside.trim = "void".toList then [] else kept (splitCommas 0 [] inside) :=
  ofText_eq inside

theorem kept_cons_of_allBlank {piece : Text} (blank : AllBlank piece) (others : List Text) :
    kept (piece :: others) = kept others := by
  simp [kept, trim_of_allBlank blank]

theorem kept_cons_of_trim {piece : Text} (nonempty : piece.trim ≠ []) (others : List Text) :
    kept (piece :: others) = piece.trim :: kept others := by
  simp [kept, nonempty]

theorem isGap_append {first second : Text} (gapFirst : IsGap first) (gapSecond : IsGap second) :
    IsGap (first ++ second) := by
  intro c inside
  rcases List.mem_append.1 inside with inFirst | inSecond
  · exact gapFirst c inFirst
  · exact gapSecond c inSecond

theorem isGap_of_allBlank {blanks : Text} (blank : AllBlank blanks) : IsGap blanks :=
  fun c inside => .inl (blank c inside)

theorem isGap_cons {c : Char} {gap : Text} :
    IsGap (c :: gap) ↔ (isBlank c = true ∨ c = ',') ∧ IsGap gap := by
  simp [IsGap]

/-- A comma outside groups ends a piece. -/
theorem splitCommas_comma (piece rest : Text) :
    splitCommas 0 piece (',' :: rest) = piece.reverse :: splitCommas 0 [] rest := by
  rw [splitCommas, if_pos ⟨rfl, rfl⟩]

/-- A gap in front of a list is dropped. -/
theorem kept_splitCommas_gap {gap : Text} (isGap : IsGap gap) (rest : Text) :
    kept (splitCommas 0 [] (gap ++ rest)) = kept (splitCommas 0 [] rest) := by
  induction gap with
  | nil => rfl
  | cons c gap ih =>
      obtain ⟨first, isGapRest⟩ := isGap_cons.1 isGap
      rcases first with blank | rfl
      · have single : AllBlank [c] := by simp [blank, allBlank_nil]
        have passed := map_trim_splitCommas_blanks single.reverse 0 [] (gap ++ rest)
        rw [List.nil_append] at passed
        rw [List.cons_append, ← List.singleton_append, splitCommas_append_of_allBlank single,
          List.append_nil, kept, passed]
        exact ih isGapRest
      · rw [List.cons_append, splitCommas_comma, List.reverse_nil,
          kept_cons_of_allBlank allBlank_nil]
        exact ih isGapRest

theorem kept_splitCommas_of_gap {gap : Text} (isGap : IsGap gap) :
    kept (splitCommas 0 [] gap) = [] := by
  have passed := kept_splitCommas_gap isGap []
  rw [List.append_nil] at passed
  rw [passed, splitCommas, List.reverse_nil, kept_cons_of_allBlank allBlank_nil]
  rfl

/-- A gap ends a piece, if a comma or the end of the text stands behind it. -/
theorem kept_splitCommas_piece {piece gap rest : Text} (nonempty : piece.trim ≠ [])
    (isGap : IsGap gap) (ended : ∀ c ∈ rest.head?, c = ',') :
    kept (splitCommas 0 piece.reverse (gap ++ rest))
      = piece.trim :: kept (splitCommas 0 [] rest) := by
  induction gap generalizing piece with
  | nil =>
      cases rest with
      | nil =>
          rw [List.nil_append, splitCommas, List.reverse_reverse, kept_cons_of_trim nonempty,
            kept_splitCommas_of_gap isGap]
          rfl
      | cons c rest =>
          obtain rfl : c = ',' := ended c rfl
          rw [List.nil_append, splitCommas_comma, splitCommas_comma, List.reverse_reverse,
            kept_cons_of_trim nonempty, List.reverse_nil, kept_cons_of_allBlank allBlank_nil]
  | cons c gap ih =>
      obtain ⟨first, isGapRest⟩ := isGap_cons.1 isGap
      rcases first with blank | rfl
      · have single : AllBlank [c] := by simp [blank, allBlank_nil]
        have same : (piece ++ [c]).trim = piece.trim := trim_append_of_allBlank_right single piece
        have longer := @ih (piece ++ [c]) (by rwa [same]) isGapRest
        rw [same] at longer
        rw [List.cons_append, ← List.singleton_append, splitCommas_append_of_allBlank single,
          ← List.reverse_append]
        exact longer
      · rw [List.cons_append, splitCommas_comma, List.reverse_reverse, kept_cons_of_trim nonempty,
          kept_splitCommas_gap isGapRest]

/-- The pieces that a text writes are what is left between its commas. -/
theorem kept_of_separated {pieces : List Text} {text : Text} (separated : Separated pieces text)
    (proper : ∀ piece ∈ pieces, IsPiece piece) : kept (splitCommas 0 [] text) = pieces := by
  have read {front piece gap rest : Text} (isPiece : IsPiece piece) (gapFront : IsGap front)
      (isGap : IsGap gap) (ended : ∀ c ∈ rest.head?, c = ',') :
      kept (splitCommas 0 [] (front ++ piece ++ gap ++ rest))
        = piece :: kept (splitCommas 0 [] rest) := by
    obtain ⟨nonempty, trimmed, ⟨levels, nested⟩, commas⟩ := isPiece
    have nonemptyTrim : piece.trim ≠ [] := by rwa [trimmed]
    have readPiece := kept_splitCommas_piece nonemptyTrim isGap ended
    rw [List.append_assoc, List.append_assoc, kept_splitCommas_gap gapFront,
      splitCommas_append_of_commasInside nested commas, List.append_nil, readPiece, trimmed]
  induction separated with
  | none isGap => exact kept_splitCommas_of_gap isGap
  | @last front piece back gapFront gapBack =>
      have isPiece := proper piece List.mem_cons_self
      rw [← List.append_nil (front ++ piece ++ back), read isPiece gapFront gapBack (by simp),
        kept_splitCommas_of_gap (by simp [IsGap])]
  | @more front piece gap next rest others gapFront isGap _ ih =>
      have isPiece := proper piece List.mem_cons_self
      have readRest := ih fun other listed => proper other (List.mem_cons_of_mem piece listed)
      rw [read isPiece gapFront isGap (by simp), splitCommas_comma, List.reverse_nil,
        kept_cons_of_allBlank allBlank_nil, readRest]

/-- A spelled list is written with gaps of blanks. -/
theorem separated_of_spells {arguments : List Text} {inside : Text}
    (spelled : Spells arguments inside) : Separated arguments inside := by
  induction spelled with
  | none blank => exact .none (isGap_of_allBlank blank)
  | last blankLeft blankRight =>
      exact .last (isGap_of_allBlank blankLeft) (isGap_of_allBlank blankRight)
  | more blankLeft blankRight _ ih =>
      exact .more (isGap_of_allBlank blankLeft) (isGap_of_allBlank blankRight) ih

theorem IsArgument.isPiece {argument : Text} (isArgument : IsArgument argument) :
    IsPiece argument :=
  ⟨isArgument.nonempty, isArgument.trimmed, ⟨maxNesting, isArgument.nested⟩, isArgument.commas⟩

/-- A spelled list is read back, unless it is a lone `void`. -/
theorem ofText_of_spells {arguments : List Text} {inside : Text}
    (spelled : Spells arguments inside) (proper : ∀ argument ∈ arguments, IsArgument argument)
    (notVoid : arguments ≠ ["void".toList]) : ofText inside = arguments := by
  have read := kept_of_separated (separated_of_spells spelled) fun argument listed =>
    (proper argument listed).isPiece
  rw [ofText_eq_kept]
  split
  next void =>
    -- The text is `void` with blanks around it, so its only piece is `void`.
    rw [kept, ← map_trim_splitCommas_trim, void] at read
    exact absurd read.symm notVoid
  next => exact read

/-! ## What is read is written in the text -/

/-- A gap can be written in front of a list. -/
theorem Separated.gap_append {pieces : List Text} {text gap : Text}
    (separated : Separated pieces text) (isGap : IsGap gap) : Separated pieces (gap ++ text) := by
  cases separated with
  | none other => exact .none (isGap_append isGap other)
  | @last front piece back gapFront gapBack =>
      have equal : gap ++ (front ++ piece ++ back) = gap ++ front ++ piece ++ back := by simp
      rw [equal]
      exact .last (isGap_append isGap gapFront) gapBack
  | @more front piece between next rest others gapFront gapBetween separated =>
      have equal : gap ++ (front ++ piece ++ between ++ ',' :: rest)
          = gap ++ front ++ piece ++ between ++ ',' :: rest := by simp
      rw [equal]
      exact .more (isGap_append isGap gapFront) gapBetween separated

theorem splitCommas_ne_nil (depth : Nat) (piece text : Text) :
    splitCommas depth piece text ≠ [] := by
  induction text generalizing depth piece with
  | nil => simp [splitCommas]
  | cons c rest ih =>
      rw [splitCommas]
      split
      next => exact List.cons_ne_nil _ _
      next => exact ih _ _

theorem intercalate_cons {piece : Text} {others : List Text} (nonempty : others ≠ []) :
    [','].intercalate (piece :: others) = piece ++ ',' :: [','].intercalate others := by
  have joined := intercalate_append ',' (List.cons_ne_nil piece []) nonempty
  rwa [List.intercalate_singleton] at joined

/-- Cutting a text at commas loses the commas only. -/
theorem intercalate_splitCommas (depth : Nat) (piece text : Text) :
    [','].intercalate (splitCommas depth piece text) = piece.reverse ++ text := by
  induction text generalizing depth piece with
  | nil => simp [splitCommas]
  | cons c rest ih =>
      rw [splitCommas]
      split
      next top => rw [intercalate_cons (splitCommas_ne_nil 0 [] rest), ih, top.1]; rfl
      next => simpa using ih (depthAfter depth c) (c :: piece)

theorem isGap_of_separated_nil {text : Text} (separated : Separated [] text) : IsGap text := by
  cases separated with
  | none isGap => exact isGap

/-- Pieces joined by commas write what is left of them. -/
theorem separated_kept {pieces : List Text} (nonempty : pieces ≠ []) :
    Separated (kept pieces) ([','].intercalate pieces) := by
  induction pieces with
  | nil => exact absurd rfl nonempty
  | cons piece others ih =>
      have comma : IsGap [','] := by simp [IsGap]
      by_cases empty : piece.trim = []
      · have blank := trim_eq_nil_iff.1 empty
        rw [kept_cons_of_allBlank blank]
        by_cases alone : others = []
        · rw [alone, List.intercalate_singleton]
          exact .none (isGap_of_allBlank blank)
        · have equal : [','].intercalate (piece :: others)
              = piece ++ [','] ++ [','].intercalate others := by
            simp [intercalate_cons alone]
          rw [equal]
          exact (ih alone).gap_append (isGap_append (isGap_of_allBlank blank) comma)
      · obtain ⟨front, back, blankFront, blankBack, equal⟩ := exists_trim piece
        rw [kept_cons_of_trim empty]
        by_cases alone : others = []
        · rw [alone, List.intercalate_singleton]
          conv => rhs; rw [equal]
          exact .last (isGap_of_allBlank blankFront) (isGap_of_allBlank blankBack)
        · have separated := ih alone
          rw [intercalate_cons alone]
          conv => rhs; rw [equal]
          cases left : kept others with
          | nil =>
              -- only gaps stand behind the piece
              rw [left] at separated
              rw [List.append_assoc]
              refine .last (isGap_of_allBlank blankFront)
                (isGap_append (isGap_of_allBlank blankBack) ?_)
              exact isGap_append comma (isGap_of_separated_nil separated)
          | cons next more =>
              rw [left] at separated
              exact .more (isGap_of_allBlank blankFront) (isGap_of_allBlank blankBack) separated

/-- A text writes what is read from it, unless it is a lone `void`. -/
theorem separated_ofText {inside : Text} (notVoid : inside.trim ≠ "void".toList) :
    Separated (ofText inside) inside := by
  have written := separated_kept (splitCommas_ne_nil 0 [] inside)
  rw [intercalate_splitCommas, List.reverse_nil, List.nil_append] at written
  rwa [ofText_eq_kept, if_neg notVoid]

/-! ## Characters that stay -/

/-- The first piece goes on with what stands behind it. -/
theorem exists_first_piece (depth : Nat) (piece text : Text) :
    ∃ right after, text = right ++ after ∧
      piece.reverse ++ right ∈ splitCommas depth piece text := by
  induction text generalizing depth piece with
  | nil => exact ⟨[], [], rfl, by simp [splitCommas]⟩
  | cons c rest ih =>
      rw [splitCommas]
      split
      next => exact ⟨[], c :: rest, rfl, by simp⟩
      next =>
        obtain ⟨right, after, rfl, listed⟩ := ih (depthAfter depth c) (c :: piece)
        exact ⟨c :: right, after, rfl, by simpa using listed⟩

/-- A character at which the text is not cut is in a piece, with its neighbours. -/
theorem exists_piece_around {depth : Nat} {piece front back : Text} {c : Char}
    (uncut : c = ',' → front.foldl depthAfter depth ≠ 0) :
    ∃ before left right after, piece.reverse ++ front = before ++ left ∧ back = right ++ after ∧
      left ++ c :: right ∈ splitCommas depth piece (front ++ c :: back) := by
  induction front generalizing depth piece with
  | nil =>
      have notTop : ¬ (c = ',' ∧ depth = 0) := fun top => uncut top.1 top.2
      obtain ⟨right, after, rfl, listed⟩ :=
        exists_first_piece (depthAfter depth c) (c :: piece) back
      refine ⟨[], piece.reverse, right, after, by simp, rfl, ?_⟩
      rw [List.nil_append, splitCommas, if_neg notTop]
      simpa using listed
  | cons d front ih =>
      rw [List.cons_append, splitCommas]
      split
      next top =>
        obtain ⟨rfl, rfl⟩ := top
        obtain ⟨before, left, right, after, equal, rfl, listed⟩ := @ih 0 [] uncut
        refine ⟨piece.reverse ++ ',' :: before, left, right, after, ?_, rfl, ?_⟩
        · rw [List.append_assoc, List.cons_append, ← equal]
          rfl
        · exact List.mem_cons_of_mem _ listed
      next notTop =>
        obtain ⟨before, left, right, after, equal, rfl, listed⟩ :=
          @ih (depthAfter depth d) (d :: piece) uncut
        exact ⟨before, left, right, after, by simpa using equal, rfl, listed⟩

/-- A character that is not blank is still there when its text is trimmed. -/
theorem exists_trim_around (left right : Text) {c : Char} (bare : isBlank c = false) :
    ∃ before inLeft inRight after, left = before ++ inLeft ∧ right = inRight ++ after ∧
      (left ++ c :: right).trim = inLeft ++ c :: inRight := by
  obtain ⟨front, back, blankFront, blankBack, equal⟩ := exists_trim (left ++ c :: right)
  generalize (left ++ c :: right).trim = middle at equal ⊢
  rw [List.append_assoc] at equal
  obtain ⟨inLeft, rfl, cut⟩ := exists_append_of_not_mem (blankFront.not_mem bare) equal.symm
  have notInBack := blankBack.not_mem bare
  rcases List.append_eq_append_iff.1 cut with ⟨more, rfl, rfl⟩ | ⟨more, rfl, rest⟩
  · exact absurd (by simp) notInBack
  · cases more with
    | nil =>
        have same : c :: right = back := by simpa using rest
        exact absurd (same ▸ List.mem_cons_self) notInBack
    | cons d inRight =>
        obtain ⟨rfl, rfl⟩ := List.cons.inj rest
        exact ⟨front, inLeft, inRight, back, rfl, rfl, rfl⟩

/-- A character that is neither blank nor a comma outside groups is in an argument, with
its neighbours. -/
theorem exists_argument_around {front back : Text} {c : Char}
    (notVoid : (front ++ c :: back).trim ≠ "void".toList) (bare : isBlank c = false)
    (uncut : c = ',' → GroupOpen front) :
    ∃ before left right after, front = before ++ left ∧ back = right ++ after ∧
      left ++ c :: right ∈ ofText (front ++ c :: back) := by
  obtain ⟨outer, wholeLeft, wholeRight, rest, rfl, rfl, listed⟩ :=
    @exists_piece_around 0 [] front back c fun comma => groupOpen_iff.1 (uncut comma)
  obtain ⟨before, left, right, after, rfl, rfl, trimmed⟩ :=
    exists_trim_around wholeLeft wholeRight bare
  refine ⟨outer ++ before, left, right, after ++ rest, by simp, by simp, ?_⟩
  rw [ofText_eq_kept, if_neg notVoid, kept, List.mem_filter, ← trimmed]
  refine ⟨List.mem_map_of_mem listed, ?_⟩
  rw [trimmed]
  simp

/-- Whatever is read from a text with balanced parentheses is a piece. -/
theorem isPiece_of_mem_ofText {levels : Nat} {inside piece : Text} (nested : Nested levels inside)
    (listed : piece ∈ ofText inside) : IsPiece piece :=
  have parts := parts_of_mem_ofText nested listed
  ⟨parts.1, parts.2.1, ⟨levels, parts.2.2.1⟩, parts.2.2.2⟩

/-! ## Lists and the texts that write them -/

/-- A text that writes a list of pieces is read as this list, unless it is a lone `void`,
which stands for no arguments.  Every other text writes what is read from it.  So nothing
is lost but blanks and commas, and a comma is lost only where no group is open. -/
theorem ofText_exact (inside : Text) :
    (∀ pieces, Separated pieces inside → (∀ piece ∈ pieces, IsPiece piece) →
      ofText inside = if inside.trim = "void".toList then [] else pieces) ∧
    (inside.trim ≠ "void".toList → Separated (ofText inside) inside) ∧
    (∀ levels, Nested levels inside → ∀ piece ∈ ofText inside, IsPiece piece) ∧
    (inside.trim ≠ "void".toList → ∀ front c back, inside = front ++ c :: back →
      isBlank c = false → (c = ',' → GroupOpen front) →
        ∃ before left right after, front = before ++ left ∧ back = right ++ after ∧
          left ++ c :: right ∈ ofText inside) := by
  refine ⟨fun pieces separated proper => ?_, separated_ofText,
    fun levels nested piece listed => isPiece_of_mem_ofText nested listed, ?_⟩
  · rw [ofText_eq_kept, kept_of_separated separated proper]
  · rintro notVoid front c back rfl bare uncut
    exact exists_argument_around notVoid bare uncut

/-- Gaps with several commas, a `void` that has a comma behind it, and groups in groups. -/
theorem ofText_exact_gaps :
    let pieces := ["void (*)(int (*)(char, int))".toList, "void".toList]
    let text := " ,\tvoid (*)(int (*)(char, int)) , ,void,".toList
    Separated pieces text ∧ (∀ piece ∈ pieces, IsPiece piece) ∧ ofText text = pieces := by
  intro pieces text
  have separated : Separated pieces text :=
    @Separated.more " ,\t".toList _ " ".toList _ " ,void,".toList [] (by decide) (by decide)
      (@Separated.last " ,".toList _ ",".toList (by decide) (by decide))
  have proper : ∀ piece ∈ pieces, IsPiece piece := by
    have function : IsPiece "void (*)(int (*)(char, int))".toList :=
      ⟨by decide, by decide, ⟨2, by decide⟩, by decide⟩
    have void : IsPiece "void".toList := ⟨by decide, by decide, ⟨0, by decide⟩, by decide⟩
    exact List.forall_mem_cons.2 ⟨function, List.forall_mem_singleton.2 void⟩
  have read := (ofText_exact text).1 pieces separated proper
  rw [if_neg (by decide)] at read
  exact ⟨separated, proper, read⟩

end ArgumentList

end SignatureExport
