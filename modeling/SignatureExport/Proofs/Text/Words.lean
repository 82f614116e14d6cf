import SignatureExport.Proofs.Text.Trimming

/-!
# Words

The words of a text are read one after the other: `words_eq_cons_iff` says that
the first word stands behind a run of blanks and reaches to the next blank or to
the end, and that the other words are those of the rest.  A text without words
is a run of blanks.
-/

namespace SignatureExport

namespace Text

/-- A text that can follow a word: the empty text or one that starts with a blank. -/
def EndsWord (text : Text) : Prop := ∀ c ∈ text.head?, isBlank c = true

/-- A text that can stand before a word: the empty text or one that ends with a blank. -/
def StartsWord (text : Text) : Prop := ∀ c ∈ text.getLast?, isBlank c = true

theorem AllBlank.startsWord {text : Text} (blank : AllBlank text) : StartsWord text :=
  fun c last => blank c (List.mem_of_mem_getLast? last)

theorem startsWord_append {front run : Text} (blank : AllBlank run) (nonempty : run ≠ []) :
    StartsWord (front ++ run) := by
  rw [StartsWord, List.getLast?_append_of_ne_nil front nonempty]
  exact fun c last => blank c (List.mem_of_mem_getLast? last)

theorem AllBlank.endsWord {text : Text} (blank : AllBlank text) : EndsWord text :=
  fun c first => blank c (List.mem_of_mem_head? first)

/-- A text that can be a word: it is not empty and holds no blank. -/
structure IsWord (text : Text) : Prop where
  /-- The word has a character. -/
  nonempty : text ≠ []
  /-- No character of the word is blank. -/
  solid : ∀ c ∈ text, isBlank c = false

instance (text : Text) : Decidable (IsWord text) :=
  decidable_of_iff (text ≠ [] ∧ text.all (!isBlank ·) = true)
    ⟨fun ⟨nonempty, solid⟩ => ⟨nonempty, by simpa using solid⟩,
      fun isWord => ⟨isWord.nonempty, by simpa using isWord.solid⟩⟩

theorem words_nil : words [] = [] := by simp [words, List.splitOnP_nil]

/-- A blank separates the words before it from the words behind it. -/
theorem words_append_cons {c : Char} (blank : isBlank c = true) (before after : Text) :
    words (before ++ c :: after) = words before ++ words after := by
  rw [words, List.splitOnP_append_cons before after blank, List.filter_append, words, words]

theorem words_of_isWord {word : Text} (solid : IsWord word) : words word = [word] := by
  rw [words, List.splitOnP_eq_singleton solid.solid]
  simp [solid.nonempty]

theorem words_append_of_allBlank {front : Text} (blank : AllBlank front) (text : Text) :
    words (front ++ text) = words text := by
  induction front with
  | nil => rfl
  | cons c rest ih =>
      obtain ⟨first, more⟩ := allBlank_cons.1 blank
      rw [List.cons_append, ← List.nil_append (c :: _), words_append_cons first, words_nil,
        List.nil_append, ih more]

theorem words_append_of_allBlank_right {back : Text} (blank : AllBlank back) (text : Text) :
    words (text ++ back) = words text := by
  cases back with
  | nil => rw [List.append_nil]
  | cons c rest =>
      obtain ⟨first, more⟩ := allBlank_cons.1 blank
      rw [words_append_cons first, ← List.append_nil rest, words_append_of_allBlank more, words_nil,
        List.append_nil]

theorem words_of_allBlank {text : Text} (blank : AllBlank text) : words text = [] := by
  rw [← List.append_nil text, words_append_of_allBlank blank, words_nil]

theorem words_trim (text : Text) : words text.trim = words text := by
  obtain ⟨front, back, blankFront, blankBack, equal⟩ := exists_trim text
  conv => rhs; rw [equal, words_append_of_allBlank_right blankBack]
  rw [words_append_of_allBlank blankFront]

/-- The first word of a text is the one behind its leading blanks. -/
theorem words_append {word rest : Text} (solid : IsWord word) (boundary : EndsWord rest) :
    words (word ++ rest) = word :: words rest := by
  cases rest with
  | nil => rw [List.append_nil, words_of_isWord solid, words_nil]
  | cons c more =>
      have blank : isBlank c = true := boundary c rfl
      rw [words_append_cons blank, words_of_isWord solid, List.singleton_append,
        ← List.nil_append (c :: more), words_append_cons blank, words_nil, List.nil_append]

/-- A text that starts with a character of a word is that word and a rest. -/
theorem exists_word {c : Char} (text : Text) (bare : isBlank c = false) :
    ∃ word rest, IsWord (c :: word) ∧ EndsWord rest ∧ c :: text = c :: word ++ rest := by
  refine ⟨text.takeWhile (!isBlank ·), text.dropWhile (!isBlank ·), ⟨by simp, ?_⟩, ?_, ?_⟩
  · intro d inside
    rcases List.mem_cons.1 inside with rfl | inside
    · exact bare
    · simpa using List.all_eq_true.1 List.all_takeWhile d inside
  · intro d first
    have stops := List.head?_dropWhile_not (!isBlank ·) text
    rw [first] at stops
    simpa using stops
  · rw [List.cons_append, List.takeWhile_append_dropWhile]

theorem words_eq_nil_iff {text : Text} : words text = [] ↔ AllBlank text := by
  refine ⟨fun empty => ?_, words_of_allBlank⟩
  obtain ⟨front, blank, equal⟩ := exists_trimStart text
  cases bare : trimStart text with
  | nil => rw [equal, bare, List.append_nil]; exact blank
  | cons c more =>
      obtain ⟨word, rest, solid, boundary, cut⟩ :=
        exists_word more (head_trimStart text c (by simp [bare]))
      rw [equal, words_append_of_allBlank blank, bare, cut, words_append solid boundary] at empty
      exact absurd empty (List.cons_ne_nil _ _)

/-- The first word of a text stands behind a run of blanks, and the other words
are those of the rest. -/
theorem words_eq_cons_iff {text word : Text} {more : List Text} :
    words text = word :: more ↔
      ∃ front rest, AllBlank front ∧ IsWord word ∧ EndsWord rest ∧
        text = front ++ word ++ rest ∧ words rest = more := by
  constructor
  · intro found
    obtain ⟨front, blank, equal⟩ := exists_trimStart text
    cases bare : trimStart text with
    | nil =>
        rw [equal, bare, List.append_nil, words_of_allBlank blank] at found
        exact absurd found (List.cons_ne_nil _ _).symm
    | cons c tail =>
        obtain ⟨first, rest, solid, boundary, cut⟩ :=
          exists_word tail (head_trimStart text c (by simp [bare]))
        rw [equal, words_append_of_allBlank blank, bare, cut, words_append solid boundary] at found
        obtain ⟨rfl, rfl⟩ := List.cons.inj found
        exact ⟨front, rest, blank, solid, boundary, by rw [equal, bare, cut, List.append_assoc], rfl⟩
  · rintro ⟨front, rest, blank, solid, boundary, rfl, rfl⟩
    rw [List.append_assoc, words_append_of_allBlank blank, words_append solid boundary]

theorem words_eq_singleton_iff {text word : Text} :
    words text = [word] ↔
      ∃ front back, AllBlank front ∧ AllBlank back ∧ IsWord word ∧ text = front ++ word ++ back := by
  rw [words_eq_cons_iff]
  constructor
  · rintro ⟨front, rest, blank, solid, -, equal, empty⟩
    exact ⟨front, rest, blank, words_eq_nil_iff.1 empty, solid, equal⟩
  · rintro ⟨front, back, blankFront, blankBack, solid, equal⟩
    exact ⟨front, back, blankFront, solid, blankBack.endsWord, equal, words_of_allBlank blankBack⟩

theorem words_eq_pair_iff {text first second : Text} :
    words text = [first, second] ↔
      ∃ front between back, AllBlank front ∧ AllBlank between ∧ between ≠ [] ∧ AllBlank back ∧
        IsWord first ∧ IsWord second ∧ text = front ++ first ++ between ++ second ++ back := by
  rw [words_eq_cons_iff]
  constructor
  · rintro ⟨front, rest, blankFront, solidFirst, boundary, rfl, found⟩
    obtain ⟨between, back, blankBetween, blankBack, solidSecond, rfl⟩ :=
      words_eq_singleton_iff.1 found
    refine ⟨front, between, back, blankFront, blankBetween, ?_, blankBack, solidFirst, solidSecond,
      by simp⟩
    -- Without a blank in between, the two words would be one.
    rintro rfl
    obtain ⟨c, more, rfl⟩ := List.exists_cons_of_ne_nil solidSecond.nonempty
    have blank : isBlank c = true := boundary c rfl
    exact absurd (solidSecond.solid c List.mem_cons_self) (by simp [blank])
  · rintro ⟨front, between, back, blankFront, blankBetween, nonempty, blankBack, solidFirst,
      solidSecond, rfl⟩
    refine ⟨front, between ++ second ++ back, blankFront, solidFirst, ?_, by simp, ?_⟩
    · obtain ⟨c, more, rfl⟩ := List.exists_cons_of_ne_nil nonempty
      simpa [EndsWord] using (allBlank_cons.1 blankBetween).1
    · exact words_eq_singleton_iff.2 ⟨between, back, blankBetween, blankBack, solidSecond, rfl⟩

/-- A piece without blanks that stands between blanks or ends of a text is one of its words. -/
theorem mem_words {before word after : Text} (start : StartsWord before) (solid : IsWord word)
    (stop : EndsWord after) : word ∈ words (before ++ word ++ after) := by
  rcases List.eq_nil_or_concat before with rfl | ⟨front, c, rfl⟩
  · rw [List.nil_append, words_append solid stop]
    exact List.mem_cons_self
  · have blank : isBlank c = true := start c (by simp)
    rw [List.concat_eq_append, List.append_assoc, List.append_assoc, List.singleton_append,
      words_append_cons blank, words_append solid stop]
    exact List.mem_append_right _ List.mem_cons_self

/-- A piece without blanks at the end of a text lies behind any blank of the text. -/
theorem suffix_of_suffix_append {front rest piece : Text} (start : StartsWord front)
    (solid : ∀ c ∈ piece, isBlank c = false) (trailing : piece <:+ front ++ rest) :
    piece <:+ rest := by
  rcases Nat.le_total piece.length rest.length with shorter | longer
  · exact List.suffix_of_suffix_length_le trailing (List.suffix_append front rest) shorter
  · obtain ⟨left, rfl⟩ :=
      List.suffix_of_suffix_length_le (List.suffix_append front rest) trailing longer
    rcases List.eq_nil_or_concat left with rfl | ⟨more, c, rfl⟩
    · exact List.suffix_refl rest
    · -- Otherwise the piece would hold the last character of the text before it.
      obtain ⟨skipped, equal⟩ := trailing
      have cut : skipped ++ (more ++ [c]) = front :=
        List.append_cancel_right (by simpa using equal)
      have blank : isBlank c = true := start c (by simp [← cut])
      exact absurd (solid c (by simp)) (by simp [blank])

/-- A text in front of a word ends with a blank behind whatever else it holds. -/
theorem StartsWord.exists_trim {text : Text} (start : StartsWord text) (nonempty : text.trim ≠ []) :
    ∃ front back, AllBlank front ∧ AllBlank back ∧ back ≠ [] ∧
      text = front ++ text.trim ++ back := by
  obtain ⟨front, back, blankFront, blankBack, equal⟩ := Text.exists_trim text
  refine ⟨front, back, blankFront, blankBack, ?_, equal⟩
  intro empty
  obtain ⟨most, c, whole⟩ := List.eq_nil_or_concat text.trim |>.resolve_left nonempty
  have last : text.trim.getLast? = some c := by rw [whole]; simp
  have bare := (isTrimmed_trim text).last c last
  have blank : isBlank c = true := by
    refine start c ?_
    rw [equal, empty, List.append_nil, List.getLast?_append, last]
    rfl
  simp [blank] at bare

/-- A word that starts in front of a run of blanks ends in front of it. -/
theorem exists_tail_of_run {front run rest before word after : Text}
    (equal : before ++ word ++ after = front ++ run ++ rest) (blank : AllBlank run)
    (nonempty : run ≠ []) (solid : IsWord word) (shorter : before.length < (front ++ run).length) :
    ∃ tail, front = before ++ word ++ tail ∧ after = tail ++ run ++ rest := by
  obtain ⟨c, more, rfl⟩ := List.exists_cons_of_ne_nil solid.nonempty
  have bare : isBlank c = false := solid.solid c List.mem_cons_self
  have outside : c ∉ run := blank.not_mem bare
  rw [List.append_assoc, List.append_assoc] at equal
  rcases List.append_eq_append_iff.1 equal with ⟨left, rfl, cut⟩ | ⟨skipped, rfl, cut⟩
  · rcases List.append_eq_append_iff.1 cut with ⟨tail, rfl, behind⟩ | ⟨extra, same, behind⟩
    · exact ⟨tail, by simp, by simpa using behind⟩
    · -- what the word has beyond the front would start the run
      cases extra with
      | nil => exact ⟨[], by simpa using same.symm, by simpa using behind.symm⟩
      | cons d extra =>
          obtain ⟨e, others, rfl⟩ := List.exists_cons_of_ne_nil nonempty
          obtain ⟨rfl, -⟩ := List.cons.inj behind
          have inside : e ∈ c :: more := by simp [same]
          exact absurd (solid.solid e inside) (by simp [(allBlank_cons.1 blank).1])
  · -- the word would start inside the run
    rcases List.append_eq_append_iff.1 cut with ⟨left, rfl, -⟩ | ⟨left, rfl, starts⟩
    · simp only [List.length_append] at shorter
      omega
    · cases left with
      | nil => simp at shorter
      | cons d left =>
          obtain ⟨rfl, -⟩ := List.cons.inj starts
          exact absurd (by simp) outside

end Text

end SignatureExport
