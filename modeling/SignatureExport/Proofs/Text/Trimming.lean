import Mathlib.Data.List.Basic
import SignatureExport.Text.Blank

/-!
# Trimming

A text is a *run of blanks* when all its characters are blank.  It is *trimmed*
when it neither starts nor ends with a blank.  `exists_trim` takes a text apart
into a run of blanks, its trimmed text and another run of blanks, and
`trim_of_isTrimmed` says that only one trimmed text can stand between two runs.
So whatever is known of the pieces of a text is known of its trimmed text.
-/

namespace SignatureExport

namespace Text

/-- Every character of the text is blank. -/
def AllBlank (text : Text) : Prop := ∀ c ∈ text, isBlank c = true

instance (text : Text) : Decidable text.AllBlank :=
  List.decidableBAll _ text

/-- Neither the first nor the last character of the text is blank. -/
structure IsTrimmed (text : Text) : Prop where
  /-- The first character is not blank. -/
  head : ∀ c ∈ text.head?, isBlank c = false
  /-- The last character is not blank. -/
  last : ∀ c ∈ text.getLast?, isBlank c = false

theorem allBlank_nil : AllBlank [] := by simp [AllBlank]

@[simp] theorem allBlank_cons {c : Char} {text : Text} :
    AllBlank (c :: text) ↔ isBlank c = true ∧ AllBlank text := by
  simp [AllBlank]

@[simp] theorem allBlank_append {first second : Text} :
    AllBlank (first ++ second) ↔ AllBlank first ∧ AllBlank second := by
  simp [AllBlank, or_imp, forall_and]

theorem AllBlank.reverse {text : Text} (blank : AllBlank text) : AllBlank text.reverse := by
  simpa [AllBlank] using blank

/-- A character that is not blank is none of a run of blanks. -/
theorem AllBlank.not_mem {text : Text} {c : Char} (blank : AllBlank text)
    (bare : isBlank c = false) : c ∉ text := by
  intro inside
  rw [blank c inside] at bare
  exact absurd bare (by decide)

theorem AllBlank.plain {text : Text} (blank : AllBlank text) : ∀ c ∈ text, c ≠ '(' ∧ c ≠ ')' :=
  fun _ inside => ⟨ne_of_mem_of_not_mem inside (blank.not_mem (by decide)),
    ne_of_mem_of_not_mem inside (blank.not_mem (by decide))⟩

/-! ## The start of a text -/

theorem trimStart_append_of_allBlank {front : Text} (blank : AllBlank front) (text : Text) :
    trimStart (front ++ text) = trimStart text :=
  List.dropWhile_append_of_pos blank

theorem trimStart_of_head {text : Text} (bare : ∀ c ∈ text.head?, isBlank c = false) :
    trimStart text = text := by
  cases text with
  | nil => rfl
  | cons c rest => exact List.dropWhile_cons_of_neg (by simp [bare c rfl])

theorem head_trimStart (text : Text) : ∀ c ∈ (trimStart text).head?, isBlank c = false := by
  intro c first
  have stops := List.head?_dropWhile_not isBlank text
  rw [show text.dropWhile isBlank = trimStart text from rfl, first] at stops
  simpa using stops

theorem exists_trimStart (text : Text) : ∃ front, AllBlank front ∧ text = front ++ trimStart text :=
  ⟨text.takeWhile isBlank, List.all_eq_true.1 List.all_takeWhile,
    List.takeWhile_append_dropWhile.symm⟩

/-! ## The end of a text -/

theorem trimEnd_eq_reverse (text : Text) : trimEnd text = (trimStart text.reverse).reverse := rfl

theorem trimEnd_append_of_allBlank {back : Text} (blank : AllBlank back) (text : Text) :
    trimEnd (text ++ back) = trimEnd text := by
  rw [trimEnd_eq_reverse, List.reverse_append, trimStart_append_of_allBlank blank.reverse,
    trimEnd_eq_reverse]

theorem trimEnd_of_last {text : Text} (bare : ∀ c ∈ text.getLast?, isBlank c = false) :
    trimEnd text = text := by
  rw [trimEnd_eq_reverse, trimStart_of_head (by simpa using bare), List.reverse_reverse]

theorem last_trimEnd (text : Text) : ∀ c ∈ (trimEnd text).getLast?, isBlank c = false := by
  rw [trimEnd_eq_reverse, List.getLast?_reverse]
  exact head_trimStart text.reverse

theorem exists_trimEnd (text : Text) : ∃ back, AllBlank back ∧ text = trimEnd text ++ back := by
  obtain ⟨front, blank, equal⟩ := exists_trimStart text.reverse
  refine ⟨front.reverse, blank.reverse, ?_⟩
  rw [trimEnd_eq_reverse, ← List.reverse_append, ← equal, List.reverse_reverse]

/-! ## Both ends -/

theorem isTrimmed_trim (text : Text) : IsTrimmed text.trim := by
  refine ⟨?_, last_trimEnd (trimStart text)⟩
  obtain ⟨back, -, equal⟩ := exists_trimEnd (trimStart text)
  intro c first
  refine head_trimStart text c ?_
  rw [equal, List.head?_append]
  exact Option.or_eq_some_iff.2 (.inl first)

/-- A text is its trimmed text between two runs of blanks. -/
theorem exists_trim (text : Text) :
    ∃ front back, AllBlank front ∧ AllBlank back ∧ text = front ++ text.trim ++ back := by
  obtain ⟨front, blankFront, equalFront⟩ := exists_trimStart text
  obtain ⟨back, blankBack, equalBack⟩ := exists_trimEnd (trimStart text)
  refine ⟨front, back, blankFront, blankBack, ?_⟩
  rw [List.append_assoc, trim, ← equalBack, ← equalFront]

/-- Where only the start of a text may be blank, trimming drops its leading blanks. -/
theorem trim_eq_trimStart {text : Text} (bare : ∀ c ∈ text.getLast?, isBlank c = false) :
    text.trim = trimStart text := by
  obtain ⟨front, -, equal⟩ := exists_trimStart text
  refine trimEnd_of_last fun c last => bare c ?_
  rw [equal, List.getLast?_append]
  exact Option.or_eq_some_iff.2 (.inl last)

theorem trim_append_of_allBlank_left {front : Text} (blank : AllBlank front) (text : Text) :
    trim (front ++ text) = trim text := by
  rw [trim, trimStart_append_of_allBlank blank, trim]

theorem trim_of_allBlank {text : Text} (blank : AllBlank text) : trim text = [] := by
  simpa [trim, trimStart, trimEnd] using trim_append_of_allBlank_left blank []

theorem trim_append_of_allBlank_right {back : Text} (blank : AllBlank back) (text : Text) :
    trim (text ++ back) = trim text := by
  obtain ⟨front, blankFront, equal⟩ := exists_trimStart text
  rw [equal, List.append_assoc, trim_append_of_allBlank_left blankFront,
    trim_append_of_allBlank_left blankFront]
  cases bare : trimStart text with
  | nil => rw [List.nil_append, trim_of_allBlank blank, trim_of_allBlank allBlank_nil]
  | cons c rest =>
      have start : isBlank c = false := head_trimStart text c (by simp [bare])
      rw [trim, trimStart_of_head (by simpa using start), trimEnd_append_of_allBlank blank, trim,
        trimStart_of_head (by simpa using start)]

theorem IsTrimmed.trim_eq {text : Text} (trimmed : IsTrimmed text) : text.trim = text := by
  rw [trim, trimStart_of_head trimmed.head, trimEnd_of_last trimmed.last]

theorem isTrimmed_iff {text : Text} : IsTrimmed text ↔ text.trim = text :=
  ⟨IsTrimmed.trim_eq, fun equal => equal ▸ isTrimmed_trim text⟩

instance (text : Text) : Decidable (IsTrimmed text) := decidable_of_iff _ isTrimmed_iff.symm

theorem trim_trim (text : Text) : text.trim.trim = text.trim := (isTrimmed_trim text).trim_eq

/-- A trimmed text between two runs of blanks is what trimming leaves. -/
theorem trim_of_isTrimmed {front text back : Text} (blankFront : AllBlank front)
    (trimmed : IsTrimmed text) (blankBack : AllBlank back) :
    trim (front ++ text ++ back) = text := by
  rw [trim_append_of_allBlank_right blankBack, trim_append_of_allBlank_left blankFront,
    trimmed.trim_eq]

/-- Two trimmed texts with anything between them make a trimmed text. -/
theorem IsTrimmed.append {first second : Text} (trimmedFirst : IsTrimmed first)
    (nonemptyFirst : first ≠ []) (between : Text) (trimmedSecond : IsTrimmed second)
    (nonemptySecond : second ≠ []) : IsTrimmed (first ++ between ++ second) := by
  obtain ⟨c, front, rfl⟩ := List.exists_cons_of_ne_nil nonemptyFirst
  refine ⟨by simpa using trimmedFirst.head, ?_⟩
  rw [List.getLast?_append_of_ne_nil _ nonemptySecond]
  exact trimmedSecond.last

theorem trim_eq_nil_iff {text : Text} : text.trim = [] ↔ AllBlank text := by
  constructor
  · intro empty
    obtain ⟨front, back, blankFront, blankBack, equal⟩ := exists_trim text
    rw [equal, empty, List.append_nil, allBlank_append]
    exact ⟨blankFront, blankBack⟩
  · exact trim_of_allBlank

/-- Trimming two texts at once leaves their trimmed texts with a run of blanks between them. -/
theorem exists_trim_append {front after : Text} (nonemptyFront : front.trim ≠ [])
    (nonemptyAfter : after.trim ≠ []) (stop : ∃ c ∈ after.head?, isBlank c = true) :
    ∃ between, AllBlank between ∧ between ≠ [] ∧
      (front ++ after).trim = front.trim ++ between ++ after.trim := by
  obtain ⟨left, right, blankLeft, blankRight, equalFront⟩ := exists_trim front
  obtain ⟨run, back, blankRun, blankBack, equalAfter⟩ := exists_trim after
  refine ⟨right ++ run, allBlank_append.2 ⟨blankRight, blankRun⟩, ?_, ?_⟩
  · intro empty
    obtain ⟨c, first, blank⟩ := stop
    rw [equalAfter, (List.append_eq_nil_iff.1 empty).2, List.nil_append, List.head?_append,
      Option.mem_def, Option.or_eq_some_iff, List.head?_eq_none_iff] at first
    rcases first with first | ⟨empty, -⟩
    · simp [(isTrimmed_trim after).head c first] at blank
    · exact nonemptyAfter empty
  · have equal : front ++ after
        = left ++ (front.trim ++ (right ++ run) ++ after.trim) ++ back := by
      conv => lhs; rw [equalFront, equalAfter]
      simp
    rw [equal]
    exact trim_of_isTrimmed blankLeft
      ((isTrimmed_trim front).append nonemptyFront _ (isTrimmed_trim after) nonemptyAfter) blankBack

theorem infix_of_trim (text : Text) : text.trim <:+: text := by
  obtain ⟨front, back, -, -, equal⟩ := exists_trim text
  exact ⟨front, back, equal.symm⟩

/-- Trimming keeps the characters that are not blank. -/
theorem mem_trim {text : Text} {c : Char} (bare : isBlank c = false) (inside : c ∈ text) :
    c ∈ text.trim := by
  obtain ⟨front, back, blankFront, blankBack, equal⟩ := exists_trim text
  rw [equal, List.mem_append, List.mem_append] at inside
  rcases inside with (inFront | found) | inBack
  · exact absurd inFront (blankFront.not_mem bare)
  · exact found
  · exact absurd inBack (blankBack.not_mem bare)

theorem countP_trim (text : Text) :
    text.trim.countP (!isBlank ·) = text.countP (!isBlank ·) := by
  have none {run : Text} (blank : AllBlank run) : run.countP (!isBlank ·) = 0 :=
    List.countP_eq_zero.2 fun c inside => by simp [blank c inside]
  obtain ⟨front, back, blankFront, blankBack, equal⟩ := exists_trim text
  conv => rhs; rw [equal]
  rw [List.countP_append, List.countP_append, none blankFront, none blankBack, Nat.zero_add,
    Nat.add_zero]

theorem length_trim_le (text : Text) : text.trim.length ≤ text.length := by
  obtain ⟨front, back, -, -, equal⟩ := exists_trim text
  have lengths := congrArg List.length equal
  simp only [List.length_append] at lengths
  omega

end Text

end SignatureExport
