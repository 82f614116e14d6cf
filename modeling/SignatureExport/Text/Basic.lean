/-!
# Text and bytes

A *text* is a list of characters and *bytes* are a list of octets.  Every
reader and writer of the library works on these two types.  Strings appear at
the outer edge only, where text is read from or handed to the machine.
-/

namespace SignatureExport

/-- A text, as the list of its characters. -/
abbrev Text := List Char

/-- A block of bytes, as the list of its octets. -/
abbrev Bytes := List UInt8

namespace Text

/-- What follows `word` in a text that starts with it. -/
def after? : Text → Text → Option Text
  | [], text => some text
  | _ :: _, [] => none
  | w :: word, c :: rest => if w = c then after? word rest else none

theorem after?_eq_some_iff {word text rest : Text} :
    after? word text = some rest ↔ text = word ++ rest := by
  fun_induction after? word text with
  | case1 => simp
  | case2 => simp
  | case3 => simp_all
  | case4 w word c tail different => simp [Ne.symm different]

/-- Cuts a text at the first `mark`: the text before it and the text behind it. -/
def cutAt? (mark : Char) : Text → Option (Text × Text)
  | [] => none
  | c :: rest =>
      if c = mark then some ([], rest)
      else (cutAt? mark rest).map fun (before, after) => (c :: before, after)

theorem cutAt?_eq_some_iff {mark : Char} {text before after : Text} :
    cutAt? mark text = some (before, after) ↔ text = before ++ mark :: after ∧ mark ∉ before := by
  induction text generalizing before with
  | nil => simp [cutAt?]
  | cons c rest ih =>
      by_cases same : c = mark
      · cases before with
        | nil => simp [cutAt?, same]
        | cons first more => simp +contextual [cutAt?, same, eq_comm]
      · rw [cutAt?, if_neg same, Option.map_eq_some_iff]
        constructor
        · rintro ⟨⟨front, back⟩, found, equal⟩
          obtain ⟨rfl, rfl⟩ := Prod.mk.inj equal
          obtain ⟨rfl, fresh⟩ := ih.1 found
          exact ⟨rfl, by simp [Ne.symm same, fresh]⟩
        · rintro ⟨equal, fresh⟩
          cases before with
          | nil => exact absurd (List.cons.inj equal).1 same
          | cons first front =>
              obtain ⟨rfl, rfl⟩ := List.cons.inj equal
              exact ⟨(front, after), ih.2 ⟨rfl, fun inside => fresh (by simp [inside])⟩, rfl⟩

/-- Writes `new` for every occurrence of `old`, from left to right.  Occurrences
do not overlap.  `skip` counts the characters of the last occurrence still to be
passed over. -/
def replaceFrom (old new : Text) : Nat → Text → Text
  | _, [] => []
  | skip + 1, _ :: rest => replaceFrom old new skip rest
  | 0, c :: rest =>
      if old.isPrefixOf (c :: rest) then new ++ replaceFrom old new (old.length - 1) rest
      else c :: replaceFrom old new 0 rest

/-- Writes `new` for every occurrence of the non-empty text `old`. -/
def replaceAll (text old new : Text) : Text := replaceFrom old new 0 text

/-- Replacing a single character goes character by character. -/
theorem replaceAll_singleton (mark : Char) (new text : Text) :
    text.replaceAll [mark] new = text.flatMap fun c => if c = mark then new else [c] := by
  rw [replaceAll]
  induction text with
  | nil => rfl
  | cons c text ih =>
      have starts : [mark].isPrefixOf (c :: text) = decide (c = mark) := by
        simp [List.isPrefixOf, Bool.beq_eq_decide_eq, eq_comm]
      rw [replaceFrom, starts, List.flatMap_cons]
      split
      next same => simp [of_decide_eq_true same, ih]
      next different => simp [of_decide_eq_false (Bool.eq_false_iff.2 different), ih]

example : replaceAll "aaaca".toList "aa".toList "b".toList = "baca".toList := by decide
example : replaceAll "f()(x)".toList "()".toList [] = "f(x)".toList := by decide

end Text

end SignatureExport
