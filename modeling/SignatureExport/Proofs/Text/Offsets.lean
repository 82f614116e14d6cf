import Mathlib.Data.List.Basic
import SignatureExport.Text.Utf8

/-!
# Byte offsets

A byte offset of a text is a *boundary* when no character of the text reaches across it.
Two boundaries cut a text in three, and the bytes between them spell the text in the
middle and no other (`spellsAt_iff`).
-/

namespace SignatureExport

namespace Utf8

/-- An offset at which one character of the text ends, or the text starts. -/
def IsBoundary (text : Text) (offset : Nat) : Prop := ∃ front, front <+: text ∧ width front = offset

/-- The character `c` of the text starts at an offset. -/
def CharAt (text : Text) (offset : Nat) (c : Char) : Prop :=
  ∃ front back, text = front ++ c :: back ∧ width front = offset

/-- The bytes between two boundaries of a text spell a piece of it. -/
structure SpellsAt (text piece : Text) (start stop : Nat) : Prop where
  startBoundary : IsBoundary text start
  stopBoundary : IsBoundary text stop
  ordered : start ≤ stop
  bytes : ((encode text).take stop).drop start = encode piece

theorem encode_append (first second : Text) :
    encode (first ++ second) = encode first ++ encode second := List.flatMap_append

/-- No two texts have the same bytes. -/
theorem eq_of_encode_eq {first second : Text} (same : encode first = encode second) :
    first = second := by
  have bytes : first.utf8Encode = second.utf8Encode := congrArg List.toByteArray same
  have decoded := congrArg ByteArray.utf8Decode? bytes
  rw [List.utf8Decode?_utf8Encode, List.utf8Decode?_utf8Encode] at decoded
  simpa using decoded

theorem width_eq_zero_iff {text : Text} : width text = 0 ↔ text = [] := by
  cases text with
  | nil => simp [width]
  | cons c rest =>
      have positive := c.utf8Size_pos
      simp [width]
      omega

/-- A text is cut at an offset in one way only. -/
theorem front_eq_of_width_eq {front back front' back' : Text} (equal : front ++ back = front' ++ back')
    (same : width front = width front') : front = front' := by
  rcases List.append_eq_append_iff.1 equal with ⟨more, rfl, -⟩ | ⟨more, rfl, -⟩
  · rw [width_append] at same
    have empty : more = [] := width_eq_zero_iff.1 (by omega)
    rw [empty, List.append_nil]
  · rw [width_append] at same
    have empty : more = [] := width_eq_zero_iff.1 (by omega)
    rw [empty, List.append_nil]

/-- The bytes between two boundaries spell a piece if and only if the piece stands there. -/
theorem spellsAt_iff {text piece : Text} {start stop : Nat} :
    SpellsAt text piece start stop ↔ ∃ before after, text = before ++ piece ++ after ∧
      width before = start ∧ width (before ++ piece) = stop := by
  constructor
  · rintro ⟨⟨before, ⟨rest, cut⟩, rfl⟩, ⟨longer, ⟨after, rfl⟩, rfl⟩, ordered, bytes⟩
    obtain ⟨middle, rfl⟩ : ∃ middle, longer = before ++ middle := by
      rcases List.append_eq_append_iff.1 cut with ⟨middle, equal, -⟩ | ⟨more, equal, -⟩
      · exact ⟨middle, equal⟩
      · rw [equal, width_append] at ordered
        have empty : more = [] := width_eq_zero_iff.1 (by omega)
        exact ⟨[], by rw [equal, empty, List.append_nil, List.append_nil]⟩
    rw [encode_append, List.take_left' (length_encode _), encode_append,
      List.drop_left' (length_encode _)] at bytes
    rw [← eq_of_encode_eq bytes]
    exact ⟨before, after, rfl, rfl, rfl⟩
  · rintro ⟨before, after, rfl, rfl, rfl⟩
    refine ⟨⟨before, ⟨piece ++ after, by simp⟩, rfl⟩, ⟨before ++ piece, ⟨after, rfl⟩, rfl⟩,
      by simp, ?_⟩
    rw [encode_append, List.take_left' (length_encode _), encode_append,
      List.drop_left' (length_encode _)]

theorem charAt_width_iff {before rest : Text} {c : Char} :
    CharAt (before ++ rest) (width before) c ↔ rest.head? = some c := by
  constructor
  · rintro ⟨front, back, equal, same⟩
    obtain rfl := front_eq_of_width_eq equal same.symm
    rw [List.append_cancel_left equal, List.head?_cons]
  · intro first
    obtain ⟨back, rfl⟩ := List.head?_eq_some_iff.1 first
    exact ⟨before, back, rfl, rfl⟩

/-- The character that ends at an offset is the last one before it. -/
theorem charAt_last_iff {before rest : Text} {c : Char} :
    (∃ offset, CharAt (before ++ rest) offset c ∧ offset + c.utf8Size = width before) ↔
      before.getLast? = some c := by
  constructor
  · rintro ⟨offset, ⟨front, back, equal, rfl⟩, ends⟩
    have cut : (front ++ [c]) ++ back = before ++ rest := by rw [equal]; simp
    have same : width (front ++ [c]) = width before := by rw [← ends]; simp [width]
    rw [← front_eq_of_width_eq cut same, List.getLast?_concat]
  · intro last
    obtain ⟨front, rfl⟩ := List.getLast?_eq_some_iff.1 last
    exact ⟨width front, ⟨front, rest, by simp, rfl⟩, by simp [width]⟩

end Utf8

end SignatureExport
