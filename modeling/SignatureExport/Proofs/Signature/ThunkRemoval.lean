import SignatureExport.Proofs.Text.Trimming
import SignatureExport.Signature.Thunk

/-!
# Removing thunk markers

Removing thunk markers leaves characters out and adds none (`normalize_sublist`).  A
text without a marker stays as it is (`removeThunks_of_free`), and a marker makes no
difference where it stands (`removeThunks_insert`).
-/

namespace SignatureExport

namespace Signature

open Text

theorem pushDroppingThunk_suffix (stack : Text) (c : Char) :
    pushDroppingThunk stack c <:+ c :: stack := by
  rw [pushDroppingThunk]
  cases found : Text.after? thunkMarker.reverse (c :: stack) with
  | none => exact List.suffix_rfl
  | some rest => exact ⟨thunkMarker.reverse, (Text.after?_eq_some_iff.1 found).symm⟩

theorem foldl_pushDroppingThunk_sublist (stack text : Text) :
    (text.foldl pushDroppingThunk stack).Sublist (text.reverse ++ stack) := by
  induction text generalizing stack with
  | nil => exact List.Sublist.refl stack
  | cons c rest ih =>
      rw [List.foldl_cons, List.reverse_cons, List.append_assoc, List.singleton_append]
      exact (ih _).trans ((pushDroppingThunk_suffix stack c).sublist.append_left _)

/-- A signature is normalized by leaving characters out. -/
theorem normalize_sublist (text : Text) : (normalize text).Sublist text := by
  have thunks := (foldl_pushDroppingThunk_sublist [] text).reverse
  rw [List.append_nil, List.reverse_reverse] at thunks
  exact (Text.infix_of_trim _).sublist.trans thunks

/-! ## Texts without markers -/

theorem pushDroppingThunk_of_free {stack : Text} {c : Char}
    (free : ¬ thunkMarker <:+: (c :: stack).reverse) : pushDroppingThunk stack c = c :: stack := by
  rw [pushDroppingThunk]
  cases found : Text.after? thunkMarker.reverse (c :: stack) with
  | none => rfl
  | some rest =>
      refine absurd ⟨rest.reverse, [], ?_⟩ free
      rw [Text.after?_eq_some_iff.1 found, List.reverse_append, List.reverse_reverse,
        List.append_nil]

/-- As long as no marker is read, the stack holds what was read. -/
theorem foldl_pushDroppingThunk_of_free {stack text : Text}
    (free : ¬ thunkMarker <:+: stack.reverse ++ text) :
    text.foldl pushDroppingThunk stack = text.reverse ++ stack := by
  induction text generalizing stack with
  | nil => rfl
  | cons c rest ih =>
      have split : stack.reverse ++ c :: rest = (c :: stack).reverse ++ rest := by simp
      rw [split] at free
      have noMarker : ¬ thunkMarker <:+: (c :: stack).reverse := fun inside =>
        free (inside.trans (List.prefix_append _ rest).isInfix)
      rw [List.foldl_cons, pushDroppingThunk_of_free noMarker, ih free]
      simp

theorem removeThunks_of_free {text : Text} (free : ¬ thunkMarker <:+: text) :
    removeThunks text = text := by
  rw [removeThunks, @foldl_pushDroppingThunk_of_free [] text free]
  simp

/-- Reading a marker leaves the stack as it was. -/
theorem foldl_thunkMarker (stack : Text) : thunkMarker.foldl pushDroppingThunk stack = stack := rfl

/-- A marker makes no difference where it stands. -/
theorem removeThunks_insert (front back : Text) :
    removeThunks (front ++ thunkMarker ++ back) = removeThunks (front ++ back) := by
  simp only [removeThunks, List.foldl_append, foldl_thunkMarker]

theorem free_of_not_mem {text : Text} (absent : '[' ∉ text) : ¬ thunkMarker <:+: text :=
  fun inside => absent (inside.subset (by decide))

theorem normalize_marker_append {text : Text} (free : ¬ thunkMarker <:+: text) :
    normalize (thunkMarker ++ text) = text.trim := by
  rw [normalize, ← List.nil_append thunkMarker, removeThunks_insert, List.nil_append,
    removeThunks_of_free free]

end Signature

end SignatureExport
