import SignatureExport.Proofs.Signature.ModifierRun
import SignatureExport.Proofs.Signature.ThunkRemoval

/-!
# A thunk marker in front of a signature

The parser drops a thunk marker that leads a signature, and so does `normalize`.  The
parser takes the marker for the last modifier, so the modifiers behind it stay
(`body_marker_append`), while a normalized signature loses them
(`body_normalize_marker_append`).  The two readings agree if no modifier follows the
marker, or if there is nothing to read (`parse?_marker_iff`).
-/

namespace SignatureExport

namespace Signature

open Text

/-- Only blanks behind the last character of a text count for trimming behind a marker. -/
theorem trim_marker_append (text : Text) :
    (thunkMarker ++ text).trim = thunkMarker ++ trimEnd text := by
  obtain ⟨back, blank, equal⟩ := exists_trimEnd text
  have bracket : ∀ c ∈ (thunkMarker ++ text).head?, isBlank c = false := by
    intro c first
    obtain rfl : '[' = c := Option.some.inj first
    decide
  have last : ∀ c ∈ (thunkMarker ++ trimEnd text).getLast?, isBlank c = false := by
    intro c last
    rw [List.getLast?_append, Option.mem_def, Option.or_eq_some_iff] at last
    rcases last with inText | ⟨-, inMarker⟩
    · exact last_trimEnd text c inText
    · obtain rfl : ':' = c := Option.some.inj inMarker
      decide
  rw [trim, trimStart_of_head bracket]
  conv => lhs; rw [equal]
  rw [← List.append_assoc, trimEnd_append_of_allBlank blank, trimEnd_of_last last]

/-- Behind a leading marker no other modifier is looked for. -/
theorem dropModifiers_marker_append (text : Text) :
    dropModifiers (thunkMarker ++ text) = trimStart text := by
  have access : dropAccess (thunkMarker ++ text) = thunkMarker ++ text := rfl
  have word : ∀ word ∈ ["static".toList, "virtual".toList],
      dropWord word (thunkMarker ++ text) = thunkMarker ++ text := by
    simp only [List.forall_mem_cons]
    exact ⟨rfl, rfl, fun _ listed => absurd listed List.not_mem_nil⟩
  have thunk : afterThunk? (thunkMarker ++ text) = some (trimStart text) :=
    afterThunk?_eq_some_iff.2 ⟨[], [], text, allBlank_nil, allBlank_nil, rfl, rfl⟩
  rw [dropModifiers, access, word _ (by simp), word _ (by simp), dropThunk, thunk, Option.getD_some]

/-- The modifiers behind a leading marker stay in the body. -/
theorem body_marker_append (text : Text) : body (thunkMarker ++ text) = text.trim := by
  obtain ⟨back, blank, equal⟩ := exists_trimEnd text
  have sameTrim : text.trim = (trimEnd text).trim := by
    conv => lhs; rw [equal]
    rw [trim_append_of_allBlank_right blank]
  rw [body, trim_marker_append, dropModifiers_marker_append, sameTrim,
    trim_eq_trimStart (last_trimEnd text)]

/-- A normalized signature loses the modifiers behind its leading marker. -/
theorem body_normalize_marker_append {text : Text} (free : ¬ thunkMarker <:+: text) :
    body (normalize (thunkMarker ++ text)) = dropModifiers text.trim := by
  rw [normalize_marker_append free, body, trim_trim]

/-- A signature behind a marker is read alike with and without normalization if and only
if no modifier follows the marker, or there is no signature to be read. -/
theorem parse?_marker_iff {text : Text} (free : ¬ thunkMarker <:+: text) :
    parse? (thunkMarker ++ text) = parse? (normalize (thunkMarker ++ text)) ↔
      parse? (normalize (thunkMarker ++ text)) = none ∨ dropModifiers text.trim = text.trim := by
  obtain ⟨front, run, split⟩ := exists_modifierRun text.trim
  have behind : body (thunkMarker ++ text)
      = front ++ body (normalize (thunkMarker ++ text)) := by
    rw [body_marker_append, body_normalize_marker_append free]
    exact split
  constructor
  · intro same
    cases parsed : parse? (normalize (thunkMarker ++ text)) with
    | none => exact .inl rfl
    | some signature =>
        rw [parsed] at same
        have bare : front = [] := eq_nil_of_parse?_behind run behind same parsed
        rw [bare, List.nil_append] at split
        exact .inr split.symm
  · rintro (nothing | unmodified)
    · rw [nothing, ← Option.not_isSome_iff_eq_none]
      intro found
      have kept := parse?_isSome_behind run behind found
      rw [nothing] at kept
      cases kept
    · refine parse?_congr ?_
      rw [body_marker_append, body_normalize_marker_append free, unmodified]

/-- A signature without modifiers behind the marker. -/
theorem parse?_marker_unmodified :
    ¬ thunkMarker <:+: "int __cdecl A::f(int)".toList ∧
      parse? (thunkMarker ++ "int __cdecl A::f(int)".toList)
        = parse? (normalize (thunkMarker ++ "int __cdecl A::f(int)".toList)) :=
  ⟨free_of_not_mem (by decide), (parse?_marker_iff (free_of_not_mem (by decide))).2
    (.inr (by decide))⟩

/-- The access specifier and `virtual` get into the return type if the marker was not
removed before. -/
theorem parse?_marker_ne :
    let text := "public: virtual void __thiscall A::B(void)".toList
    ¬ thunkMarker <:+: text ∧
      parse? (thunkMarker ++ text) ≠ parse? (normalize (thunkMarker ++ text)) ∧
      parse? (thunkMarker ++ text) =
        some ⟨"public: virtual void".toList, .thiscall, ⟨"A".toList, "B".toList⟩, []⟩ ∧
      parse? (normalize (thunkMarker ++ text)) =
        some ⟨"void".toList, .thiscall, ⟨"A".toList, "B".toList⟩, []⟩ :=
  ⟨free_of_not_mem (by decide), by decide, by decide, by decide⟩

end Signature

end SignatureExport
