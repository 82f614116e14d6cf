import Mathlib.Data.List.Infix
import Mathlib.Logic.Relation
import SignatureExport.Proofs.Signature.ThunkRemoval

/-!
# Normal forms of thunk removal

A *removal* takes one marker out of a text.  It may join the halves of another marker.  No
order of removals goes on forever, since each makes the text shorter, and all of them end in
the same text (`Removals.eq_removeThunks`).

The invariant is `removeThunks` itself.  Reading a marker leaves the stack as it was, so a
removal does not change what is left in the end, and no marker is ever left.

A *sweep* removes the markers of a text from left to right in one pass.  It is one order of
removals among others.  A text is swept until it holds no marker, which takes no more sweeps
than there is room for markers (`exists_sweeps`).
-/

namespace SignatureExport

namespace Signature

open Text

/-! ## What is left on the stack -/

/-- A stack without a marker stays so. -/
theorem free_pushDroppingThunk {stack : Text} (free : ¬ thunkMarker.reverse <:+: stack) (c : Char) :
    ¬ thunkMarker.reverse <:+: pushDroppingThunk stack c := by
  rw [pushDroppingThunk]
  cases found : Text.after? thunkMarker.reverse (c :: stack) with
  | none =>
      intro inside
      rcases List.infix_cons_iff.1 inside with ⟨rest, onTop⟩ | below
      · rw [Text.after?_eq_some_iff.2 onTop.symm] at found
        cases found
      · exact free below
  | some rest =>
      -- the marker is more than the character on top, so the rest lies below it
      have below : stack = thunkMarker.reverse.tail ++ rest :=
        (List.cons.inj (Text.after?_eq_some_iff.1 found)).2
      intro inside
      exact free (below ▸ inside.trans (List.suffix_append _ rest).isInfix)

theorem free_foldl_pushDroppingThunk {stack : Text} (free : ¬ thunkMarker.reverse <:+: stack)
    (text : Text) : ¬ thunkMarker.reverse <:+: text.foldl pushDroppingThunk stack := by
  induction text generalizing stack with
  | nil => exact free
  | cons c rest ih => exact ih (free_pushDroppingThunk free c)

/-- No marker is left. -/
theorem free_removeThunks (text : Text) : ¬ thunkMarker <:+: removeThunks text := by
  have free := @free_foldl_pushDroppingThunk [] (by decide) text
  rwa [← List.reverse_infix, List.reverse_reverse] at free

/-! ## Removals one at a time -/

/-- One marker is taken out of a text. -/
inductive Removal : Text → Text → Prop where
  | remove (front back : Text) : Removal (front ++ thunkMarker ++ back) (front ++ back)

/-- Markers are taken out of a text one after the other. -/
abbrev Removals : Text → Text → Prop := Relation.ReflTransGen Removal

variable {text next result : Text}

theorem exists_removal_iff : (∃ next, Removal text next) ↔ thunkMarker <:+: text := by
  constructor
  · rintro ⟨next, ⟨front, back⟩⟩
    exact ⟨front, back, rfl⟩
  · rintro ⟨front, back, rfl⟩
    exact ⟨_, .remove front back⟩

theorem Removal.length_eq (removal : Removal text next) :
    text.length = next.length + thunkMarker.length := by
  cases removal with
  | remove front back =>
      simp only [List.length_append]
      omega

theorem Removal.length_lt (removal : Removal text next) : next.length < text.length := by
  have equal := removal.length_eq
  have marker : 0 < thunkMarker.length := by decide
  omega

/-- Removals do not go on forever. -/
theorem wellFounded_removal : WellFounded fun next text => Removal text next :=
  Subrelation.wf Removal.length_lt (measure List.length).wf

theorem Removal.cons (c : Char) (removal : Removal text next) :
    Removal (c :: text) (c :: next) := by
  cases removal with
  | remove front back => exact .remove (c :: front) back

theorem Removals.cons (c : Char) (removals : Removals text next) :
    Removals (c :: text) (c :: next) :=
  removals.lift (c :: ·) fun _ _ removal => removal.cons c

theorem Removals.length_le (removals : Removals text next) : next.length ≤ text.length := by
  induction removals with
  | refl => exact Nat.le_refl _
  | tail _ removal ih => exact removal.length_lt.le.trans ih

/-- A removal does not change what is left in the end. -/
theorem Removal.removeThunks_eq (removal : Removal text next) :
    removeThunks text = removeThunks next := by
  cases removal with
  | remove front back => exact removeThunks_insert front back

theorem Removals.removeThunks_eq (removals : Removals text next) :
    removeThunks text = removeThunks next := by
  induction removals with
  | refl => rfl
  | tail _ removal ih => exact ih.trans removal.removeThunks_eq

/-- Removals in any order end in the same text. -/
theorem Removals.eq_removeThunks (removals : Removals text result)
    (free : ¬ thunkMarker <:+: result) : result = removeThunks text := by
  rw [removals.removeThunks_eq, removeThunks_of_free free]

/-! ## Sweeps -/

/-- The text without the markers that it holds, those formed by a removal apart. -/
def sweep (text : Text) : Text := text.replaceAll thunkMarker []

theorem replaceFrom_length (old new passed rest : Text) :
    replaceFrom old new passed.length (passed ++ rest) = replaceFrom old new 0 rest := by
  induction passed with
  | nil => rfl
  | cons c passed ih => exact ih

theorem sweep_marker_append (rest : Text) : sweep (thunkMarker ++ rest) = sweep rest :=
  replaceFrom_length thunkMarker [] thunkMarker.tail rest

theorem sweep_cons {c : Char} {rest : Text} (apart : ¬ thunkMarker <+: c :: rest) :
    sweep (c :: rest) = c :: sweep rest := by
  rw [sweep, replaceAll, replaceFrom, if_neg (mt List.isPrefixOf_iff_prefix.1 apart)]
  rfl

/-- A sweep is an order of removals. -/
theorem removals_sweep (text : Text) : Removals text (sweep text) := by
  match text with
  | [] => exact .refl
  | c :: rest =>
      by_cases leading : thunkMarker <+: c :: rest
      · obtain ⟨behind, equal⟩ := leading
        have removal : Removal (c :: rest) behind := equal ▸ .remove [] behind
        have shorter := removal.length_lt
        rw [← equal, sweep_marker_append, equal]
        exact .head removal (removals_sweep behind)
      · rw [sweep_cons leading]
        exact (removals_sweep rest).cons c
termination_by text.length
decreasing_by
  · exact shorter
  · exact Nat.lt_succ_self rest.length

theorem sweep_ne {text : Text} (inside : thunkMarker <:+: text) : sweep text ≠ text := by
  induction text with
  | nil => exact absurd inside (by decide)
  | cons c rest ih =>
      by_cases leading : thunkMarker <+: c :: rest
      · obtain ⟨behind, equal⟩ := leading
        intro same
        have shorter : (sweep behind).length ≤ behind.length :=
          Removals.length_le (removals_sweep behind)
        rw [← equal, sweep_marker_append] at same
        have lengths := congrArg List.length same
        rw [List.length_append] at lengths
        have marker : 0 < thunkMarker.length := by decide
        omega
      · rw [sweep_cons leading]
        intro same
        rcases List.infix_cons_iff.1 inside with onTop | below
        · exact leading onTop
        · exact ih below (List.cons.inj same).2

/-- A sweep makes a text with a marker shorter. -/
theorem length_sweep {text : Text} (inside : thunkMarker <:+: text) :
    (sweep text).length + thunkMarker.length ≤ text.length := by
  rcases (removals_sweep text).cases_head with same | ⟨next, removal, others⟩
  · exact absurd same.symm (sweep_ne inside)
  · have rest : (sweep text).length ≤ next.length := Removals.length_le others
    have first := removal.length_eq
    omega

theorem removals_sweeps (passes : Nat) (text : Text) : Removals text (sweep^[passes] text) := by
  induction passes generalizing text with
  | zero => exact .refl
  | succ passes ih =>
      rw [Function.iterate_succ_apply]
      exact (removals_sweep text).trans (ih (sweep text))

/-- Sweeping a text until it holds no marker comes to an end. -/
theorem exists_sweeps (text : Text) : ∃ passes ≤ text.length / thunkMarker.length,
    (∀ earlier < passes, thunkMarker <:+: sweep^[earlier] text) ∧
      ¬ thunkMarker <:+: sweep^[passes] text := by
  by_cases inside : thunkMarker <:+: text
  · have room := length_sweep inside
    have marker : 0 < thunkMarker.length := by decide
    have shorter : (sweep text).length < text.length := by omega
    obtain ⟨passes, bound, before, free⟩ := exists_sweeps (sweep text)
    refine ⟨passes + 1, ?_, ?_, free⟩
    · rw [Nat.le_div_iff_mul_le marker] at bound ⊢
      rw [Nat.succ_mul]
      omega
    · intro earlier smaller
      cases earlier with
      | zero => exact inside
      | succ earlier => exact before earlier (Nat.lt_of_succ_lt_succ smaller)
  · exact ⟨0, Nat.zero_le _, fun _ none => absurd none (Nat.not_lt_zero _), inside⟩
termination_by text.length

/-! ## Normalized signatures -/

theorem free_normalize (text : Text) : ¬ thunkMarker <:+: normalize text := fun inside =>
  free_removeThunks text (inside.trans (infix_of_trim _))

/-- Trimming does not take a marker away. -/
theorem free_of_normalize_eq_trim {text : Text} (same : normalize text = text.trim) :
    ¬ thunkMarker <:+: text := by
  rintro ⟨front, back, rfl⟩
  have solid (kept : Text) : (normalize kept).countP (!isBlank ·) ≤ kept.countP (!isBlank ·) :=
    (normalize_sublist kept).countP_le
  have counts := solid (front ++ back)
  have whole := congrArg (List.countP (!isBlank ·)) same
  rw [normalize, removeThunks_insert, ← normalize, countP_trim] at whole
  have marker : thunkMarker.countP (!isBlank ·) = 8 := by decide
  simp only [List.countP_append, marker] at whole counts
  omega

/-- A marker makes no difference where it stands.  Removals do not go on forever, and when
no marker is left to be removed, the trimmed text is the normalized one. -/
theorem normalize_removals :
    (∀ front back, normalize (front ++ thunkMarker ++ back) = normalize (front ++ back)) ∧
    (WellFounded fun next text => Removal text next) ∧
    ∀ text result, Removals text result → (∀ next, ¬ Removal result next) →
      ¬ thunkMarker <:+: result ∧ result.trim = normalize text := by
  refine ⟨?_, wellFounded_removal, ?_⟩
  · intro front back
    rw [normalize, removeThunks_insert, normalize]
  · intro text result removals last
    have free : ¬ thunkMarker <:+: result := fun inside =>
      (exists_removal_iff.2 inside).elim last
    refine ⟨free, ?_⟩
    rw [removals.eq_removeThunks free, normalize]

/-- A marker around a marker, and one behind them that is removed first. -/
theorem normalize_removals_nested :
    let text : Text := "[thu[thunk]:nk]: x[thunk]:".toList
    let result : Text := " x".toList
    Removals text result ∧ (∀ next, ¬ Removal result next) ∧
      ¬ thunkMarker <:+: result ∧ result.trim = normalize text := by
  intro text result
  have last : Removal text "[thu[thunk]:nk]: x".toList :=
    .remove "[thu[thunk]:nk]: x".toList []
  have inner : Removal "[thu[thunk]:nk]: x".toList "[thunk]: x".toList :=
    .remove "[thu".toList "nk]: x".toList
  have formed : Removal "[thunk]: x".toList result := .remove [] result
  have removals : Removals text result := .head last (.head inner (.single formed))
  have none : ∀ next, ¬ Removal result next := fun next removal =>
    free_of_not_mem (by decide) (exists_removal_iff.1 ⟨next, removal⟩)
  exact ⟨removals, none, normalize_removals.2.2 text result removals none⟩

/-- A text is normalized by sweeping it until it holds no marker and trimming it then.  The
result has neither a marker nor blanks at its ends, and it is normalized already. -/
theorem normalize_normalForm (text : Text) :
    (∃ passes ≤ text.length / thunkMarker.length,
      (∀ earlier < passes, thunkMarker <:+: sweep^[earlier] text) ∧
      ¬ thunkMarker <:+: sweep^[passes] text ∧
      normalize text = (sweep^[passes] text).trim) ∧
    ¬ thunkMarker <:+: normalize text ∧
    IsTrimmed (normalize text) ∧
    (normalize text = text.trim ↔ ¬ thunkMarker <:+: text) ∧
    normalize (normalize text) = normalize text := by
  have trimmed : IsTrimmed (normalize text) := isTrimmed_trim (removeThunks text)
  refine ⟨?_, free_normalize text, trimmed, ⟨free_of_normalize_eq_trim, ?_⟩, ?_⟩
  · obtain ⟨passes, bound, before, free⟩ := exists_sweeps text
    refine ⟨passes, bound, before, free, ?_⟩
    rw [normalize, (removals_sweeps passes text).eq_removeThunks free]
  · intro free
    rw [normalize, removeThunks_of_free free]
  · rw [normalize, removeThunks_of_free (free_normalize text), trimmed.trim_eq]

end Signature

end SignatureExport
