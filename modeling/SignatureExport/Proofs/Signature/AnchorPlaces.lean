import SignatureExport.Proofs.Signature.AnchorOrder
import SignatureExport.Proofs.Text.Offsets

/-!
# The places of anchors

A text can be searched for its tokens in one pass that goes on behind each token it finds
(`tokensFrom`).  The anchors are the tokens of such a pass that stand alone
(`filter_tokensFrom`).  No anchor is lost behind a token that does not, since the
characters of a token are no blanks and no anchor starts behind one of them.

In bytes, an anchor is a convention with the offsets between which its token stands.
`places_exact` says which of these triples belong to a text, and that they come from left
to right with room between them.
-/

namespace SignatureExport

namespace Anchor

open Text (StartsWord)
open Utf8 (CharAt SpellsAt width)

/-! ## A pass over the tokens -/

/-- The token that a text starts with, and the text behind it. -/
def leading? (text : Text) : Option (CallingConvention × Text) :=
  CallingConvention.all.findSome? fun convention =>
    (Text.after? convention.token text).map fun after => (convention, after)

/-- The tokens of `text` behind the characters `passed`, those that do not stand alone
included.  A token is passed over as a whole: `skip` counts its characters still to be
passed over. -/
def tokensFrom : Nat → Text → Text → List Anchor
  | _, _, [] => []
  | skip + 1, passed, c :: rest => tokensFrom skip (c :: passed) rest
  | 0, passed, c :: rest =>
      match leading? (c :: rest) with
      | some (convention, after) =>
          ⟨convention, passed, after⟩ ::
            tokensFrom (convention.token.length - 1) (c :: passed) rest
      | none => tokensFrom 0 (c :: passed) rest

/-- Whether the token of an anchor stands alone. -/
def isAlone (anchor : Anchor) : Bool :=
  (anchor.passed = [] || startsBlank anchor.passed) && startsBlank anchor.after

theorem isAlone_iff {anchor : Anchor} :
    anchor.isAlone = true ↔ StandsAlone anchor.before anchor.after := by
  rw [isAlone, Bool.and_eq_true, Bool.or_eq_true, decide_eq_true_iff, before]
  constructor
  · intro both
    exact ⟨startsWord_iff_passed.2 both.1, both.2⟩
  · intro alone
    exact ⟨startsWord_iff_passed.1 alone.start, alone.stop⟩

theorem leading?_eq_some_iff {text after : Text} {convention : CallingConvention} :
    leading? text = some (convention, after) ↔ convention.token ++ after = text := by
  have sound {found : CallingConvention × Text} (reads : leading? text = some found) :
      found.1.token ++ found.2 = text := by
    obtain ⟨own, -, reads⟩ := List.exists_of_findSome?_eq_some reads
    obtain ⟨rest, cut, rfl⟩ := Option.map_eq_some_iff.1 reads
    exact (Text.after?_eq_some_iff.1 cut).symm
  refine ⟨sound, ?_⟩
  rintro rfl
  cases reads : leading? (convention.token ++ after) with
  | none =>
      have own := List.findSome?_eq_none_iff.1 reads convention (CallingConvention.mem_all _)
      simp [Text.after?_eq_some_iff.2 rfl] at own
  | some found =>
      obtain ⟨sameConvention, sameAfter⟩ := CallingConvention.token_append_inj (sound reads)
      rw [← sameConvention, ← sameAfter]

/-- No anchor starts where no token does. -/
theorem here?_eq_none_of_leading? {passed text : Text} (absent : leading? text = none) :
    here? passed text = none := by
  cases reads : here? passed text with
  | none => rfl
  | some anchor =>
      obtain ⟨-, equal, -⟩ := here?_eq_some_iff.1 reads
      simp [leading?_eq_some_iff.2 equal] at absent

/-- The anchor at the start of a text is the token there, if it stands alone. -/
theorem here?_eq_of_leading? {passed text after : Text} {convention : CallingConvention}
    (found : leading? text = some (convention, after)) :
    here? passed text =
      if isAlone ⟨convention, passed, after⟩ then some ⟨convention, passed, after⟩ else none := by
  have equal := leading?_eq_some_iff.1 found
  split
  next alone => exact here?_eq_some_iff.2 ⟨rfl, equal, isAlone_iff.1 alone⟩
  next apart =>
    cases reads : here? passed text with
    | none => rfl
    | some anchor =>
        obtain ⟨samePassed, sameText, alone⟩ := here?_eq_some_iff.1 reads
        obtain ⟨rfl, rfl⟩ := CallingConvention.token_append_inj (equal.trans sameText.symm)
        have isAlone : isAlone ⟨anchor.convention, passed, anchor.after⟩ = true :=
          isAlone_iff.2 alone
        exact absurd isAlone apart

/-- No anchor starts behind a character that is not blank. -/
theorem here?_behind {c : Char} (bare : isBlank c = false) (passed text : Text) :
    here? (c :: passed) text = none := by
  rw [here?, if_neg (by simp [startsBlank, bare])]

/-- Where the pass has just entered a token, the last character passed is not blank, and
neither are those still to be passed over. -/
def Inside (skip : Nat) (passed text : Text) : Prop :=
  skip ≠ 0 → (∃ c rest, passed = c :: rest ∧ isBlank c = false) ∧
    ∀ c ∈ text.take skip, isBlank c = false

/-- The anchors of a text are the tokens of a pass that stand alone. -/
theorem filter_tokensFrom {skip : Nat} {passed text : Text} (inside : Inside skip passed text) :
    (tokensFrom skip passed text).filter isAlone = inRest passed text := by
  induction text generalizing skip passed with
  | nil => rw [tokensFrom, inRest, List.filter_nil]
  | cons c rest ih =>
      rw [inRest]
      cases skip with
      | succ skip =>
          obtain ⟨⟨last, others, rfl, bare⟩, solid⟩ := inside (Nat.succ_ne_zero skip)
          rw [List.take_succ_cons] at solid
          have inRest : Inside skip (c :: last :: others) rest := fun _ =>
            ⟨⟨c, last :: others, rfl, solid c List.mem_cons_self⟩,
              fun d listed => solid d (List.mem_cons_of_mem c listed)⟩
          rw [tokensFrom, here?_behind bare, ih inRest]
          rfl
      | zero =>
          rw [tokensFrom]
          cases found : leading? (c :: rest) with
          | none =>
              have outside : Inside 0 (c :: passed) rest := fun nonzero => absurd rfl nonzero
              rw [here?_eq_none_of_leading? found]
              exact ih outside
          | some pair =>
              obtain ⟨convention, after⟩ := pair
              have solid := convention.isWord_token.solid
              obtain ⟨name, token⟩ := convention.exists_token_eq
              have equal := leading?_eq_some_iff.1 found
              rw [token] at equal solid
              obtain ⟨rfl, rfl⟩ := List.cons.inj equal
              -- the pass goes on behind the underscore that the token starts with
              have inToken : Inside (convention.token.length - 1) ('_' :: passed)
                  (name ++ after) := by
                refine fun _ => ⟨⟨'_', passed, rfl, by decide⟩, fun d listed => ?_⟩
                rw [token, List.length_cons, Nat.add_sub_cancel, List.take_left] at listed
                exact solid d (List.mem_cons_of_mem _ listed)
              rw [here?_eq_of_leading? found]
              dsimp only
              rw [List.filter_cons, ih inToken]
              split
              next => rfl
              next => rfl

/-! ## Places in bytes -/

/-- The convention of an anchor and the offsets at which its token starts and stops. -/
def place (anchor : Anchor) : CallingConvention × Nat × Nat :=
  (anchor.convention, anchor.start, anchor.stop)

/-- The token of a convention stands alone between two byte offsets of a text. -/
structure StandsAt (text : Text) (convention : CallingConvention) (start stop : Nat) : Prop where
  spelled : SpellsAt text convention.token start stop
  /-- A character that ends at the start of the token is blank. -/
  before : ∀ offset c, CharAt text offset c → offset + c.utf8Size = start → isBlank c = true
  /-- A character starts at the end of the token, and it is blank. -/
  behind : ∃ c, CharAt text stop c ∧ isBlank c = true

theorem start_eq (anchor : Anchor) : anchor.start = width anchor.before := by
  rw [start, before, Utf8.width_reverse]

theorem stop_eq (anchor : Anchor) :
    anchor.stop = width (anchor.before ++ anchor.convention.token) := by
  rw [stop, start_eq, Utf8.width_append]

theorem start_lt_stop (anchor : Anchor) : anchor.start < anchor.stop := by
  obtain ⟨name, token⟩ := anchor.convention.exists_token_eq
  have nonempty : width anchor.convention.token ≠ 0 := by
    rw [Ne, Utf8.width_eq_zero_iff, token]
    exact List.cons_ne_nil _ _
  rw [stop]
  omega

/-- Standing alone is a matter of the characters at the two offsets. -/
theorem standsAlone_iff_charAt {before token after : Text} :
    StandsAlone before after ↔
      (∀ offset c, CharAt (before ++ token ++ after) offset c →
        offset + c.utf8Size = width before → isBlank c = true) ∧
      ∃ c, CharAt (before ++ token ++ after) (width (before ++ token)) c ∧ isBlank c = true := by
  have stops : startsBlank after = true ↔ ∃ c, after.head? = some c ∧ isBlank c = true := by
    cases after <;> simp [startsBlank]
  constructor
  · rintro ⟨start, stop⟩
    refine ⟨fun offset c found ends => start c ?_, ?_⟩
    · rw [List.append_assoc] at found
      exact Utf8.charAt_last_iff.1 ⟨offset, found, ends⟩
    · obtain ⟨c, first, blank⟩ := stops.1 stop
      exact ⟨c, Utf8.charAt_width_iff.2 first, blank⟩
  · rintro ⟨start, c, found, blank⟩
    refine ⟨fun d last => ?_, stops.2 ⟨c, Utf8.charAt_width_iff.1 found, blank⟩⟩
    rw [List.append_assoc] at start
    obtain ⟨offset, foundLast, ends⟩ := Utf8.charAt_last_iff.2 last
    exact start offset d foundLast ends

theorem mem_places_iff {text : Text} {convention : CallingConvention} {start stop : Nat} :
    (convention, start, stop) ∈ (all text).map place ↔ StandsAt text convention start stop := by
  rw [List.mem_map]
  constructor
  · rintro ⟨anchor, listed, same⟩
    obtain ⟨rfl, alone⟩ := mem_all_iff.1 listed
    obtain ⟨rfl, sameStart, sameStop⟩ := by simpa only [place, Prod.mk.injEq] using same
    rw [start_eq] at sameStart
    rw [stop_eq] at sameStop
    subst sameStart sameStop
    obtain ⟨before, behind⟩ := standsAlone_iff_charAt.1 alone
    exact ⟨Utf8.spellsAt_iff.2 ⟨anchor.before, anchor.after, rfl, rfl, rfl⟩, before, behind⟩
  · rintro ⟨spelled, before, behind⟩
    obtain ⟨front, after, rfl, rfl, rfl⟩ := Utf8.spellsAt_iff.1 spelled
    have alone : StandsAlone front after := standsAlone_iff_charAt.2 ⟨before, behind⟩
    refine ⟨⟨convention, front.reverse, after⟩, mem_all_iff.2 ⟨?_, ?_⟩, ?_⟩
    · simp [Anchor.text, Anchor.before]
    · simpa [Anchor.before] using alone
    · simp [place, stop_eq, start_eq, Anchor.before]

/-! ## The order of places -/

/-- Two tokens that stand alone have room between them. -/
theorem stop_lt_start {first second : Anchor} (same : first.text = second.text)
    (alone : StandsAlone first.before first.after)
    (aloneSecond : StandsAlone second.before second.after)
    (shorter : first.before.length < second.before.length) : first.stop < second.start := by
  obtain ⟨d, rest, after, blank⟩ := startsBlank_iff.1 alone.stop
  obtain ⟨name, token⟩ := second.convention.exists_token_eq
  have cut : first.before ++ first.convention.token ++ first.after =
      second.before ++ (second.convention.token ++ second.after) := by
    rw [← List.append_assoc]
    exact same
  rw [stop_eq, start_eq]
  rcases List.append_eq_append_iff.1 cut with ⟨between, longer, behind⟩ | ⟨more, longer, behind⟩
  · -- the blank behind the first token starts no token
    have nonempty : between ≠ [] := by
      rintro rfl
      rw [after, token] at behind
      obtain ⟨rfl, -⟩ := List.cons.inj behind
      exact absurd blank (by decide)
    have positive : width between ≠ 0 := mt Utf8.width_eq_zero_iff.1 nonempty
    have widths := Utf8.width_append (first.before ++ first.convention.token) between
    rw [longer]
    omega
  · -- the second token would start behind a character of the first
    rcases List.append_eq_append_iff.1 longer with ⟨part, equal, inToken⟩ | ⟨part, equal, -⟩
    · rcases List.eq_nil_or_concat part with rfl | ⟨front, c, rfl⟩
      · rw [equal, List.append_nil] at shorter
        exact absurd shorter (Nat.lt_irrefl _)
      · have bare : isBlank c = false := first.convention.isWord_token.solid c (by simp [inToken])
        have blankLast : isBlank c = true := aloneSecond.start c (by simp [equal])
        exact absurd blankLast (by simp [bare])
    · rw [equal, List.length_append] at shorter
      omega

/-- The anchors of a text are the places at which a token stands alone, from left to right
and with room between them.  They are found as well by a pass over all tokens that leaves
out those which do not stand alone. -/
theorem places_exact (text : Text) :
    (∀ convention start stop, (convention, start, stop) ∈ (all text).map place ↔
      StandsAt text convention start stop) ∧
    (∀ anchor ∈ all text, anchor.start < anchor.stop) ∧
    (all text).Pairwise (fun first second => first.stop < second.start) ∧
    (tokensFrom 0 [] text).filter isAlone = all text := by
  refine ⟨fun convention start stop => mem_places_iff, fun anchor _ => start_lt_stop anchor, ?_,
    filter_tokensFrom fun nonzero => absurd rfl nonzero⟩
  refine (pairwise_all text).imp_of_mem fun {first second} inFirst inSecond shorter => ?_
  obtain ⟨whole, alone⟩ := mem_all_iff.1 inFirst
  obtain ⟨wholeSecond, aloneSecond⟩ := mem_all_iff.1 inSecond
  exact stop_lt_start (whole.trans wholeSecond.symm) alone aloneSecond shorter

example : (tokensFrom 0 [] "é__cdecl __stdcall f".toList).map place
    = [(.cdecl, 2, 9), (.stdcall, 10, 19)] := by decide
example : (all "é__cdecl __stdcall f".toList).map place = [(.stdcall, 10, 19)] := by decide

end Anchor

end SignatureExport
