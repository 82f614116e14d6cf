import Mathlib.Data.List.Forall2
import Mathlib.Data.List.Induction
import Mathlib.Data.Nat.Digits.Defs
import SignatureExport.Proofs.Address.Digits

/-!
# Spellings of addresses

A number is spelled in base sixteen by digits of either case, at least one, with or without
a radix mark in front (`Spells`).  Leading zeros do not count, so a spelling can have any
length.  An address is read from a spelling of its number and from nothing else, and a
number that does not fit is refused (`ofText?_eq_some_iff`).
-/

namespace SignatureExport

namespace Address

/-! ## Digits -/

/-- A character is the digit of a value: it stands there in the row of the digits, in lower
or in upper case. -/
def IsDigit (c : Char) (value : Nat) : Prop :=
  "0123456789abcdef".toList[value]? = some c ∨ "0123456789ABCDEF".toList[value]? = some c

/-- The characters from `first` on are at their places in a row. -/
theorem getElem?_of_range {row : Text} {c first last : Char} {place : Nat}
    (within : first ≤ c ∧ c ≤ last)
    (listed : ∀ n < last.toNat + 1 - first.toNat,
      row[n + place]? = some (Char.ofNat (n + first.toNat))) :
    row[c.toNat - first.toNat + place]? = some c := by
  obtain ⟨above, below⟩ := within
  have low : first.toNat ≤ c.toNat := above
  have high : c.toNat ≤ last.toNat := below
  rw [listed _ (by omega), Nat.sub_add_cancel low, Char.ofNat_toNat]

theorem digitValue?_eq_some_iff {c : Char} {value : Nat} :
    digitValue? c = some value ↔ IsDigit c value := by
  constructor
  · intro read
    rw [digitValue?] at read
    split at read
    next decimal =>
      cases read
      exact .inl (@getElem?_of_range _ _ _ _ 0 decimal (by decide))
    next =>
      split at read
      next lower =>
        cases read
        exact .inl (getElem?_of_range lower (by decide))
      next =>
        split at read
        next upper =>
          cases read
          exact .inr (getElem?_of_range upper (by decide))
        next => cases read
  · have known : ∀ row ∈ ["0123456789abcdef".toList, "0123456789ABCDEF".toList],
        ∀ place < 16, row[place]?.bind digitValue? = some place := by decide
    have short : ∀ row ∈ ["0123456789abcdef".toList, "0123456789ABCDEF".toList],
        row.length = 16 := by decide
    have inRow {row : Text}
        (isRow : row ∈ ["0123456789abcdef".toList, "0123456789ABCDEF".toList])
        (listed : row[value]? = some c) : digitValue? c = some value := by
      obtain ⟨bound, -⟩ := List.getElem?_eq_some_iff.1 listed
      have read := known row isRow value (short row isRow ▸ bound)
      rwa [listed, Option.bind_some] at read
    rintro (lower | upper)
    · exact inRow (by simp) lower
    · exact inRow (by simp) upper

theorem not_isDigit {c : Char} {value : Nat} (unread : digitValue? c = none) :
    ¬ IsDigit c value := by
  intro isDigit
  rw [← digitValue?_eq_some_iff, unread] at isDigit
  cases isDigit

theorem not_forall₂_isDigit {first c : Char} {rest : Text} {digits : List Nat}
    (unread : digitValue? c = none) : ¬ List.Forall₂ IsDigit (first :: c :: rest) digits := by
  intro spelled
  cases spelled with
  | cons _ others =>
      cases others with
      | cons isDigit _ => exact not_isDigit unread isDigit

theorem mapM_digitValue?_iff {letters : Text} {digits : List Nat} :
    letters.mapM digitValue? = some digits ↔ List.Forall₂ IsDigit letters digits := by
  induction letters generalizing digits with
  | nil => simp [List.forall₂_nil_left_iff, eq_comm]
  | cons c letters ih =>
      rw [List.mapM_cons]
      cases digits with
      | nil => simp [Option.bind_eq_some_iff, List.forall₂_nil_right_iff]
      | cons digit digits =>
          rw [List.forall₂_cons, ← ih, ← digitValue?_eq_some_iff]
          simp [Option.bind_eq_some_iff]

/-! ## Numbers -/

theorem ofDigits_eq (digits : List Nat) : ofDigits digits = Nat.ofDigits 16 digits.reverse := by
  induction digits using List.reverseRecOn with
  | nil => rfl
  | append_singleton digits digit ih =>
      rw [ofDigits_concat, ih, List.reverse_append, List.reverse_singleton, List.singleton_append,
        Nat.ofDigits_cons]
      omega

/-- A text spells a number: digits of base sixteen, with or without a radix mark. -/
inductive Spells : Text → Nat → Prop where
  | digits {mark letters : Text} {digits : List Nat}
      (marked : mark ∈ [[], "0x".toList, "0X".toList]) (nonempty : letters ≠ [])
      (spelled : List.Forall₂ IsDigit letters digits) :
      Spells (mark ++ letters) (Nat.ofDigits 16 digits.reverse)

/-- No space is part of a spelling. -/
theorem Spells.space_not_mem {text : Text} {number : Nat} (spells : Spells text number) :
    ' ' ∉ text := by
  cases spells with
  | @digits mark letters digits marked nonempty spelled =>
      have inMark : ∀ mark ∈ [[], "0x".toList, "0X".toList], ' ' ∉ mark := by decide
      have inLetters : ' ' ∉ letters := by
        clear nonempty
        induction spelled with
        | nil => exact List.not_mem_nil
        | cons isDigit _ ih =>
            rw [List.mem_cons, not_or]
            refine ⟨?_, ih⟩
            rintro rfl
            exact not_isDigit (by decide) isDigit
      exact List.not_mem_append (inMark mark marked) inLetters

theorem exists_radixMark (text : Text) :
    ∃ mark ∈ [[], "0x".toList, "0X".toList], text = mark ++ dropRadixMark text := by
  unfold dropRadixMark
  split
  next => exact ⟨"0x".toList, by simp, rfl⟩
  next => exact ⟨"0X".toList, by simp, rfl⟩
  next => exact ⟨[], by simp, rfl⟩

/-- The letter of a radix mark is no digit, so digits do not start with a mark. -/
theorem dropRadixMark_append {mark letters : Text} {digits : List Nat}
    (marked : mark ∈ [[], "0x".toList, "0X".toList])
    (spelled : List.Forall₂ IsDigit letters digits) : dropRadixMark (mark ++ letters) = letters := by
  simp only [List.mem_cons, List.not_mem_nil, or_false] at marked
  rcases marked with rfl | rfl | rfl
  · rw [List.nil_append]
    unfold dropRadixMark
    split
    next => exact absurd spelled (not_forall₂_isDigit (by decide))
    next => exact absurd spelled (not_forall₂_isDigit (by decide))
    next => rfl
  · rfl
  · rfl

/-- An address is read from the spellings of its number. -/
theorem ofText?_eq_some_iff {text : Text} {address : Address} :
    ofText? text = some address ↔ Spells text address.toNat := by
  constructor
  · intro read
    obtain ⟨mark, marked, equal⟩ := exists_radixMark text
    rw [ofText?] at read
    split at read
    next => cases read
    next => cases read
    next digits nonempty found =>
      split at read
      next bound =>
        cases read
        rw [UInt64.toNat_ofNat_of_lt' bound, ofDigits_eq, equal]
        have spelled := mapM_digitValue?_iff.1 found
        refine .digits marked ?_ spelled
        intro empty
        rw [empty] at spelled
        cases spelled
        exact nonempty rfl
      next => cases read
  · intro spells
    have bound : address.toNat < UInt64.size := address.toNat_lt
    generalize isNumber : address.toNat = number at spells bound
    cases spells with
    | @digits mark letters digits marked nonempty spelled =>
        rw [ofText?, dropRadixMark_append marked spelled, mapM_digitValue?_iff.2 spelled]
        cases digits with
        | nil => exact absurd (List.forall₂_nil_right_iff.1 spelled) nonempty
        | cons digit digits =>
            simp only [ofDigits_eq, if_pos bound]
            rw [← isNumber, UInt64.ofNat_toNat]

/-! ## Leading zeros -/

/-- A spelling with zeros inserted behind its radix mark. -/
def insertZeros (zeros : Nat) (spelling : Text) : Text :=
  spelling.take 2 ++ List.replicate zeros '0' ++ spelling.drop 2

/-- An address is read from its letters, leading zeros or not. -/
theorem ofText?_insertZeros_letters {letter : Nat → Char}
    (known : ∀ digit < 16, digitValue? (letter digit) = some digit) (isZero : letter 0 = '0')
    (zeros : Nat) (address : Address) :
    ofText? (insertZeros zeros ('0' :: 'x' :: address.digits.map letter)) = some address := by
  have spelled : insertZeros zeros ('0' :: 'x' :: address.digits.map letter)
      = '0' :: 'x' :: (List.replicate zeros 0 ++ address.digits).map letter := by
    rw [List.map_append, List.map_replicate, isZero]
    rfl
  rw [spelled]
  refine ofText?_letters known ?_ ?_ ?_
  · exact List.append_ne_nil_of_right_ne_nil _ address.digits_ne_nil
  · intro digit listed
    rcases List.mem_append.1 listed with inZeros | inDigits
    · rw [List.eq_of_mem_replicate inZeros]
      decide
    · exact digits_lt inDigits
  · exact (ofDigits_replicate_zero_append zeros _).trans address.ofDigits_digits

/-- An address is read back from what is written for it, leading zeros or not. -/
theorem ofText?_insertZeros (address : Address) (zeros : Nat) {spelling : Text}
    (written : spelling ∈ [address.lowerHex, address.upperHex]) :
    ofText? (insertZeros zeros spelling) = some address := by
  simp only [List.mem_cons, List.not_mem_nil, or_false] at written
  rcases written with rfl | rfl
  · exact ofText?_insertZeros_letters digitValue?_lower rfl zeros address
  · exact ofText?_insertZeros_letters digitValue?_upper rfl zeros address

end Address

end SignatureExport
