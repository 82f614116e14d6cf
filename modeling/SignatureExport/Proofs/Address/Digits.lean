import Mathlib.Algebra.Group.Nat.Defs
import SignatureExport.Address
import SignatureExport.Proofs.Text.Words

/-!
# The digits of an address

The digits of an address stand for it (`ofDigits_digits`).  A way to write the
digits can be read by any reader that knows each of the sixteen letters
(`mapM_letters`), so an address is read back from them (`ofText?_letters`).  Both of
its spellings are words, without a blank inside (`isWord_letters`).
-/

namespace SignatureExport

namespace Address

/-! ## The number that digits stand for -/

theorem ofDigits_concat (digits : List Nat) (digit : Nat) :
    ofDigits (digits ++ [digit]) = ofDigits digits * 16 + digit := by
  simp [ofDigits]

theorem ofDigits_cons_zero (digits : List Nat) : ofDigits (0 :: digits) = ofDigits digits := rfl

theorem ofDigits_lastDigits (count number : Nat) :
    ofDigits (lastDigits count number) = number % 16 ^ count := by
  induction count generalizing number with
  | zero => simp [lastDigits, ofDigits, Nat.mod_one]
  | succ count ih =>
      rw [lastDigits, ofDigits_concat, ih, Nat.pow_succ, Nat.mul_comm (16 ^ count) 16, Nat.mod_mul]
      omega

theorem ofDigits_replicate_zero_append (zeros : Nat) (digits : List Nat) :
    ofDigits (List.replicate zeros 0 ++ digits) = ofDigits digits := by
  induction zeros with
  | zero => rfl
  | succ zeros ih => rw [List.replicate_succ, List.cons_append, ofDigits_cons_zero, ih]

/-- Leading zeros add nothing. -/
theorem ofDigits_dropWhile_zero (digits : List Nat) :
    ofDigits (digits.dropWhile (· == 0)) = ofDigits digits := by
  induction digits with
  | nil => rfl
  | cons digit digits ih =>
      cases digit with
      | zero => rw [List.dropWhile_cons_of_pos rfl, ih, ofDigits_cons_zero]
      | succ digit => rfl

theorem mem_lastDigits_lt {count number digit : Nat} (listed : digit ∈ lastDigits count number) :
    digit < 16 := by
  induction count generalizing number with
  | zero => simp [lastDigits] at listed
  | succ count ih =>
      rw [lastDigits, List.mem_append, List.mem_singleton] at listed
      rcases listed with front | last
      · exact ih front
      · exact last ▸ Nat.mod_lt number (by decide)

/-! ## The digits of an address -/

theorem digits_ne_nil (address : Address) : address.digits ≠ [] := by
  rw [digits]
  split
  next => exact List.cons_ne_nil 0 []
  next nonempty => exact nonempty

theorem digits_lt {address : Address} {digit : Nat} (listed : digit ∈ address.digits) :
    digit < 16 := by
  rw [digits] at listed
  split at listed
  next =>
    rw [List.mem_singleton.1 listed]
    decide
  next => exact mem_lastDigits_lt ((List.dropWhile_suffix _).subset listed)

/-- An address is what its digits stand for. -/
theorem ofDigits_digits (address : Address) : ofDigits address.digits = address.toNat := by
  have whole : ofDigits ((lastDigits 16 address.toNat).dropWhile (· == 0)) = address.toNat := by
    rw [ofDigits_dropWhile_zero, ofDigits_lastDigits]
    exact Nat.mod_eq_of_lt address.toNat_lt
  rw [digits]
  split
  next empty =>
    rw [empty] at whole
    exact whole
  next => exact whole

/-! ## Reading letters -/

/-- Digits are read back from letters if the reader knows all sixteen of them. -/
theorem mapM_letters {letter : Nat → Char} {value? : Char → Option Nat}
    (known : ∀ digit < 16, value? (letter digit) = some digit) {digits : List Nat}
    (small : ∀ digit ∈ digits, digit < 16) :
    (digits.map letter).mapM value? = some digits := by
  induction digits with
  | nil => rfl
  | cons digit digits ih =>
      have rest := ih fun other listed => small other (List.mem_cons_of_mem digit listed)
      rw [List.map_cons, List.mapM_cons, known digit (small digit List.mem_cons_self), rest]
      rfl

theorem digitValue?_lower : ∀ digit < 16, digitValue? (Nat.digitChar digit) = some digit := by
  decide

theorem digitValue?_upper :
    ∀ digit < 16, digitValue? (Nat.digitChar digit).toUpper = some digit := by
  decide

/-- An address is read from the letters of digits that stand for it, behind a radix mark. -/
theorem ofText?_letters {letter : Nat → Char}
    (known : ∀ digit < 16, digitValue? (letter digit) = some digit) {digits : List Nat}
    (nonempty : digits ≠ []) (small : ∀ digit ∈ digits, digit < 16) {address : Address}
    (value : ofDigits digits = address.toNat) :
    ofText? ('0' :: 'x' :: digits.map letter) = some address := by
  obtain ⟨first, more, equal⟩ := List.exists_cons_of_ne_nil nonempty
  have bound : address.toNat < UInt64.size := address.toNat_lt
  rw [ofText?, dropRadixMark, mapM_letters known small]
  rw [equal] at value ⊢
  simp only [value, if_pos bound, UInt64.ofNat_toNat]

theorem ofText?_lowerHex (address : Address) : ofText? address.lowerHex = some address :=
  ofText?_letters digitValue?_lower address.digits_ne_nil (fun _ => digits_lt)
    address.ofDigits_digits

/-! ## Writing letters -/

/-- An address written with letters that are not blank is a word. -/
theorem isWord_letters {letter : Nat → Char}
    (solid : ∀ digit < 16, isBlank (letter digit) = false) (address : Address) :
    Text.IsWord ('0' :: 'x' :: address.digits.map letter) := by
  refine ⟨List.cons_ne_nil _ _, ?_⟩
  intro c inside
  rw [List.mem_cons, List.mem_cons, List.mem_map] at inside
  rcases inside with rfl | rfl | ⟨digit, listed, rfl⟩
  · decide
  · decide
  · exact solid digit (digits_lt listed)

theorem isWord_lowerHex (address : Address) : Text.IsWord address.lowerHex :=
  isWord_letters (by decide) address

theorem isWord_upperHex (address : Address) : Text.IsWord address.upperHex :=
  isWord_letters (by decide) address

end Address

end SignatureExport
