import SignatureExport.Text.Basic

/-!
# Addresses

An *address* is a 64-bit word.  It is read from hexadecimal digits of either
case, with or without `0x` in front, and a text that stands for a greater number
is refused.  It is written with `0x` and the fewest digits, in lower case or in
upper case.
-/

namespace SignatureExport

/-- The address of a function. -/
abbrev Address := UInt64

namespace Address

/-! ## Reading -/

/-- The value of a hexadecimal digit. -/
def digitValue? (c : Char) : Option Nat :=
  if '0' ≤ c ∧ c ≤ '9' then some (c.toNat - '0'.toNat)
  else if 'a' ≤ c ∧ c ≤ 'f' then some (c.toNat - 'a'.toNat + 10)
  else if 'A' ≤ c ∧ c ≤ 'F' then some (c.toNat - 'A'.toNat + 10)
  else none

/-- The number that some digit values stand for, most significant first. -/
def ofDigits (digits : List Nat) : Nat := digits.foldl (fun number digit => number * 16 + digit) 0

/-- The text behind a leading `0x` or `0X`, or all of it. -/
def dropRadixMark : Text → Text
  | '0' :: 'x' :: rest => rest
  | '0' :: 'X' :: rest => rest
  | text => text

/-- The address that a text spells, if it has at least one digit, only digits,
and a value below `2 ^ 64`. -/
def ofText? (text : Text) : Option Address :=
  match (dropRadixMark text).mapM digitValue? with
  | none | some [] => none
  | some digits =>
      if ofDigits digits < UInt64.size then some (UInt64.ofNat (ofDigits digits)) else none

/-! ## Writing -/

/-- The last `count` digits of a number, most significant first. -/
def lastDigits : Nat → Nat → List Nat
  | 0, _ => []
  | count + 1, number => lastDigits count (number / 16) ++ [number % 16]

/-- The digits of an address without leading zeros.  Zero has one digit. -/
def digits (address : Address) : List Nat :=
  match (lastDigits 16 address.toNat).dropWhile (· == 0) with
  | [] => [0]
  | significant => significant

/-- The address with `0x` in front and lower-case digits. -/
def lowerHex (address : Address) : Text := '0' :: 'x' :: address.digits.map Nat.digitChar

/-- The address with `0x` in front and upper-case digits. -/
def upperHex (address : Address) : Text :=
  '0' :: 'x' :: address.digits.map fun digit => (Nat.digitChar digit).toUpper

/-- Whether an address fits 32 bits. -/
def isNarrow (address : Address) : Bool := address.toNat < UInt32.size

example : ofText? "0x006bD4e0".toList = some 0x6BD4E0 := by decide
example : ofText? "FFFFFFFFFFFFFFFF".toList = some 0xFFFFFFFFFFFFFFFF := by decide
example : ofText? "10000000000000000".toList = none := by decide
example : ["", "0x", "+1", "0x0x1", "1g"].all fun text => (ofText? text.toList).isNone := by decide
example : lowerHex 0x6BD4E0 = "0x6bd4e0".toList := by decide
example : upperHex 0x6BD4E0 = "0x6BD4E0".toList := by decide
example : lowerHex 0 = "0x0".toList := by decide

end Address

end SignatureExport
