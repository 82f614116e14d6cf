import SignatureExport.Address
import SignatureExport.Export.Skipped
import SignatureExport.Text.Blank

/-!
# Records

An export is a text with one *record* on a line: an address, one space, and the
text of a signature.  Blanks at the ends of a line do not count, and a line with
nothing else is no line at all.
-/

namespace SignatureExport

/-- A line of an export that starts with an address. -/
structure Record where
  /-- The whole line. -/
  line : Text
  /-- The address in front. -/
  address : Address
  /-- The text behind the first space. -/
  signature : Text
deriving DecidableEq, Repr

namespace Record

/-- The record on a line. -/
def ofLine (line : Text) : Except LineFault Record :=
  match Text.cutAt? ' ' line with
  | none => .error .missingSeparator
  | some (front, signature) =>
      match Address.ofText? front with
      | none => .error .notHexadecimal
      | some address => .ok ⟨line, address, signature⟩

/-- The lines of an export that are not blank, without the blanks at their ends. -/
def lines (text : Text) : List Text := ((text.splitOn '\n').map Text.trim).filter (· ≠ [])

/-- The records of an export in order, and the lines that are none. -/
def all (text : Text) : List (Except SkippedLine Record) :=
  (lines text).map fun line => (ofLine line).mapError fun fault => ⟨line, .malformed fault⟩

example : ofLine "0x10 int f()".toList = .ok ⟨"0x10 int f()".toList, 16, "int f()".toList⟩ := rfl
example : ofLine "00401000".toList = .error .missingSeparator := rfl
example : ofLine "nothex f".toList = .error .notHexadecimal := rfl
example : lines "\n 1 a\r\n\t\n2 b".toList = ["1 a".toList, "2 b".toList] := by decide

end Record

end SignatureExport
