import SignatureExport.Text.Basic

/-!
# Skipped lines

A line of an export that gives no entry is *skipped*.  The reason is kept with
the line, so it can be reported, and the other lines are read as usual.
-/

namespace SignatureExport

/-- What is wrong with a line that is no record. -/
inductive LineFault where
  /-- The line holds no space. -/
  | missingSeparator
  /-- The text before the first space is no address. -/
  | notHexadecimal
deriving DecidableEq, Repr

/-- Why a line gave no entry. -/
inductive SkipReason where
  /-- The line is no record. -/
  | malformed (fault : LineFault)
  /-- The line is a record, but its signature cannot be read. -/
  | unparseable
deriving DecidableEq, Repr

/-- The wording of a fault. -/
def LineFault.message : LineFault → Text
  | missingSeparator => "missing address separator".toList
  | notHexadecimal => "address is not hexadecimal".toList

/-- The wording of a reason. -/
def SkipReason.message : SkipReason → Text
  | malformed fault => "malformed line: ".toList ++ fault.message
  | unparseable => "signature does not match the supported grammar".toList

/-- A line that gave no entry. -/
structure SkippedLine where
  /-- The line, without the blanks at its ends. -/
  line : Text
  /-- Why it was skipped. -/
  reason : SkipReason
deriving DecidableEq, Repr

end SignatureExport
