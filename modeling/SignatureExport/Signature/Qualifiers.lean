import SignatureExport.Text.Blank

/-!
# Qualifiers behind a signature

Behind its argument list a member function may carry `const`, `volatile` or both
in either order.  `dropQualifiers?` cuts them off.  It refuses a text that does
not end with a closing parenthesis and qualifiers.
-/

namespace SignatureExport

namespace Signature

/-- The words that may stand behind an argument list. -/
def qualifierLists : List (List Text) :=
  let const := "const".toList
  let volatile := "volatile".toList
  [[], [const], [volatile], [const, volatile], [volatile, const]]

/-- Cuts a text behind its last closing parenthesis. -/
def splitAtLastClose? (text : Text) : Option (Text × Text) :=
  match text.reverse.dropWhile (· != ')') with
  | [] => none
  | close => some (close.reverse, (text.reverse.takeWhile (· != ')')).reverse)

/-- The text up to the parenthesis that closes its argument list. -/
def dropQualifiers? (text : Text) : Option Text :=
  match splitAtLastClose? text with
  | none => none
  | some (kept, rest) => if rest.words ∈ qualifierLists then some kept else none

example : dropQualifiers? "f(int)const \t volatile ".toList = some "f(int)".toList := by decide
example : dropQualifiers? "f()".toList = some "f()".toList := by decide
example : dropQualifiers? "f() const const".toList = none := by decide
example : dropQualifiers? "f const".toList = none := by decide

end Signature

end SignatureExport
