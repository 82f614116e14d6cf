import SignatureExport.Text.Blank

/-!
# Modifiers in front of a signature

Before its return type a signature may carry an access specifier, then `static`,
then `virtual`, then a thunk marker that may hold blanks.  Each is optional, and
a word of modifiers counts only when a blank follows it.  `dropModifiers` drops
them with the blanks behind them.  Modifiers in another order stay.
-/

namespace SignatureExport

namespace Signature

/-- The access specifiers. -/
def accessSpecifiers : List Text :=
  ["public:".toList, "private:".toList, "protected:".toList]

/-- What follows `word` and the blanks behind it, of which there must be one. -/
def afterWord? (text word : Text) : Option Text :=
  match Text.after? word text with
  | some (c :: rest) => if isBlank c then some (Text.trimStart rest) else none
  | _ => none

/-- What follows a thunk marker, with any blanks inside its brackets, and the
blanks behind it. -/
def afterThunk? (text : Text) : Option Text := do
  let inside ← Text.after? ['['] text
  let close ← Text.after? "thunk".toList (Text.trimStart inside)
  let rest ← Text.after? "]:".toList (Text.trimStart close)
  return Text.trimStart rest

/-- The text without its access specifier. -/
def dropAccess (text : Text) : Text := (accessSpecifiers.findSome? (afterWord? text)).getD text

/-- The text without the modifier `word`. -/
def dropWord (word text : Text) : Text := (afterWord? text word).getD text

/-- The text without its thunk marker. -/
def dropThunk (text : Text) : Text := (afterThunk? text).getD text

/-- The text without its modifiers. -/
def dropModifiers (text : Text) : Text :=
  dropThunk (dropWord "virtual".toList (dropWord "static".toList (dropAccess text)))

example : dropModifiers "public: static\tvirtual [ thunk ]: int".toList = "int".toList := by decide
example : dropModifiers "[thunk]:int".toList = "int".toList := by decide
example : dropModifiers "virtual public: int".toList = "public: int".toList := by decide
example : dropModifiers "private:int".toList = "private:int".toList := by decide

end Signature

end SignatureExport
