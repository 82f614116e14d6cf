import SignatureExport.Text.Blank
import SignatureExport.Text.WordChar

/-!
# Qualified names

The name of a function is a method name behind an optional class name.  The
class is made of *class characters*, which are word characters, colons, angle
brackets and commas, so template arguments and enclosing scopes belong to it.
When a text can be cut at several `::`, the longest class wins.

A method name is not empty, does not end with `::`, and its only parentheses are
those of the call operator `operator()`.
-/

namespace SignatureExport

/-- The name of a function. -/
structure QualifiedName where
  /-- The class the function belongs to, empty for a free function. -/
  className : Text
  /-- The name of the function in its class. -/
  methodName : Text
deriving DecidableEq, Repr

namespace QualifiedName

/-- The two colons between a class and its method. -/
def scopeMark : Text := "::".toList

/-- The name of the call operator, whose parentheses belong to the name. -/
def callOperator : Text := "operator()".toList

/-- The name written out: `Class::method`, or the method alone. -/
def key (name : QualifiedName) : Text :=
  if name.className = [] then name.methodName
  else name.className ++ scopeMark ++ name.methodName

/-- Whether a character can stand in a class name. -/
def isClassChar (c : Char) : Bool := isWordChar c || c == ':' || c == '<' || c == '>' || c == ','

/-- Whether a text can follow the `::` of a class.  It is not empty and on one line. -/
def isMember (text : Text) : Bool := text ≠ [] && '\n' ∉ text

/-- Cuts a text at the `::` behind the longest class that leaves a member. -/
def splitClass? : Text → Option (Text × Text)
  | [] => none
  | c :: rest =>
      if isClassChar c then
        match splitClass? rest with
        | some (className, member) => some (c :: className, member)
        | none =>
            match Text.after? scopeMark rest with
            | some member => if isMember member then some ([c], member) else none
            | none => none
      else none

/-- Whether every parenthesis of a text belongs to an occurrence of the call
operator.  `skip` counts the characters of an occurrence still to be passed over. -/
def hasOwnParentheses : Nat → Text → Bool
  | _, [] => true
  | skip + 1, _ :: rest => hasOwnParentheses skip rest
  | 0, c :: rest =>
      if callOperator.isPrefixOf (c :: rest) then
        hasOwnParentheses (callOperator.length - 1) rest
      else c != '(' && c != ')' && hasOwnParentheses 0 rest

/-- Whether a trimmed text is the name of a method. -/
def isMethodName (text : Text) : Bool :=
  text ≠ [] && !scopeMark.isSuffixOf text && hasOwnParentheses 0 text

/-- The name that a text spells, blanks around it and around its method aside. -/
def ofText? (text : Text) : Option QualifiedName :=
  let name : QualifiedName :=
    match splitClass? text.trim with
    | some (className, member) => ⟨className, member.trim⟩
    | none => ⟨[], text.trim⟩
  if isMethodName name.methodName then some name else none

example : ofText? "A::B::C".toList = some ⟨"A::B".toList, "C".toList⟩ := by decide
example : ofText? "V<int,int>::at ".toList = some ⟨"V<int,int>".toList, "at".toList⟩ := by decide
example : ofText? "V::operator()".toList = some ⟨"V".toList, callOperator⟩ := by decide
example : ofText? "main".toList = some ⟨[], "main".toList⟩ := by decide
example : ["", "A::  ", "A::B::", "A::B(int)"].all fun text => (ofText? text.toList).isNone := by
  decide

end QualifiedName

end SignatureExport
