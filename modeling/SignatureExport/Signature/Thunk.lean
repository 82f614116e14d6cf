import SignatureExport.Text.Blank

/-!
# Thunk markers

A demangler writes `[thunk]:` in front of a function that only adjusts its
arguments and jumps to another.  The marker says nothing about the signature, so
it is removed wherever it stands.  Removing one marker may join the halves of
another.

`removeThunks` works in one pass.  It pushes the characters on a stack and drops
the marker as soon as it is complete on top, so none is ever left on the stack.
-/

namespace SignatureExport

namespace Signature

/-- The marker of a thunk. -/
def thunkMarker : Text := "[thunk]:".toList

/-- Pushes a character on a stack of characters.  A marker completed on top of the
stack is dropped. -/
def pushDroppingThunk (stack : Text) (c : Char) : Text :=
  (Text.after? thunkMarker.reverse (c :: stack)).getD (c :: stack)

/-- The text without thunk markers, those formed by a removal included. -/
def removeThunks (text : Text) : Text := (text.foldl pushDroppingThunk []).reverse

/-- The text of a signature without thunk markers and without blanks at its ends. -/
def normalize (text : Text) : Text := (removeThunks text).trim

example : normalize "[thu[thunk]:nk]: x[thunk]:y ".toList = "xy".toList := by decide
example : normalize "thunk: [thunk]".toList = "thunk: [thunk]".toList := by decide

end Signature

end SignatureExport
