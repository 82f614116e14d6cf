import SignatureExport.Text.Blank

/-!
# Argument lists

The argument list of a signature is the group of parentheses that closes at the
end of the text.  It is found from the end, so the parentheses of a name such as
`operator()` are never taken for it.  Inside it parentheses may nest once more,
as in a function pointer.

The text between the parentheses is cut at the commas that stand outside inner
parentheses.  Angle brackets do not count.
-/

namespace SignatureExport

namespace ArgumentList

/-! ## The group at the end -/

/-- How many levels of parentheses an argument list may hold. -/
def maxNesting : Nat := 1

/-- Reads a reversed text until the group at its front is complete.  `depth` counts
the groups still open, and `inside` holds the text read between the two
parentheses of the outermost group. -/
def scan? : Nat → Text → Text → Option (Text × Text)
  | _, _, [] => none
  | depth, inside, c :: rest =>
      if c = ')' then
        if maxNesting < depth then none
        else scan? (depth + 1) (if depth = 0 then inside else c :: inside) rest
      else if c = '(' then
        match depth with
        | 0 => none
        | 1 => some (rest.reverse, inside)
        | outer + 2 => scan? (outer + 1) (c :: inside) rest
      else scan? depth (c :: inside) rest

/-- Cuts a text at the group of parentheses that ends it: the text before the group
and the text inside it. -/
def split? (text : Text) : Option (Text × Text) :=
  if text.getLast? = some ')' then scan? 0 [] text.reverse else none

/-! ## The arguments -/

/-- The number of open groups after a character, read from the left.  A closing
parenthesis too many is passed over. -/
def depthAfter (depth : Nat) (c : Char) : Nat :=
  if c = '(' then depth + 1 else if c = ')' then depth - 1 else depth

/-- Cuts a text at the commas outside groups.  `depth` counts the open groups and
`piece` holds the piece read so far, last character first. -/
def splitCommas (depth : Nat) (piece : Text) : Text → List Text
  | [] => [piece.reverse]
  | c :: rest =>
      if c = ',' ∧ depth = 0 then piece.reverse :: splitCommas 0 [] rest
      else splitCommas (depthAfter depth c) (c :: piece) rest

/-- The arguments that the inside of an argument list spells.  Blanks around an
argument and empty arguments are dropped, and `void` alone means none. -/
def ofText (inside : Text) : List Text :=
  if inside.trim = "void".toList then []
  else ((splitCommas 0 [] inside.trim).map Text.trim).filter (· ≠ [])

example : split? "V::operator()(int, char)".toList
    = some ("V::operator()".toList, "int, char".toList) := by decide
example : split? "f(void (*)(int))".toList
    = some ("f".toList, "void (*)(int)".toList) := by decide
example : split? "f(void (*)(int (*)(char)))".toList = none := by decide
example : ["f(int) x", "f int)", "f"].all fun text => (split? text.toList).isNone := by decide
example : ofText "void (*)(int, int),, char ,".toList
    = ["void (*)(int, int)".toList, "char".toList] := by decide
example : ofText " void ".toList = [] := by decide

end ArgumentList

end SignatureExport
