import SignatureExport.Text.Basic

/-!
# Blank characters

The blank characters are the code points with the Unicode property
`White_Space`.  The control characters `U+001C` to `U+001F`, the zero width
space and the byte order mark are not among them.

`trim` drops blanks at both ends of a text.  `words` cuts a text at its blanks.
-/

namespace SignatureExport

/-- Whether a character is white space. -/
def isBlank (c : Char) : Bool :=
  let n := c.toNat
  (0x09 ≤ n && n ≤ 0x0D) || n == 0x20 || n == 0x85 || n == 0xA0 || n == 0x1680 ||
    (0x2000 ≤ n && n ≤ 0x200A) || n == 0x2028 || n == 0x2029 || n == 0x202F ||
    n == 0x205F || n == 0x3000

namespace Text

/-- The text without its leading blanks. -/
def trimStart (text : Text) : Text := text.dropWhile isBlank

/-- The text without its trailing blanks. -/
def trimEnd (text : Text) : Text := (text.reverse.dropWhile isBlank).reverse

/-- The text without the blanks at its ends. -/
def trim (text : Text) : Text := trimEnd (trimStart text)

/-- The longest pieces of a text that hold no blank, in order. -/
def words (text : Text) : List Text := (text.splitOnP isBlank).filter (· ≠ [])

end Text

example : Text.trim "\u2003 a b\t\r".toList = "a b".toList := by decide
example : Text.words " const  volatile".toList = ["const".toList, "volatile".toList] := by decide
example : "\u0085\u00a0\u1680\u202f\u205f\u3000".toList.all isBlank := by decide
example : "\x1c\u180e\u200b\ufeff".toList.all fun c => !isBlank c := by decide

end SignatureExport
