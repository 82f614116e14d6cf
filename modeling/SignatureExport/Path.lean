import SignatureExport.Text.Basic

/-!
# Paths

A *path* is kept as it was spelled.  Slashes cut it into pieces.  A piece that is
empty or a lone dot is *idle*, and names nothing.  Two spellings are the same path
when their components agree: idle pieces are dropped, apart from a leading slash
and a leading dot, and `..` is not resolved.

The *file name* is the last piece that is not idle, if it is not `..`.  The last
dot in it cuts off the *extension*, unless that dot is its first character.  What
remains is the *stem*.  The *parent* is the path without its last component.
-/

namespace SignatureExport

/-- A path, as it was spelled. -/
structure Path where
  /-- The spelling. -/
  text : Text
deriving DecidableEq, Repr

namespace Path

/-! ## Components -/

/-- A component of a path. -/
inductive Component where
  /-- The slash in front of an absolute path. -/
  | root
  /-- The dot in front of a relative path. -/
  | here
  /-- Two dots. -/
  | parent
  /-- The name of a file or of a directory. -/
  | name (text : Text)
deriving DecidableEq, Repr

/-- The pieces between the slashes. -/
def pieces (path : Path) : List Text := path.text.splitOn '/'

/-- Whether a piece names nothing. -/
def isIdle (piece : Text) : Bool := piece = [] || piece = ['.']

/-- The component that a piece spells. -/
def Component.ofPiece? (piece : Text) : Option Component :=
  if isIdle piece then none else if piece = ['.', '.'] then some .parent else some (.name piece)

/-- The components of a path. -/
def components (path : Path) : List Component :=
  let named := path.pieces.filterMap Component.ofPiece?
  match path.pieces with
  | [] :: _ :: _ => .root :: named
  | ['.'] :: _ => .here :: named
  | _ => named

/-- Whether two spellings are the same path. -/
def Same (first second : Path) : Prop := first.components = second.components

instance (first second : Path) : Decidable (Same first second) :=
  inferInstanceAs (Decidable (_ = _))

/-! ## File names -/

/-- The pieces in front of the file name, and the file name. -/
def cut? (path : Path) : Option (List Text × Text) :=
  match path.pieces.reverse.dropWhile isIdle with
  | [] => none
  | last :: front => if last = ['.', '.'] then none else some (front.reverse, last)

/-- The file name. -/
def fileName? (path : Path) : Option Text := path.cut?.map (·.2)

/-- Cuts a file name into its stem and its extension. -/
def splitName (name : Text) : Text × Option Text :=
  match name.reverse.dropWhile (· != '.') with
  | [] | [_] => (name, none)
  | _ :: stem => (stem.reverse, some (name.reverse.takeWhile (· != '.')).reverse)

/-- The stem of the file name. -/
def stem? (path : Path) : Option Text := path.fileName?.map fun name => (splitName name).1

/-- The extension of the file name. -/
def extension? (path : Path) : Option Text := path.fileName?.bind fun name => (splitName name).2

/-! ## Parents -/

/-- The path that the pieces in front of another spell.  Idle pieces at its end are
dropped, but a leading slash or a leading dot stays. -/
def ofFront (front : List Text) : Path :=
  match (front.reverse.dropWhile isIdle).reverse, front with
  | [], [] => ⟨[]⟩
  | [], [] :: _ => ⟨['/']⟩
  | [], dot :: _ => ⟨dot⟩
  | kept, _ => ⟨['/'].intercalate kept⟩

/-- The path without its last component, be it a name, two dots or a leading dot.
A leading slash has no parent. -/
def parent? (path : Path) : Option Path :=
  match path.pieces.reverse.dropWhile isIdle with
  | _ :: front => some (ofFront front.reverse)
  | [] => if path.pieces.head? = some ['.'] then some ⟨[]⟩ else none

/-! ## Other files beside a path -/

/-- The path of `name` inside the directory `path`. -/
def push (path : Path) (name : Text) : Path :=
  if path.text = [] then ⟨name⟩
  else if path.text.getLast? = some '/' then ⟨path.text ++ name⟩
  else ⟨path.text ++ '/' :: name⟩

/-- The path with another file name.  A path without a file name gets one. -/
def withFileName (path : Path) (name : Text) : Path :=
  match path.fileName? with
  | none => path.push name
  | some _ => (path.parent?.getD path).push name

/-- The path cut off behind its stem, with a new extension.  A path without a file
name stays as it is. -/
def setExtension (path : Path) (extension : Text) : Path :=
  match path.cut? with
  | none => path
  | some (front, name) =>
      ⟨['/'].intercalate (front ++ [(splitName name).1 ++ '.' :: extension])⟩

/-- The path with another extension.  As many characters as the old extension has
are first cut from the end of the spelling.  So the spelling `..a` loses its file
name and becomes `..`. -/
def withExtension (path : Path) (extension : Text) : Path :=
  match path.extension? with
  | none => path.setExtension extension
  | some old =>
      setExtension ⟨path.text.take (path.text.length - old.length)⟩ extension

example : Same ⟨"d//n/".toList⟩ ⟨"d/./n".toList⟩ := by decide
example : ¬ Same ⟨"./n".toList⟩ ⟨"n".toList⟩ := by decide
example : parent? ⟨"a/./..".toList⟩ = some ⟨"a".toList⟩ := by decide
example : parent? ⟨"./".toList⟩ = some ⟨[]⟩ ∧ parent? ⟨"//.".toList⟩ = none := by decide
example : withFileName ⟨"a//b.txt".toList⟩ "c".toList = ⟨"a/c".toList⟩ := by decide
example : withFileName ⟨"a/..".toList⟩ "c".toList = ⟨"a/../c".toList⟩ := by decide
example : withExtension ⟨"a//b.txt/./".toList⟩ "tsv".toList = ⟨"a//b.tsv".toList⟩ := by decide
example : withExtension ⟨".txt".toList⟩ "tsv".toList = ⟨".txt.tsv".toList⟩ := by decide
example : withExtension ⟨"..a".toList⟩ "tsv".toList = ⟨"..".toList⟩ := by decide

end Path

end SignatureExport
