import SignatureExport.Command.Host
import SignatureExport.Text.Utf8

/-!
# File trees

A *file tree* holds regular files and directories under one root, and there are no
links.  A node is found by its *place*, the names on the way from the root.

A path is followed piece by piece from the root or from the working directory.
Each piece needs a directory to start from, an idle piece included, so a slash
behind the name of a file leads nowhere.  Two dots lead to the place above.

A file that is there need not be open to a run.  The tree lists the places where
reading fails and those where writing fails, each with the reason.
-/

namespace SignatureExport

/-- A place in a file tree, as the names on the way from the root. -/
abbrev Place := List Text

/-- What can stand at a place. -/
inductive Node where
  /-- A regular file with its bytes. -/
  | file (bytes : Bytes)
  /-- A directory. -/
  | directory
deriving DecidableEq, Repr

/-- Regular files and directories, with a working directory. -/
structure FileTree where
  /-- The place that relative paths start from. -/
  workingDirectory : Place := []
  /-- The nodes below the root, by their places. -/
  nodes : List (Place × Node) := []
  /-- The places where a file cannot be read, and why. -/
  unreadable : List (Place × FileError) := []
  /-- The places where a file cannot be written, and why. -/
  unwritable : List (Place × FileError) := []
deriving DecidableEq, Repr

namespace FileTree

/-- The node at a place.  The root is a directory. -/
def node? (tree : FileTree) (place : Place) : Option Node :=
  if place = [] then some .directory else tree.nodes.lookup place

/-- The tree with another node at a place. -/
def put (tree : FileTree) (place : Place) (node : Node) : FileTree :=
  { tree with nodes := (place, node) :: tree.nodes.filter (·.1 ≠ place) }

/-! ## Following paths -/

/-- The greatest number of bytes in a name. -/
def maxName : Nat := 255

/-- The number of bytes from which on a path is too long. -/
def pathLimit : Nat := 4096

/-- Asks for a directory at a place. -/
def needDirectory (tree : FileTree) (place : Place) : Except FileError Unit :=
  match tree.node? place with
  | none => .error .noSuchEntry
  | some (.file _) => .error .notADirectory
  | some .directory => .ok ()

/-- The place that a piece leads to from another place. -/
def step (tree : FileTree) (place : Place) (piece : Text) : Except FileError Place := do
  tree.needDirectory place
  if Path.isIdle piece then return place
  else if piece = ['.', '.'] then return place.dropLast
  else if maxName < Utf8.width piece then throw .nameTooLong
  else return place ++ [piece]

/-- The place that a path starts from. -/
def start (tree : FileTree) (path : Path) : Place :=
  if path.text.head? = some '/' then [] else tree.workingDirectory

/-- Asks for a path that is not empty and not too long. -/
def checkLength (path : Path) : Except FileError Unit :=
  if path.text = [] then .error .noSuchEntry
  else if pathLimit ≤ Utf8.width path.text then .error .nameTooLong
  else .ok ()

/-- The place that a path leads to.  There may be nothing at it. -/
def resolve (tree : FileTree) (path : Path) : Except FileError Place := do
  checkLength path
  path.pieces.foldlM tree.step (tree.start path)

/-- Whether a path leads to a regular file, be it one that can be read or not. -/
def isFile (tree : FileTree) (path : Path) : Bool :=
  match (tree.resolve path).toOption.bind tree.node? with
  | some (.file _) => true
  | _ => false

/-- The bytes of the regular file that a path leads to, whether or not it can be read. -/
def contents (tree : FileTree) (path : Path) : Except FileError Bytes := do
  match tree.node? (← tree.resolve path) with
  | none => throw .noSuchEntry
  | some .directory => throw .isADirectory
  | some (.file bytes) => return bytes

/-- Asks for a place that is not among those where something fails. -/
def checkFault (faults : List (Place × FileError)) (place : Place) : Except FileError Unit :=
  match faults.lookup place with
  | none => .ok ()
  | some cause => .error cause

/-- The bytes that are read from the regular file that a path leads to. -/
def readFile (tree : FileTree) (path : Path) : Except FileError Bytes := do
  let bytes ← tree.contents path
  checkFault tree.unreadable (← tree.resolve path)
  return bytes

/-! ## Writing -/

/-- The place of the file that a write to a path makes or changes.  The path must
end with a name, and what leads to the name must be a directory.  A write that fails
does so before anything is changed. -/
def writePlace (tree : FileTree) (path : Path) : Except FileError Place := do
  checkLength path
  match path.pieces.reverse.dropWhile (· = []) with
  | [] => throw .isADirectory
  | last :: front =>
      let directory ← front.reverse.foldlM tree.step (tree.start path)
      tree.needDirectory directory
      if Path.isIdle last || last = ['.', '.'] || path.text.getLast? = some '/' then
        throw .isADirectory
      let place ← tree.step directory last
      if tree.node? place = some .directory then throw .isADirectory
      checkFault tree.unwritable place
      return place

/-- The tree after the bytes of a file are written. -/
def writeFile (tree : FileTree) (path : Path) (bytes : Bytes) : Except FileError FileTree :=
  (tree.writePlace path).map fun place => tree.put place (.file bytes)

end FileTree

/-- A machine that has a file tree and a standard input. -/
structure World where
  /-- The files and directories. -/
  files : FileTree := {}
  /-- The bytes of the standard input. -/
  input : Bytes := []
  /-- Why the standard input cannot be read, if it cannot. -/
  inputFault : Option FileError := none
deriving DecidableEq, Repr

/-- The bytes that are read from the standard input. -/
def World.readInput (world : World) : Except FileError Bytes :=
  match world.inputFault with
  | none => .ok world.input
  | some cause => .error cause

/-- A run can be carried out on a world. -/
instance : Host (StateM World) where
  standardInput := do return (← get).readInput
  isFile path := do return (← get).files.isFile path
  readFile path := do return (← get).files.readFile path
  writeFile path bytes := do
    let world ← get
    match world.files.writeFile path bytes with
    | .ok files =>
        set { world with files := files }
        return .ok ()
    | .error error => return .error error

end SignatureExport
