import SignatureExport.Path

/-!
# The host of a run

A run reads the standard input, looks at files, and writes one.  The class `Host`
lists what it needs, so the same run can be carried out by the machine or by a
model of it.
-/

namespace SignatureExport

/-- Why the host refused a file. -/
inductive FileError where
  /-- The path leads to nothing. -/
  | noSuchEntry
  /-- The path goes through something that is no directory. -/
  | notADirectory
  /-- The path leads to a directory. -/
  | isADirectory
  /-- The path or one of its names is too long. -/
  | nameTooLong
  /-- The file may not be used so. -/
  | permissionDenied
  /-- Another reason, by its number and its wording. -/
  | other (number : Nat) (wording : Text)
deriving DecidableEq, Repr

namespace FileError

/-- The number that the system gives to an error. -/
def number : FileError → Nat
  | noSuchEntry => 2
  | notADirectory => 20
  | isADirectory => 21
  | nameTooLong => 36
  | permissionDenied => 13
  | other number _ => number

/-- The wording that the system gives to an error. -/
def wording : FileError → Text
  | noSuchEntry => "No such file or directory".toList
  | notADirectory => "Not a directory".toList
  | isADirectory => "Is a directory".toList
  | nameTooLong => "File name too long".toList
  | permissionDenied => "Permission denied".toList
  | other _ wording => wording

/-- The wording of an error with its number. -/
def message (error : FileError) : Text :=
  error.wording ++ " (os error ".toList ++ (toString error.number).toList ++ [')']

end FileError

/-- What a run needs from the machine. -/
class Host (m : Type → Type) where
  /-- All bytes of the standard input. -/
  standardInput : m (Except FileError Bytes)
  /-- Whether a path leads to a regular file, be it one that can be read or not. -/
  isFile (path : Path) : m Bool
  /-- The bytes of a file. -/
  readFile (path : Path) : m (Except FileError Bytes)
  /-- Writes the bytes of a file.  The file is made if it is missing. -/
  writeFile (path : Path) (bytes : Bytes) : m (Except FileError Unit)

end SignatureExport
