import SignatureExport.Command.Run

/-!
# The program

The command line program carries a run out on the machine.  The exit code is zero
for a run that succeeds, one for a run that fails and two for a command line that
cannot be read.
-/

namespace SignatureExport

/-- The number behind an error of the system, which some operations negate. -/
def systemNumber (code : UInt32) : Nat :=
  if code < 0x80000000 then code.toNat else (0 - code).toNat

/-- The reason behind an error of the system. -/
def FileError.ofSystem : IO.Error → FileError
  | .noFileOrDirectory .. => .noSuchEntry
  | .inappropriateType _ code wording =>
      if systemNumber code = 20 then .notADirectory
      else if systemNumber code = 21 then .isADirectory
      else .other (systemNumber code) wording.toList
  | .permissionDenied _ code wording =>
      if systemNumber code = 13 then .permissionDenied
      else .other (systemNumber code) wording.toList
  | .invalidArgument _ code wording | .resourceExhausted _ code wording =>
      .other (systemNumber code) wording.toList
  | error => .other 0 (toString error).toList

/-- The result of an operation of the system, with the reason if it failed. -/
def attempt {α : Type} (operation : IO α) : IO (Except FileError α) := do
  return (← operation.toBaseIO).mapError FileError.ofSystem

/-- A run can be carried out on the machine.  Whether a path leads to a regular file is
asked without opening it, so a file that may not be read is a file all the same. -/
instance : Host IO where
  standardInput := attempt do return (← (← IO.getStdin).readBinToEnd).toList
  isFile path := do
    let isFile ← attempt do
      let metadata ← ((← IO.currentDir) / String.ofList path.text).metadata
      return metadata.type == .file
    return isFile.toOption.getD false
  readFile path :=
    attempt do return (← IO.FS.readBinFile (String.ofList path.text)).toList
  writeFile path bytes :=
    attempt (IO.FS.writeBinFile (String.ofList path.text) bytes.toByteArray)

end SignatureExport

open SignatureExport in
/-- Runs the program and shows its outcome. -/
def main (arguments : List String) : IO UInt32 := do
  let outcome ← Run.run (m := IO) (arguments.map String.toList)
  (← IO.getStdout).putStr (String.ofList outcome.output)
  (← IO.getStderr).putStr (String.ofList outcome.errors)
  return outcome.exitCode.toUInt32
