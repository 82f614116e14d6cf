import SignatureExport.Command.FileTree
import SignatureExport.Command.Run

/-!
# How a run ends

`Ends` lists the ways in which a run on a world can end, each with the checks and the reads
that led there.  Every run ends in one of them (`ends_onWorld`).  Only the last one changes a
file, and it is the file that the output path leads to.
-/

namespace SignatureExport

namespace Run

/-- The outcome of a run on a world, and the world behind it. -/
def onWorld (world : World) (arguments : List Text) : Outcome × World :=
  StateT.run (run (m := StateM World) arguments) world

/-- The line that says what was written. -/
def written (format : Format) (document : Document) (output : Path) : Text :=
  "Wrote ".toList ++ decimal (format.entryCount document) ++ " entries to ".toList ++
    output.text ++ ['\n']

/-- The ways in which a run can end. -/
inductive Ends (arguments : List Text) (world : World) : Outcome → World → Prop where
  /-- The command line cannot be read. -/
  | usage {error : UsageError} (read : Options.read arguments = .error error) :
      Ends arguments world (.ofUsageError error) world
  /-- The command line asks for help. -/
  | help (read : Options.read arguments = .ok .help) : Ends arguments world .help world
  /-- The standard input cannot be read. -/
  | noInput {options : Options} {cause : FileError}
      (read : Options.read arguments = .ok (.convert options)) (noPath : options.input = none)
      (fault : world.readInput = .error cause) :
      Ends arguments world (.ofFailure (.standardInput cause)) world
  /-- The format of the standard input cannot be had. -/
  | noFormat {options : Options} {bytes : Bytes} {error : FormatError}
      (read : Options.read arguments = .ok (.convert options)) (noPath : options.input = none)
      (holds : world.readInput = .ok bytes)
      (refused : Format.ofName options.formatName options.scope = .error error) :
      Ends arguments world (.ofFailure (.format error)) world
  /-- The document of the standard input is shown. -/
  | shown {options : Options} {bytes : Bytes} {format : Format}
      (read : Options.read arguments = .ok (.convert options)) (noPath : options.input = none)
      (holds : world.readInput = .ok bytes)
      (chosen : Format.ofName options.formatName options.scope = .ok format) :
      Ends arguments world
        { output := format.render (document bytes)
          errors := skippedReport options (document bytes) } world
  /-- The input is no file. -/
  | inputNotFound {options : Options} {input : Path}
      (read : Options.read arguments = .ok (.convert options))
      (given : options.input = some input) (noFile : world.files.isFile input = false) :
      Ends arguments world (.ofFailure (.inputNotFound input)) world
  /-- The format cannot be had, or the output is the input. -/
  | refused {options : Options} {input : Path} {failure : Failure}
      (read : Options.read arguments = .ok (.convert options))
      (given : options.input = some input) (isFile : world.files.isFile input = true)
      (planned : plan options input = .error failure) :
      Ends arguments world (.ofFailure failure) world
  /-- The input is a file that cannot be read. -/
  | unreadable {options : Options} {input output : Path} {format : Format} {cause : FileError}
      (read : Options.read arguments = .ok (.convert options))
      (given : options.input = some input) (isFile : world.files.isFile input = true)
      (planned : plan options input = .ok (format, output))
      (fault : world.files.readFile input = .error cause) :
      Ends arguments world (.ofFailure (.unreadable input cause)) world
  /-- The output cannot be written. -/
  | unwritable {options : Options} {input output : Path} {bytes : Bytes} {format : Format}
      {cause : FileError} (read : Options.read arguments = .ok (.convert options))
      (given : options.input = some input) (holds : world.files.readFile input = .ok bytes)
      (planned : plan options input = .ok (format, output))
      (noPlace : world.files.writePlace output = .error cause) :
      Ends arguments world (.ofFailure (.unwritable output cause)) world
  /-- The document of the input is written. -/
  | written {options : Options} {input output : Path} {bytes : Bytes} {format : Format}
      {place : Place} (read : Options.read arguments = .ok (.convert options))
      (given : options.input = some input) (holds : world.files.readFile input = .ok bytes)
      (planned : plan options input = .ok (format, output))
      (leads : world.files.writePlace output = .ok place) :
      Ends arguments world
        { output := written format (document bytes) output
          errors := skippedReport options (document bytes) }
        { world with
          files := world.files.put place (.file (Utf8.encode (format.render (document bytes)))) }

/-! ## Plans -/

/-- A plan has the format that was asked for.  Its output is the one that was given or the
default one, and not the input. -/
theorem plan_eq_ok_iff {options : Options} {input output : Path} {format : Format} :
    plan options input = .ok (format, output) ↔
      Format.ofName options.formatName (scope? options input) = .ok format ∧
        output = options.output.getD (format.defaultOutput input) ∧ ¬ output.Same input := by
  rw [plan]
  split
  next error refused => simp [refused]
  next chosen isFormat =>
    rw [isFormat]
    dsimp only
    split
    next same =>
      refine iff_of_false (by simp) ?_
      rintro ⟨equal, rfl, different⟩
      cases equal
      exact different same
    next different =>
      constructor
      · intro equal
        cases equal
        exact ⟨rfl, rfl, different⟩
      · rintro ⟨equal, rfl, -⟩
        cases equal
        rfl

/-! ## A run as a function -/

theorem run_isFile (world : World) (path : Path) :
    StateT.run (Host.isFile (m := StateM World) path) world
      = pure (world.files.isFile path, world) := rfl

theorem run_readFile (world : World) (path : Path) :
    StateT.run (Host.readFile (m := StateM World) path) world
      = pure (world.files.readFile path, world) := rfl

theorem run_writeFile (world : World) (output : Path) (bytes : Bytes) :
    StateT.run (Host.writeFile (m := StateM World) output bytes) world
      = pure (match world.files.writePlace output with
        | .error cause => (.error cause, world)
        | .ok place => (.ok (), { world with files := world.files.put place (.file bytes) })) := by
  simp only [Host.writeFile, StateT.run_bind, StateT.run_get, pure_bind, FileTree.writeFile]
  cases world.files.writePlace output with
  | error cause => rfl
  | ok place => rfl

/-- A run with an input path, as a function of the world. -/
theorem onFile_eq (options : Options) (input : Path) (world : World) :
    StateT.run (onFile (m := StateM World) options input) world =
      if world.files.isFile input = false then (.ofFailure (.inputNotFound input), world)
      else match plan options input with
      | .error failure => (.ofFailure failure, world)
      | .ok (format, output) =>
          match world.files.readFile input with
          | .error cause => (.ofFailure (.unreadable input cause), world)
          | .ok bytes =>
              match world.files.writePlace output with
              | .error cause => (.ofFailure (.unwritable output cause), world)
              | .ok place =>
                  ({ output := written format (document bytes) output
                     errors := skippedReport options (document bytes) },
                   { world with
                     files := world.files.put place
                       (.file (Utf8.encode (format.render (document bytes)))) }) := by
  rw [onFile, StateT.run_bind, run_isFile, pure_bind]
  cases world.files.isFile input with
  | false => rfl
  | true =>
      cases plan options input with
      | error failure => rfl
      | ok chosen =>
          have isFile : ¬ (!true) = true := by decide
          have found : ¬ true = false := by decide
          dsimp only
          rw [if_neg isFile, if_neg found, StateT.run_bind, run_readFile, pure_bind]
          cases world.files.readFile input with
          | error cause => rfl
          | ok bytes =>
              dsimp only
              rw [StateT.run_bind, run_writeFile, pure_bind]
              cases world.files.writePlace chosen.2 with
              | error cause => rfl
              | ok place => rfl

theorem onWorld_of_input {arguments : List Text} {options : Options} {input : Path}
    (read : Options.read arguments = .ok (.convert options)) (given : options.input = some input)
    (world : World) :
    onWorld world arguments = StateT.run (onFile (m := StateM World) options input) world := by
  rw [onWorld, run, read]
  simp only [given]

/-- A run without an input path, as a function of the world. -/
theorem onStandardInput_eq (options : Options) (world : World) :
    StateT.run (onStandardInput (m := StateM World) options) world =
      match world.readInput with
      | .error cause => (.ofFailure (.standardInput cause), world)
      | .ok bytes =>
          match Format.ofName options.formatName options.scope with
          | .error error => (.ofFailure (.format error), world)
          | .ok format =>
              ({ output := format.render (document bytes)
                 errors := skippedReport options (document bytes) }, world) := by
  have input : StateT.run (Host.standardInput (m := StateM World)) world
      = pure (world.readInput, world) := rfl
  rw [onStandardInput, StateT.run_bind, input, pure_bind]
  cases world.readInput with
  | error cause => rfl
  | ok bytes =>
      cases Format.ofName options.formatName options.scope with
      | error error => rfl
      | ok format => rfl

/-- What a run shows for the bytes on the standard input. -/
def shown (world : World) (arguments : List Text) (bytes : Bytes) : Outcome :=
  (onWorld { world with input := bytes, inputFault := none } arguments).1

/-- A run without an input path shows the document in the format that was asked for. -/
theorem shown_eq {arguments : List Text} {options : Options} {format : Format}
    (read : Options.read arguments = .ok (.convert options)) (noInput : options.input = none)
    (chosen : Format.ofName options.formatName options.scope = .ok format) (world : World)
    (bytes : Bytes) :
    shown world arguments bytes =
      { output := format.render (document bytes)
        errors := skippedReport options (document bytes) } := by
  rw [shown, onWorld, run, read]
  simp only [noInput]
  rw [onStandardInput_eq, World.readInput]
  simp only [chosen]

/-! ## The ends of a run -/

/-- A run with an input path ends in one of the last five ways. -/
theorem ends_onFile {arguments : List Text} {options : Options} {input : Path}
    (read : Options.read arguments = .ok (.convert options)) (given : options.input = some input)
    (world : World) :
    let result := StateT.run (onFile (m := StateM World) options input) world
    Ends arguments world result.1 result.2 := by
  dsimp only
  rw [onFile_eq]
  split
  next noFile => exact .inputNotFound read given noFile
  next found =>
    have isFile : world.files.isFile input = true := by simpa using found
    cases planned : plan options input with
    | error failure => exact .refused read given isFile planned
    | ok chosen =>
        obtain ⟨format, output⟩ := chosen
        cases holds : world.files.readFile input with
        | error cause =>
            exact .unreadable read given isFile planned holds
        | ok bytes =>
            cases leads : world.files.writePlace output with
            | error cause =>
                simp only [leads]
                exact .unwritable read given holds planned leads
            | ok place =>
                simp only [leads]
                exact .written read given holds planned leads

/-- A run without an input path ends without looking at a file. -/
theorem ends_onStandardInput {arguments : List Text} {options : Options}
    (read : Options.read arguments = .ok (.convert options)) (noPath : options.input = none)
    (world : World) :
    let result := StateT.run (onStandardInput (m := StateM World) options) world
    Ends arguments world result.1 result.2 := by
  dsimp only
  rw [onStandardInput_eq]
  cases holds : world.readInput with
  | error cause => exact .noInput read noPath holds
  | ok bytes =>
      cases chosen : Format.ofName options.formatName options.scope with
      | error error => exact .noFormat read noPath holds chosen
      | ok format => exact .shown read noPath holds chosen

/-- Every run ends in one of the ways. -/
theorem ends_onWorld (arguments : List Text) (world : World) :
    Ends arguments world (onWorld world arguments).1 (onWorld world arguments).2 := by
  rw [onWorld, run]
  split
  next error read => exact .usage read
  next read => exact .help read
  next options read =>
    split
    next noInput => exact ends_onStandardInput read noInput world
    next input given => exact ends_onFile read given world

end Run

end SignatureExport
