import SignatureExport.Path

/-!
# Command line options

A command line names at most one input and at most one value for each setting.

    [INPUT] [-o OUTPUT] [-f FORMAT] [-n NAMESPACE] [--warnings]

A value follows its option as the next argument, or is attached to it, as in
`-fX`, `-f=X` and `--format=X`.  A value of its own must not start with a dash,
though a dash alone may be one.  Behind `--` every argument is an input.  The
arguments are read from left to right and the first that does not fit decides.
-/

namespace SignatureExport

/-- A setting that takes a value. -/
inductive Setting where
  /-- The path to write to. -/
  | output
  /-- The name of the output format. -/
  | format
  /-- The namespace of the header format. -/
  | scope
deriving DecidableEq, Repr

namespace Setting

/-- The settings. -/
def all : List Setting := [output, format, scope]

/-- The long name of a setting. -/
def name : Setting → Text
  | output => "output".toList
  | format => "format".toList
  | scope => "namespace".toList

/-- The letter of a setting. -/
def letter : Setting → Char
  | output => 'o'
  | format => 'f'
  | scope => 'n'

end Setting

/-- What is wrong with a command line. -/
inductive UsageError where
  /-- No option has this name. -/
  | unknownOption (argument : Text)
  /-- An option is without its value. -/
  | missingValue (option : Text)
  /-- An option that takes no value has one. -/
  | unexpectedValue (argument : Text)
  /-- An option is there twice. -/
  | repeated (option : Text)
  /-- A path is empty. -/
  | emptyPath
  /-- There is an input already. -/
  | unexpectedArgument (argument : Text)
deriving DecidableEq, Repr

/-- The wording of an error. -/
def UsageError.message : UsageError → Text
  | unknownOption argument => "unexpected option ".toList ++ argument
  | missingValue option => "a value is required for --".toList ++ option
  | unexpectedValue argument => "no value is allowed in ".toList ++ argument
  | repeated option => "cannot be used twice: --".toList ++ option
  | emptyPath => "a path must not be empty".toList
  | unexpectedArgument argument => "unexpected argument ".toList ++ argument

/-! ## One argument -/

/-- What an argument says. -/
inductive Argument where
  /-- The end of the options. -/
  | terminator
  /-- The wish to see how the program is used. -/
  | help
  /-- The wish to see the skipped lines. -/
  | warnings
  /-- A setting, and its value if it is attached. -/
  | setting (chosen : Setting) (value : Option Text)
  /-- An argument that is no option. -/
  | plain (text : Text)
  /-- An argument that does not fit. -/
  | refused (error : UsageError)
deriving DecidableEq, Repr

namespace Argument

/-- The option with a long name.  `argument` is the argument it was cut from. -/
def ofName (argument name : Text) (value : Option Text) : Argument :=
  if name = "help".toList then
    if value.isSome then .refused (.unexpectedValue argument) else .help
  else if name = "warnings".toList then
    if value.isSome then .refused (.unexpectedValue argument) else .warnings
  else
    match Setting.all.find? (·.name = name) with
    | some chosen => .setting chosen value
    | none => .refused (.unknownOption argument)

/-- The value attached to the letter of a setting, without a leading equals sign. -/
def attachedValue? : Text → Option Text
  | [] => none
  | '=' :: value => some value
  | value => some value

/-- The option with a letter.  `attached` is the text behind the letter. -/
def ofLetter (letter : Char) (attached : Text) : Argument :=
  if letter = 'h' then .help
  else
    match Setting.all.find? (·.letter = letter) with
    | some chosen => .setting chosen (attachedValue? attached)
    | none => .refused (.unknownOption ('-' :: letter :: attached))

/-- What an argument in front of `--` says. -/
def ofText (text : Text) : Argument :=
  match text with
  | ['-', '-'] => .terminator
  | '-' :: '-' :: long =>
      match Text.cutAt? '=' long with
      | some (name, value) => ofName text name (some value)
      | none => ofName text long none
  | '-' :: letter :: attached => ofLetter letter attached
  | _ => .plain text

/-- Whether an argument looks like an option, so that it cannot be a value. -/
def isDashed : Text → Bool
  | '-' :: _ :: _ => true
  | _ => false

end Argument

/-! ## The command line -/

/-- The options of a run. -/
structure Options where
  /-- The export to read, or the standard input. -/
  input : Option Path := none
  /-- The path to write to. -/
  output : Option Path := none
  /-- The name of the output format. -/
  format : Option Text := none
  /-- The namespace of the header format. -/
  scope : Option Text := none
  /-- Whether to report the skipped lines. -/
  warnings : Bool := false
deriving DecidableEq, Repr

/-- What a command line asks for. -/
inductive Request where
  /-- Show how the program is used. -/
  | help
  /-- Write an export in another format. -/
  | convert (options : Options)
deriving DecidableEq, Repr

namespace Options

/-- The name of the format, which is `tsv` if none is given. -/
def formatName (options : Options) : Text := options.format.getD "tsv".toList

/-- The options with an input. -/
def addInput (options : Options) (text : Text) : Except UsageError Options :=
  if options.input.isSome then .error (.unexpectedArgument text)
  else if text = [] then .error .emptyPath
  else .ok { options with input := some ⟨text⟩ }

/-- The options with the wish to see the skipped lines. -/
def addWarnings (options : Options) : Except UsageError Options :=
  if options.warnings then .error (.repeated "warnings".toList)
  else .ok { options with warnings := true }

/-- The options with the value of a setting. -/
def set (options : Options) (setting : Setting) (value : Text) : Except UsageError Options :=
  match setting with
  | .output =>
      if options.output.isSome then .error (.repeated setting.name)
      else if value = [] then .error .emptyPath
      else .ok { options with output := some ⟨value⟩ }
  | .format =>
      if options.format.isSome then .error (.repeated setting.name)
      else .ok { options with format := some value }
  | .scope =>
      if options.scope.isSome then .error (.repeated setting.name)
      else .ok { options with scope := some value }

/-- Reads the arguments that are left, after those that gave `options`. -/
def readMore (options : Options) : List Text → Except UsageError Request
  | [] => .ok (.convert options)
  | text :: rest =>
      match Argument.ofText text with
      | .terminator => (rest.foldlM addInput options).map .convert
      | .help => .ok .help
      | .warnings =>
          match options.addWarnings with
          | .ok options => readMore options rest
          | .error error => .error error
      | .plain text =>
          match options.addInput text with
          | .ok options => readMore options rest
          | .error error => .error error
      | .setting setting (some value) =>
          match options.set setting value with
          | .ok options => readMore options rest
          | .error error => .error error
      | .setting setting none =>
          match rest with
          | [] => .error (.missingValue setting.name)
          | value :: rest =>
              if Argument.isDashed value then .error (.missingValue setting.name)
              else
                match options.set setting value with
                | .ok options => readMore options rest
                | .error error => .error error
      | .refused error => .error error

/-- Reads a command line. -/
def read (arguments : List Text) : Except UsageError Request := readMore {} arguments

example : read ["-f=hpp".toList, "--namespace".toList, "N".toList, "a".toList]
    = .ok (.convert
      { input := some ⟨"a".toList⟩, format := some "hpp".toList, scope := some "N".toList }) := rfl
example : read ["--".toList, "-x".toList] = .ok (.convert { input := some ⟨"-x".toList⟩ }) := rfl
example : read ["-f".toList, "-x".toList] = .error (.missingValue "format".toList) := rfl
example : read ["-".toList, "b".toList] = .error (.unexpectedArgument "b".toList) := rfl

end Options

end SignatureExport
