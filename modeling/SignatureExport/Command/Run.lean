import SignatureExport.Command.Host
import SignatureExport.Command.Options
import SignatureExport.Format.Basic
import SignatureExport.Text.Utf8

/-!
# Runs

A run reads an export and writes its document in the format that was asked for.

Without an input path it reads the standard input and shows the written document
on the standard output.  With an input path it writes a file and shows how many
entries it holds.  The file is the output path, or else the one that the format
takes by default.  A run refuses to write when the output path is the input path.

With an input path the checks come in this order: the input is a file, the format
is known, the output is not the input.  Only then is the input read and the output
written.  The standard input is read before the format is looked at.

The log that `SIGEXTRACT_LOG` turns on goes to the standard error too.  It is left
out here, and by default it holds nothing.
-/

namespace SignatureExport

/-- Why a run failed. -/
inductive Failure where
  /-- The standard input cannot be read. -/
  | standardInput (cause : FileError)
  /-- The format cannot be had. -/
  | format (error : FormatError)
  /-- The input is no regular file. -/
  | inputNotFound (input : Path)
  /-- The output is the input. -/
  | sameFile (input : Path)
  /-- The input cannot be read. -/
  | unreadable (input : Path) (cause : FileError)
  /-- The output cannot be written. -/
  | unwritable (output : Path) (cause : FileError)
deriving DecidableEq, Repr

namespace Failure

/-- The wording of a failure. -/
def message : Failure → Text
  | standardInput _ => "failed to read stdin".toList
  | format error => error.message
  | inputNotFound input => "input file not found: ".toList ++ input.text
  | sameFile input =>
      "refusing to overwrite input file ".toList ++ input.text ++ "; pass --output".toList
  | unreadable input _ => "failed to read ".toList ++ input.text
  | unwritable output _ => "failed to write ".toList ++ output.text

/-- What lies behind a failure. -/
def cause? : Failure → Option FileError
  | standardInput cause | unreadable _ cause | unwritable _ cause => some cause
  | _ => none

/-- The report of a failure. -/
def report (failure : Failure) : Text :=
  "Error: ".toList ++ failure.message ++
    (match failure.cause? with
      | some cause => "\n\nCaused by:\n    ".toList ++ cause.message
      | none => []) ++ ['\n']

end Failure

/-- What a run shows. -/
structure Outcome where
  /-- The exit code. -/
  exitCode : Nat := 0
  /-- The text on the standard output. -/
  output : Text := []
  /-- The text on the standard error, without the log. -/
  errors : Text := []
deriving DecidableEq, Repr

namespace Outcome

/-- The outcome of a run that failed. -/
def ofFailure (failure : Failure) : Outcome where
  exitCode := 1
  errors := failure.report

/-- The outcome of a command line that cannot be read. -/
def ofUsageError (error : UsageError) : Outcome where
  exitCode := 2
  errors := "error: ".toList ++ error.message ++ "\n\nFor more information, try --help.\n".toList

/-- The outcome of a command line that asks for help. -/
def help : Outcome where
  output :=
    ("Extract function metadata from demangled C++ signature exports\n\n" ++
    "Usage: sigextract [OPTIONS] [INPUT]\n\n" ++
    "Arguments:\n" ++
    "  [INPUT]  Export file with `<hex-address> <signature>` lines. " ++
    "If omitted, reads from stdin\n\n" ++
    "Options:\n" ++
    "  -o, --output <OUTPUT>        " ++
    "Output path (defaults to the input path with the format's extension)\n" ++
    "  -f, --format <FORMAT>        " ++
    "Output format: tsv (default) or header [default: tsv]\n" ++
    "  -n, --namespace <NAMESPACE>  " ++
    "C++ namespace for the header format. Derived from the input name (g1,\n" ++
    "                               g1a, g2, g2a) when omitted\n" ++
    "      --warnings               Print lines that could not be parsed\n" ++
    "  -h, --help                   Print help\n").toList

end Outcome

namespace Run

/-- A number written out. -/
def decimal (number : Nat) : Text := (toString number).toList

/-- The document of an export given as bytes. -/
def document (bytes : Bytes) : Document := Document.extract .verbatim (Utf8.decodeLossy bytes)

/-- The report of the skipped lines, if it is wanted and there are any. -/
def skippedReport (options : Options) (document : Document) : Text :=
  if options.warnings && !document.skipped.isEmpty then
    "Skipped ".toList ++ decimal document.skipped.length ++
      " line(s) that could not be parsed:\n".toList ++
      document.skipped.flatMap fun skipped => ' ' :: ' ' :: skipped.line ++ ['\n']
  else []

/-- The namespace given, or the one known by the stem of the input. -/
def scope? (options : Options) (input : Path) : Option Text :=
  match options.scope with
  | some text => some text
  | none => input.stem?.bind Namespace.ofStem?

/-- The format and the output path of a run with an input path. -/
def plan (options : Options) (input : Path) : Except Failure (Format × Path) :=
  match Format.ofName options.formatName (scope? options input) with
  | .error error => .error (.format error)
  | .ok format =>
      let output := options.output.getD (format.defaultOutput input)
      if output.Same input then .error (.sameFile input) else .ok (format, output)

/-- A run that reads the standard input. -/
def onStandardInput {m : Type → Type} [Monad m] [Host m] (options : Options) : m Outcome := do
  match ← Host.standardInput with
  | .error cause => return .ofFailure (.standardInput cause)
  | .ok bytes =>
      match Format.ofName options.formatName options.scope with
      | .error error => return .ofFailure (.format error)
      | .ok format =>
          let document := document bytes
          return { output := format.render document, errors := skippedReport options document }

/-- A run that reads the file at a path. -/
def onFile {m : Type → Type} [Monad m] [Host m] (options : Options) (input : Path) :
    m Outcome := do
  if !(← Host.isFile input) then return .ofFailure (.inputNotFound input)
  match plan options input with
  | .error failure => return .ofFailure failure
  | .ok (format, output) =>
      match ← Host.readFile input with
      | .error cause => return .ofFailure (.unreadable input cause)
      | .ok bytes =>
          let document := document bytes
          match ← Host.writeFile output (Utf8.encode (format.render document)) with
          | .error cause => return .ofFailure (.unwritable output cause)
          | .ok () =>
              return {
                output := "Wrote ".toList ++ decimal (format.entryCount document) ++
                  " entries to ".toList ++ output.text ++ ['\n']
                errors := skippedReport options document }

/-- The run that a command line asks for. -/
def run {m : Type → Type} [Monad m] [Host m] (arguments : List Text) : m Outcome :=
  match Options.read arguments with
  | .error error => pure (.ofUsageError error)
  | .ok .help => pure .help
  | .ok (.convert options) =>
      match options.input with
      | none => onStandardInput options
      | some input => onFile options input

end Run

end SignatureExport
