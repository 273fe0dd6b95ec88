import Datalog.CommandLine.FileSystem
import Datalog.CommandLine.LogFilter
import Datalog.CommandLine.Usage
import Datalog.Session

/-!
# Running the command line

With an input, the program reads a file, reports on it and prints the program in
its canonical form unless there are errors.  Without an input, it takes the lines
of its standard input as the lines of a session.
-/

set_option autoImplicit false

namespace Datalog.CommandLine

/-- What a run leaves behind. -/
structure Outcome where
  output : String := ""
  errors : String := ""
  code : Nat := 0
deriving DecidableEq, Repr

/-- The preferences that the flags express. -/
def Options.preferences (options : Options) : Preferences :=
  { quiet := options.has .noWarn, debug := options.has .debugReport }

/-- The filter of the log: the directives of the environment if they can be
followed, and otherwise what the flags ask for. -/
def Options.filter (options : Options) (directives? : Option String) : LogFilter :=
  (directives?.bind LogFilter.ofText?).getD (.ofVerbosity options.verbosity)

/-! ## Files -/

/-- The text of a file, if its bytes are one. -/
def decode (bytes : ByteArray) : Except ReadError String :=
  match String.fromUTF8? bytes with
  | some text => .ok text
  | none => .error .notText

/-- Formats the text of the file with the given path. -/
def formatText (options : Options) (filter : LogFilter) (path code : String) : Outcome :=
  let unit := options.preferences.unitOf code.toList (.empty 0)
  let report :=
    filter.log (.inputRead path code.utf8ByteSize :: unit.events) ++ unit.report.render ++
      if options.has .debugReport then unit.debug.render ++ "\n" else ""
  if unit.report.errors = 0 then
    { output := if options.has .check then "" else unit.program.print, errors := report }
  else
    { errors := report ++ "Error: " ++ Text.natural unit.report.errors ++ " error(s) in " ++
        path ++ "\n"
      code := 1 }

/-- Formats the file with the given path. -/
def formatFile (options : Options) (filter : LogFilter) (path : String)
    (contents : Except ReadError ByteArray) : Outcome :=
  match contents.bind decode with
  | .ok code => formatText options filter path code
  | .error error =>
    { errors := "Error: Failed to read " ++ path ++ "\n\nCaused by:\n    " ++ error.message ++ "\n"
      code := 1 }

/-! ## Sessions -/

/-- The lines of an input without the line feeds that end them.  A last line
needs no line feed, but it has to have something on it. -/
def splitLines (bytes : List UInt8) : List (List UInt8) :=
  let lines := bytes.splitOn 10
  if lines.getLast? = some [] then lines.dropLast else lines

/-- Takes lines until one of them is not a text.  After the last line one more is
awaited. -/
def takeLines (preferences : Preferences) (filter : LogFilter) :
    Session → List (List UInt8) → Outcome
  | _, [] => { errors := filter.log [.lineAwaited] }
  | session, line :: rest =>
    match String.fromUTF8? ⟨line.toArray⟩ with
    | none =>
      { output := "Error: " ++ ReadError.notText.message ++ "\n"
        errors := filter.log [.lineAwaited] }
    | some line =>
      let response := session.enter preferences line.toList
      let remainder := takeLines preferences filter response.session rest
      { remainder with
        output := response.output ++ remainder.output
        errors := filter.log (.lineAwaited :: response.events) ++ remainder.errors }

/-- Serves a session. -/
def serve (options : Options) (filter : LogFilter) (input : ByteArray) : Outcome :=
  takeLines options.preferences filter { symbols := .empty 0 } (splitLines input.toList)

/-! ## Everything -/

/-- What is said when the command line is answered before anything is done. -/
def Interruption.outcome : Interruption → Outcome
  | .help => { output := helpText }
  | .version => { output := versionText }
  | .unexpected argument meant? given =>
    { errors := complaint (unexpectedReason argument meant?) (given ++ meant?.toList), code := 1 }
  | .repeated flag given => { errors := complaint (repeatedReason flag) given, code := 1 }

/-- Runs the program with the given arguments.  The directives of the environment
control the log, files are read by the given function, and `input` is the
standard input. -/
def run (arguments : List String) (directives? : Option String)
    (readFile : String → Except ReadError ByteArray) (input : ByteArray) : Outcome :=
  match Options.ofArguments arguments with
  | .error interruption => interruption.outcome
  | .ok options =>
    let filter := options.filter directives?
    match options.input? with
    | some path => formatFile options filter path (readFile path)
    | none => serve options filter input

end Datalog.CommandLine
