import Datalog.Text.Likeness

/-!
# Options

The arguments of the command line are taken from left to right.  Flags may stand
before and behind the input, and flags of one letter may share a dash.  Behind
two dashes everything is an input.  Asking for help or for the version is
answered at once, as is an argument that nobody expects; a flag that was given
twice is noticed only when all arguments have been taken.
-/

set_option autoImplicit false

namespace Datalog.CommandLine

/-- What can be switched on. -/
inductive Flag where
  | check
  | debugReport
  | help
  | noWarn
  | version
  | verbose
deriving DecidableEq, Repr

namespace Flag

/-- Every flag, in the order in which flags are listed. -/
def all : List Flag := [.check, .debugReport, .help, .noWarn, .version, .verbose]

/-- The name of a flag, which is written behind two dashes. -/
def name : Flag → String
  | .check => "check"
  | .debugReport => "debug-report"
  | .help => "help"
  | .noWarn => "no-warn"
  | .version => "version"
  | .verbose => "verbose"

/-- The letter of a flag, which is written behind one dash. -/
def letter? : Flag → Option Char
  | .help => some 'h'
  | .version => some 'V'
  | .verbose => some 'v'
  | _ => none

/-- The flag with the given name. -/
def ofName? (name : List Char) : Option Flag :=
  all.find? fun flag => flag.name.toList == name

/-- Every flag, in the order in which flags are taken for a misspelled one: those
that change what a run does come before those that only ask for information. -/
def suggested : List Flag := [.check, .noWarn, .debugReport, .verbose, .help, .version]

/-- The flag that a name which no flag has was most likely meant for. -/
def meant? (name : List Char) : Option Flag :=
  Text.mostAlike? (fun flag => flag.name.toList) suggested name

/-- The flag with the given letter. -/
def ofLetter? (letter : Char) : Option Flag :=
  all.find? fun flag => flag.letter? == some letter

end Flag

/-- Why the command line is answered before anything is done. -/
inductive Interruption where
  | help
  | version
  /-- An argument that nobody expects, the flag that it was perhaps meant for, and
  the flags that were given so far. -/
  | unexpected (argument : String) (meant? : Option Flag) (given : List Flag)
  /-- A flag that was given more than once, among the flags that were given. -/
  | repeated (flag : Flag) (given : List Flag)
deriving DecidableEq, Repr

/-- The flags that were given, in the order in which they were given, and the
input if there is one. -/
structure Options where
  flags : List Flag := []
  input? : Option String := none
deriving DecidableEq, Repr, Inhabited

namespace Options

/-- Whether a flag was given. -/
def has (options : Options) (flag : Flag) : Bool := options.flags.contains flag

/-- How often more detail was asked for.  The count starts again after 255. -/
def verbosity (options : Options) : Nat := options.flags.count .verbose % 256

/-- Takes a flag. -/
def takeFlag (options : Options) : Flag → Except Interruption Options
  | .help => throw .help
  | .version => throw .version
  | flag => pure { options with flags := options.flags ++ [flag] }

/-- Takes an input. -/
def takeInput (options : Options) (argument : String) : Except Interruption Options :=
  match options.input? with
  | none => pure { options with input? := some argument }
  | some _ => throw (.unexpected argument none options.flags)

/-- Takes what stands behind two dashes.  More dashes make no difference, and
neither does a value behind an equals sign. -/
def takeName (options : Options) (text : List Char) : Except Interruption Options :=
  let name := (text.dropWhile (· == '-')).takeWhile (· != '=')
  match Flag.ofName? name with
  | some flag => options.takeFlag flag
  | none => throw (.unexpected ("--" ++ String.ofList name) (Flag.meant? name) options.flags)

/-- Takes the letters that stand behind one dash. -/
def takeLetters (options : Options) (letters : List Char) : Except Interruption Options :=
  letters.foldlM (fun options letter =>
    match Flag.ofLetter? letter with
    | some flag => options.takeFlag flag
    | none => throw (.unexpected (String.ofList ['-', letter]) none options.flags)) options

/-- Takes an argument in front of which two dashes have not been given. -/
def takeArgument (options : Options) (argument : String) : Except Interruption Options :=
  match argument.toList with
  | '-' :: '-' :: text => options.takeName text
  | '-' :: letter :: letters => options.takeLetters (letter :: letters)
  | _ => options.takeInput argument

/-- Takes arguments. -/
def takeAll (options : Options) : List String → Except Interruption Options
  | [] => pure options
  | "--" :: inputs => inputs.foldlM takeInput options
  | argument :: rest => do (← options.takeArgument argument).takeAll rest

/-- The first of the flags that was given more than once, apart from the one that
may be repeated. -/
def repeated? (options : Options) : Option Flag :=
  options.flags.find? fun flag => flag != .verbose && 1 < options.flags.count flag

/-- Reads the arguments of the command line. -/
def ofArguments (arguments : List String) : Except Interruption Options := do
  let options ← takeAll {} arguments
  match options.repeated? with
  | none => pure options
  | some flag => throw (.repeated flag options.flags)

end Options

end Datalog.CommandLine
