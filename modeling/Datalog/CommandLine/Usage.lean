import Datalog.CommandLine.Options

/-!
# Usage

What the command line is told about itself: its version, its help, and how it
could have been used.
-/

set_option autoImplicit false

namespace Datalog.CommandLine

/-- The name and the version of the program. -/
def versionText : String := "dlast 0.1.0\n"

/-- The help. -/
def helpText : String :=
  versionText ++
  "Parse Datalog programs and print them in canonical form\n" ++
  "\n" ++
  "USAGE:\n" ++
  "    dlast [FLAGS] [input]\n" ++
  "\n" ++
  "FLAGS:\n" ++
  "        --check           Only report diagnostics, do not print the program\n" ++
  "        --debug-report    Print the debug report after parsing\n" ++
  "    -h, --help            Prints help information\n" ++
  "        --no-warn         Suppress warnings\n" ++
  "    -V, --version         Prints version information\n" ++
  "    -v, --verbose         Raise log verbosity (-v, -vv, -vvv)\n" ++
  "\n" ++
  "ARGS:\n" ++
  "    <input>    Program to format; starts an interactive session when omitted\n"

/-- How the program is used: with the flags that were given, or in general. -/
def usageLine (given : List Flag) : String :=
  if given.isEmpty then "dlast [FLAGS] [input]"
  else
    "dlast" ++ String.join ((Flag.all.filter given.contains).map fun flag => " --" ++ flag.name)

/-- What is said when the command line cannot be followed. -/
def complaint (reason : String) (given : List Flag) : String :=
  "error: " ++ reason ++ "\n\nUSAGE:\n    " ++ usageLine given ++
    "\n\nFor more information try --help\n"

/-- A text in green. -/
def green (text : String) : String := "\x1b[32m" ++ text ++ "\x1b[0m"

/-- The question whether a flag was meant. -/
def suggestion (flag : Flag) : String :=
  "\n\tDid you mean " ++ green "--" ++ green flag.name ++ "?"

/-- What is said about an argument that nobody expects. -/
def unexpectedReason (argument : String) (meant? : Option Flag) : String :=
  "Found argument '" ++ argument ++ "' which wasn't expected, or isn't valid in this context" ++
    (meant?.map suggestion).getD ""

/-- What is said about a flag that was given more than once. -/
def repeatedReason (flag : Flag) : String :=
  "The argument '--" ++ flag.name ++
    "' was provided more than once, but cannot be used multiple times"

end Datalog.CommandLine
