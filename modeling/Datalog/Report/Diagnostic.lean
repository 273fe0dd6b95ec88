import Datalog.Text.Place

/-!
# Diagnostics

What is wrong with a text is collected while the text is being read, and reading
goes on.  Errors keep a program from being complete, warnings do not; a report
that is told to keep quiet about warnings drops them as they arrive.
-/

set_option autoImplicit false

namespace Datalog

/-- How grave a diagnostic is. -/
inductive Severity where
  | error
  | warning
deriving DecidableEq, Repr, Inhabited

/-- The name of a severity. -/
def Severity.name : Severity → String
  | .error => "Error"
  | .warning => "Warning"

/-- A message, and the location that it is about if there is one. -/
structure Diagnostic where
  severity : Severity
  message : String
  location? : Option Location := none
deriving DecidableEq, Repr, Inhabited

/-- The text of a diagnostic. -/
def Diagnostic.render (diagnostic : Diagnostic) : String :=
  diagnostic.severity.name ++ ": " ++ diagnostic.message ++
    match diagnostic.location? with
    | none => ""
    | some location => " in line " ++ location.render

/-- Diagnostics in the order of their arrival. -/
structure ErrorReport where
  diagnostics : List Diagnostic := []
  /-- Whether warnings are dropped. -/
  quiet : Bool := false
deriving Repr, Inhabited

namespace ErrorReport

/-- Adds a diagnostic, unless it is an unwanted warning. -/
def add (report : ErrorReport) (diagnostic : Diagnostic) : ErrorReport :=
  if report.quiet && diagnostic.severity == .warning then report
  else { report with diagnostics := report.diagnostics ++ [diagnostic] }

/-- Adds an error. -/
def addError (report : ErrorReport) (message : String) (location? : Option Location) :
    ErrorReport :=
  report.add ⟨.error, message, location?⟩

/-- Adds a warning. -/
def addWarning (report : ErrorReport) (message : String) (location? : Option Location) :
    ErrorReport :=
  report.add ⟨.warning, message, location?⟩

/-- The number of diagnostics of a severity. -/
def count (report : ErrorReport) (severity : Severity) : Nat :=
  report.diagnostics.countP fun diagnostic => diagnostic.severity == severity

/-- The number of errors. -/
def errors (report : ErrorReport) : Nat := report.count .error

/-- The number of warnings. -/
def warnings (report : ErrorReport) : Nat := report.count .warning

/-- Whether nothing has been reported. -/
def isEmpty (report : ErrorReport) : Bool := report.diagnostics.isEmpty

/-- The text of a report, one diagnostic to a line. -/
def render (report : ErrorReport) : String :=
  String.join (report.diagnostics.map fun diagnostic => diagnostic.render ++ "\n")

end ErrorReport

end Datalog
