/-!
# Debug reports

A debug report collects titled sections of free text.  Whoever has something to
show adds a section without asking whether the report is wanted; a report that
is not enabled ignores it.
-/

set_option autoImplicit false

namespace Datalog

/-- A titled piece of a debug report. -/
structure DebugSection where
  id : String
  title : String
  body : String
deriving DecidableEq, Repr, Inhabited

/-- The text of a section. -/
def DebugSection.render (piece : DebugSection) : String :=
  "== " ++ piece.title ++ " [" ++ piece.id ++ "] ==\n" ++ piece.body

/-- Sections in the order of their arrival. -/
structure DebugReport where
  enabled : Bool := false
  sections : List DebugSection := []
deriving Repr, Inhabited

namespace DebugReport

/-- Adds a section if the report is enabled. -/
def add (report : DebugReport) (piece : DebugSection) : DebugReport :=
  if report.enabled then { report with sections := report.sections ++ [piece] } else report

/-- Whether there are no sections. -/
def isEmpty (report : DebugReport) : Bool := report.sections.isEmpty

/-- The text of a report: its sections with a line feed between them. -/
def render (report : DebugReport) : String :=
  "\n".intercalate (report.sections.map DebugSection.render)

end DebugReport

end Datalog
