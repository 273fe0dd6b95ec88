import Datalog.Event
import Datalog.Interning
import Datalog.Program.Printer
import Datalog.Report.Debug
import Datalog.Report.Diagnostic
import Datalog.Segment

/-!
# Translation units

A translation unit is what comes of a text: the program of its sound statements,
the symbol table that numbers its string constants, and the reports about it.
The segments of the text are taken in one by one.  A name that a declaration
lists twice is a warning; a name that has been declared before, a clause with a
numeral out of range and a malformed segment are errors.  None of them keeps the
other segments, or the other names of the declaration, from being taken in.
-/

set_option autoImplicit false

namespace Datalog

/-- A program, its symbol table, the reports about it and what happened while it
was being read. -/
structure TranslationUnit where
  program : Program := .empty
  symbols : SymbolTable
  report : ErrorReport := {}
  debug : DebugReport := {}
  events : List Event := []

namespace TranslationUnit

/-- Notes that something happened. -/
def note (unit : TranslationUnit) (events : List Event) : TranslationUnit :=
  { unit with events := unit.events ++ events }

/-- Reports an error. -/
def addError (unit : TranslationUnit) (message : String) (location? : Option Location) :
    TranslationUnit :=
  { unit with report := unit.report.addError message location? }

/-- Reports a warning. -/
def addWarning (unit : TranslationUnit) (message : String) (location? : Option Location) :
    TranslationUnit :=
  { unit with report := unit.report.addWarning message location? }

/-- Takes in a relation that is declared at a location. -/
def declare (location : Location) (unit : TranslationUnit) (relation : Relation) :
    TranslationUnit :=
  match unit.program.appendRelation relation with
  | .ok program => { unit with program := program }.note [.relationAppended relation.name]
  | .error error =>
    (unit.addError error.message (some location)).note [.relationRejected relation.name]

/-- Takes in the relations of a declaration, apart from those whose names have
been listed in it already. -/
def declareAll (location : Location) :
    List String → List Relation → TranslationUnit → TranslationUnit
  | _, [], unit => unit
  | listed, relation :: rest, unit =>
    if relation.name ∈ listed then
      declareAll location listed rest
        (unit.addWarning ("Relation " ++ relation.name ++ " listed twice in declaration")
          (some location))
    else declareAll location (relation.name :: listed) rest (unit.declare location relation)

/-- Takes in a clause that was read from the given text. -/
def addClause (code : List Char) (spelled : SpelledClause) (unit : TranslationUnit) :
    TranslationUnit :=
  let headRead : List Event :=
    match (spelled.head.intern.runFrom unit.symbols).1 with
    | .ok head => [.clauseRead head.name]
    | .error _ => []
  match spelled.intern.runFrom unit.symbols with
  | (.ok clause, symbols) =>
    let (handle, program) := unit.program.appendClause clause
    let unit := { unit with program := program, symbols := symbols }
    unit.note (headRead ++ [Event.clauseAppended clause.head.name handle])
  | (.error numeral, symbols) =>
    let unit := { unit with symbols := symbols }
    (unit.note headRead).addError (ParseError.outOfRange numeral).message
      (some (.ofPlace code numeral.remaining))

/-- Takes in a segment of the given text. -/
def add (code : List Char) (unit : TranslationUnit) (segment : Segment) : TranslationUnit :=
  match segment.reading with
  | .statement start (.declaration declaration) =>
    unit.declareAll (.ofPlace code start) [] declaration.relations
  | .statement _ (.clause spelled) => unit.addClause code spelled
  | .malformed fault =>
    (unit.note [.statementRefused (Text.offset code fault.remaining)]).addError
      fault.message (some (.ofPlace code fault.remaining))

/-- Shows what has been taken in. -/
def close (unit : TranslationUnit) : TranslationUnit :=
  let debug := unit.debug.add ⟨"parser", "Parsed program", unit.program.print⟩
  let shown := { unit with debug := debug }
  shown.note
    [.unitRead unit.program.relations.length unit.program.clauses.length unit.report.errors]

/-- The translation unit of a text, whose string constants are entered into the
given table and whose faults are added to the given reports. -/
def ofText (code : List Char) (symbols : SymbolTable) (report : ErrorReport)
    (debug : DebugReport) : TranslationUnit :=
  let start : TranslationUnit := { symbols := symbols, report := report, debug := debug }
  ((Segment.all code).foldl (add code) start).close

end TranslationUnit

end Datalog
