import Datalog.Text.Blank
import Datalog.TranslationUnit

/-!
# Sessions

A session keeps one program and one symbol table over many lines.  A line shows
the program, clears it, or is a text of its own whose relations and clauses are
appended to the program.  A relation that the session has already is not
replaced but reported.
-/

set_option autoImplicit false

namespace Datalog

/-- What a reader wants to be told. -/
structure Preferences where
  /-- Warnings are dropped. -/
  quiet : Bool := false
  /-- The debug report is shown. -/
  debug : Bool := false
deriving Repr, Inhabited

/-- The translation unit of a text under the given preferences. -/
def Preferences.unitOf (preferences : Preferences) (code : List Char) (symbols : SymbolTable) :
    TranslationUnit :=
  .ofText code symbols { quiet := preferences.quiet } { enabled := preferences.debug }

/-- The program and the symbol table that are kept from line to line. -/
structure Session where
  symbols : SymbolTable
  program : Program := .empty

/-- What a line does: the session behind it, what is printed, and what happened. -/
structure Response where
  session : Session
  output : String := ""
  events : List Event := []

namespace Session

/-- What a line asks for. -/
inductive Request where
  | print
  | clear
  | read (code : List Char)
deriving DecidableEq, Repr

/-- What a line asks for, once the blanks around it are gone. -/
def Request.ofLine (line : List Char) : Request :=
  let code := Text.trim line
  if code = ".print".toList then .print
  else if code = ".clear".toList then .clear
  else .read code

/-- Appends a relation of a unit to the program of a session.  The first unit
holds the session's program and the report about the line. -/
def mergeRelation (unit : TranslationUnit) (relation : Relation) : TranslationUnit :=
  match unit.program.appendRelation relation with
  | .ok program => { unit with program := program }.note [.relationAppended relation.name]
  | .error error => (unit.addError error.message none).note [.relationRejected relation.name]

/-- Appends a clause of a unit to the program of a session. -/
def mergeClause (unit : TranslationUnit) (clause : InternedClause) : TranslationUnit :=
  let (handle, program) := unit.program.appendClause clause
  { unit with program := program }.note [.clauseAppended clause.head.name handle]

/-- A unit with its program replaced by the program of a session to which its
relations and clauses have been appended. -/
def merge (program : Program) (unit : TranslationUnit) : TranslationUnit :=
  unit.program.clauseList.foldl mergeClause
    (unit.program.relations.foldl mergeRelation { unit with program := program })

/-- What is printed about a unit: its report, and the debug report if there is one. -/
def describe (unit : TranslationUnit) : String :=
  unit.report.render ++ if unit.debug.isEmpty then "" else unit.debug.render ++ "\n"

/-- Answers a request. -/
def answer (preferences : Preferences) (session : Session) : Request → Response
  | .print => { session := session, output := session.program.print }
  | .clear => { session := { session with program := .empty } }
  | .read code =>
    let merged := merge session.program (preferences.unitOf code session.symbols)
    let shown :=
      { merged with
        debug := merged.debug.add ⟨"session", "Session program", merged.program.print⟩ }
    { session := { symbols := shown.symbols, program := shown.program }
      output := describe shown
      events := shown.events }

/-- Takes a line. -/
def enter (preferences : Preferences) (session : Session) (line : List Char) : Response :=
  session.answer preferences (.ofLine line)

end Session

end Datalog
