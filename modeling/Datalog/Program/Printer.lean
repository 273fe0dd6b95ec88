import Datalog.Program.Basic

/-!
# The text of a program

A program is written one statement to a line: first the declarations of its
relations, as few as their order allows, and then its clauses.
-/

set_option autoImplicit false

namespace Datalog

namespace Program

/-- The lines of a program without the line feeds that end them. -/
def lines (program : Program) : List (List Char) :=
  (Declaration.ofRelations program.relations).map Declaration.text ++
    program.clauseList.map fun clause => clause.content.text

/-- The text of a program. -/
def text (program : Program) : List Char :=
  program.lines.flatMap fun line => line ++ ['\n']

/-- A program in its canonical form. -/
def print (program : Program) : String := String.ofList program.text

end Program

end Datalog
