import Datalog.Grammar.Clause
import Datalog.Grammar.Fault
import Datalog.Program.Basic
import Datalog.Text.Place

/-!
# Interning

A clause that has been read still holds numerals and texts.  Interning visits
its constants in the order in which they are written, turns the numerals into
machine integers and enters the texts into a symbol table.  It stops at the
first numeral that is out of range; the texts in front of that numeral stay in
the table.
-/

set_option autoImplicit false

namespace Datalog

/-- A computation that enters texts into a symbol table and may be stopped by a
numeral that is out of range.  The table survives the stop. -/
abbrev Interning := ExceptT Numeral (StateM SymbolTable)

/-- Whether a numeral denotes a machine integer. -/
def Numeral.inRange (numeral : Numeral) : Bool :=
  Int64.minValue.toInt ≤ numeral.value && numeral.value ≤ Int64.maxValue.toInt

/-- The machine integer that a numeral denotes. -/
def Numeral.intern (numeral : Numeral) : Interning Int64 :=
  if numeral.inRange then pure (Int64.ofInt numeral.value) else throw numeral

/-- The symbol of a text. -/
def internText (text : String) : Interning Symbol :=
  modifyGet fun table => table.symbol text

/-- An atom with its constants interned. -/
def Atom.intern (atom : SpelledAtom) : Interning InternedAtom :=
  atom.traverse Numeral.intern internText

/-- A clause with its constants interned. -/
def Clause.intern (clause : SpelledClause) : Interning InternedClause :=
  clause.traverse Numeral.intern internText

/-- The answer of an interning that starts from a table, and the table at its end. -/
def Interning.runFrom {α : Type} (interning : Interning α) (table : SymbolTable) :
    Except Numeral α × SymbolTable :=
  StateT.run (ExceptT.run interning) table

/-! ## Clauses whose numbers are machine integers already -/

/-- An atom with its texts entered into a table. -/
def Atom.enter (atom : Atom Int64 String) (table : SymbolTable) : InternedAtom × SymbolTable :=
  StateT.run (m := Id)
    (atom.traverse pure fun text => modifyGet fun table => table.symbol text) table

/-- A clause with its texts entered into a table. -/
def Clause.enter (clause : Clause Int64 String) (table : SymbolTable) :
    InternedClause × SymbolTable :=
  StateT.run (m := Id)
    (clause.traverse pure fun text => modifyGet fun table => table.symbol text) table

/-! ## Reading a clause -/

/-- Why a text is not a clause. -/
inductive ParseError where
  /-- The text does not follow the grammar. -/
  | malformed (fault : Grammar.Fault)
  /-- The text follows the grammar, but a numeral does not denote a machine integer. -/
  | outOfRange (numeral : Numeral)
deriving DecidableEq, Repr

namespace ParseError

/-- The wording of an error. -/
def message : ParseError → String
  | .malformed fault => fault.message
  | .outOfRange numeral =>
    "number constant " ++ String.ofList numeral.spelling ++ " is out of range"

/-- The place of an error, named by the number of characters that remain there. -/
def remaining : ParseError → Nat
  | .malformed fault => fault.remaining
  | .outOfRange numeral => numeral.remaining

/-- The offset of an error in the text that was read. -/
def offset (code : List Char) (error : ParseError) : Nat := Text.offset code error.remaining

end ParseError

/-- Reads a text that is a single clause. -/
def parseClause (code : List Char) (table : SymbolTable) :
    Except ParseError InternedClause × SymbolTable :=
  match Grammar.singleClause.parse code with
  | .error fault => (.error (.malformed fault), table)
  | .ok (spelled, _) =>
    let (answer, table) := spelled.intern.runFrom table
    (answer.mapError .outOfRange, table)

end Datalog
