import Datalog.Grammar.Phrase
import Datalog.Relation
import Datalog.Text.Decimal
import Datalog.Text.Quoted
import Datalog.Tree.Basic

/-!
# Lexemes

Names, words, numerals, string constants and operators.  No layout is allowed
inside them.  A name is as long as it can be, so a word is recognised only where
no character of a name follows it.
-/

set_option autoImplicit false

namespace Datalog

/-- A number as it is written, and the number of characters that remain in the
text at the place where it begins. -/
structure Numeral where
  spelling : List Char
  remaining : Nat
deriving DecidableEq, Repr, Inhabited

/-- The integer that a numeral denotes. -/
def Numeral.value (numeral : Numeral) : Int := Text.ofDecimal numeral.spelling

/-- An argument as it is read. -/
abbrev SpelledArgument := Argument Numeral String

/-- A literal as it is read. -/
abbrev SpelledLiteral := Literal Numeral String

/-- An atom as it is read. -/
abbrev SpelledAtom := Atom Numeral String

/-- A clause as it is read. -/
abbrev SpelledClause := Clause Numeral String

namespace Grammar

/-! ## Names and words -/

/-- Whether a name may start with a character. -/
def startsName (c : Char) : Bool := c.isAlpha || c == '_'

/-- Whether a character may stand in a name. -/
def continuesName (c : Char) : Bool := c.isAlphanum || c == '_'

/-- Whether a text starts with a character that may stand in a name. -/
def beginsInName (text : List Char) : Bool := text.head?.any continuesName

/-- The words that cannot be the names of variables. -/
def reservedWords : List String := ["nil", "min", "max", "count", "sum", "true", "false"]

/-- Reads the longest name at the start of a text. -/
def readName : List Char → Option (String × List Char)
  | [] => none
  | c :: rest =>
    if startsName c then
      some (String.ofList (c :: rest.takeWhile continuesName), rest.dropWhile continuesName)
    else none

/-- Reads a name that stands for something. -/
def readWord {α : Type} (meaning : String → Option α) (text : List Char) :
    Option (α × List Char) := do
  let (name, rest) ← readName text
  return (← meaning name, rest)

/-- The name of a relation, of an attribute or of a type. -/
def identifier : Phrase String := .terminal .identifier readName

/-- The argument without a value. -/
def nil : Phrase Unit :=
  .terminal .nil (readWord fun name => if name = "nil" then some () else none)

/-- The sign for a variable without a name. -/
def unnamed : Phrase Unit :=
  .terminal .unnamed (readWord fun name => if name = "_" then some () else none)

/-- The name of a variable. -/
def variableName : Phrase String :=
  .terminal .variable (readWord fun name => if name ∈ reservedWords then none else some name)

/-- The word that announces an aggregate. -/
def aggregateKind : Phrase AggregateKind :=
  .terminal .aggregateKind (readWord AggregateKind.ofKeyword?)

/-- The constant conditions. -/
def truth : Phrase Bool :=
  .terminal .truth (readWord fun name =>
    if name = "true" then some true else if name = "false" then some false else none)

/-- The word that asks for a representation. -/
def qualifier : Phrase Representation :=
  .terminal .representation (readWord Representation.ofQualifier?)

/-- The word that opens a declaration. -/
def declarationKeyword : Phrase Unit :=
  .terminal .declarationKeyword fun text => do
    let rest ← ".decl".toList.isPrefixOf? text
    if beginsInName rest then none else some ((), rest)

/-! ## Numbers, strings and signs -/

/-- Reads digits, of which there has to be one at least. -/
def readDigits (text : List Char) : Option (List Char × List Char) :=
  if text.head?.any Char.isDigit then
    some (text.takeWhile Char.isDigit, text.dropWhile Char.isDigit)
  else none

/-- Reads digits behind an optional minus sign. -/
def readSigned : List Char → Option (List Char × List Char)
  | '-' :: text => (readDigits text).map fun (digits, rest) => ('-' :: digits, rest)
  | text => readDigits text

/-- Reads a numeral, which no character of a name may follow. -/
def readNumeral (text : List Char) : Option (Numeral × List Char) := do
  let (spelling, rest) ← readSigned text
  if beginsInName rest then none else some (⟨spelling, text.length⟩, rest)

/-- A number. -/
def number : Phrase Numeral := .terminal .number readNumeral

/-- Reads what stands in front of the closing quote.  A backslash takes the next
character with it, whatever it is. -/
def readInterior : List Char → Option (List Char × List Char)
  | [] => none
  | '"' :: rest => some ([], rest)
  | ['\\'] => none
  | '\\' :: c :: rest =>
    (readInterior rest).map fun (interior, rest) => ('\\' :: c :: interior, rest)
  | c :: rest => (readInterior rest).map fun (interior, rest) => (c :: interior, rest)

/-- Reads a string constant and answers with the text that it stands for. -/
def readString : List Char → Option (String × List Char)
  | '"' :: text =>
    (readInterior text).map fun (interior, rest) =>
      (String.ofList (Text.unescape interior), rest)
  | _ => none

/-- A string constant. -/
def string : Phrase String := .terminal .string readString

/-- The sign for a number that grows by itself. -/
def counter : Phrase Unit := .terminal .counter (Phrase.token "$").read

/-- Reads the longest operator at the start of a text. -/
def readOperator : List Char → Option (Comparison × List Char)
  | '!' :: '=' :: rest => some (.notEqual, rest)
  | '<' :: '=' :: rest => some (.lessEqual, rest)
  | '>' :: '=' :: rest => some (.greaterEqual, rest)
  | '=' :: rest => some (.equal, rest)
  | '<' :: rest => some (.less, rest)
  | '>' :: rest => some (.greater, rest)
  | _ => none

/-- The operator of a comparison. -/
def operator : Phrase Comparison := .terminal .operator readOperator

end Grammar

end Datalog
