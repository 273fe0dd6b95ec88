import Datalog.Grammar.Lexeme

/-!
# The grammar of clauses

Arguments, literals and atoms are phrases that may contain each other: an
argument may be an aggregate, whose body consists of literals.  Each of them is
written down for an arbitrary phrase in the place of the arguments inside it,
and `argument` then ties the knot.
-/

set_option autoImplicit false

namespace Datalog.Grammar

open Phrase (token named listOf commaSeparated maybe many)

/-! ## Phrases over the arguments inside them -/

section Contents

variable (argument : Phrase SpelledArgument)

/-- A relation applied to arguments. -/
def atomOver : Phrase SpelledAtom :=
  named .atom (Atom.mk <$> identifier <*> (token "(" *> listOf argument <* token ")"))

/-- An atom that must not hold. -/
def negationOver : Phrase SpelledLiteral :=
  named .negation (Atom.fails <$> (token "!" *> atomOver argument))

/-- Two arguments with an operator between them. -/
def comparisonOver : Phrase SpelledLiteral :=
  named .comparison
    ((fun left operator right => .comparison operator left right) <$>
      argument <*> operator <*> argument)

/-- One condition of a body. -/
def literalOver : Phrase SpelledLiteral :=
  named .literal
    (negationOver argument <|> Atom.holds <$> atomOver argument <|> comparisonOver argument <|>
      Literal.truth <$> truth)

/-- The body of an aggregate: literals between braces, or a lone atom. -/
def aggregateBodyOver : Phrase (List SpelledLiteral) :=
  named .aggregateBody
    (token "\x7b" *> listOf (literalOver argument) <* token "\x7d" <|>
      (fun atom => [Atom.holds atom]) <$> atomOver argument)

/-- A kind, an optional target and a body. -/
def aggregateOver : Phrase SpelledArgument :=
  named .aggregate
    (Argument.aggregate <$> aggregateKind <*> maybe argument <*>
      (token ":" *> aggregateBodyOver argument))

/-- An argument. -/
def argumentOver : Phrase SpelledArgument :=
  named .argument
    (aggregateOver argument <|> (fun _ => .nil) <$> nil <|> (fun _ => .counter) <$> counter <|>
      Argument.number <$> number <|> Argument.string <$> string <|>
      (fun _ => .unnamed) <$> unnamed <|> Argument.variable <$> variableName)

end Contents

/-! ## The phrases themselves -/

/-- What a relation is applied to. -/
def argument : Phrase SpelledArgument := .recursive argumentOver

/-- A relation applied to arguments. -/
def atom : Phrase SpelledAtom := atomOver argument

/-- One condition of a body. -/
def literal : Phrase SpelledLiteral := literalOver argument

/-- The body of a clause. -/
def body : Phrase (List SpelledLiteral) :=
  named .body (token ":-" *> commaSeparated literal)

/-- A head, an optional body and a full stop. -/
def clause : Phrase SpelledClause :=
  named .clause
    ((fun head body => ⟨head, body.getD []⟩) <$> atom <*> maybe body <* token ".")

/-- A clause that is all of a text. -/
def singleClause : Phrase SpelledClause := .afterLayout (clause <* .endOfInput)

end Datalog.Grammar
