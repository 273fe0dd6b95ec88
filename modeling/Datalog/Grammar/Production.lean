/-!
# The productions of the grammar

A phrase that can be missed has a name.  A reader who is told what was expected
at a place is not told every such name: several productions share a description
that says what a writer would have to put there.
-/

set_option autoImplicit false

namespace Datalog.Grammar

/-- The phrases that have names, in the order in which expectations are listed. -/
inductive Production where
  | endOfInput
  | identifier
  | nil
  | counter
  | number
  | string
  | unnamed
  | variable
  | aggregateKind
  | aggregateBody
  | aggregate
  | argument
  | atom
  | negation
  | truth
  | operator
  | comparison
  | literal
  | body
  | clause
  | declarationKeyword
  | relationNames
  | attribute
  | attributes
  | representation
  | declaration
  | statement
deriving DecidableEq, Repr, Inhabited

namespace Production

/-- Every production, in the order in which expectations are listed. -/
def all : List Production :=
  [.endOfInput, .identifier, .nil, .counter, .number, .string, .unnamed, .variable,
   .aggregateKind, .aggregateBody, .aggregate, .argument, .atom, .negation, .truth, .operator,
   .comparison, .literal, .body, .clause, .declarationKeyword, .relationNames, .attribute,
   .attributes, .representation, .declaration, .statement]

/-- What a writer would have to put at a place where a production was missed. -/
def description : Production → String
  | .endOfInput => "end of input"
  | .identifier | .relationNames => "identifier"
  | .nil | .counter | .number | .unnamed | .variable | .argument => "argument"
  | .string => "string"
  | .aggregateKind | .aggregateBody | .aggregate => "aggregate"
  | .atom => "atom"
  | .negation => "negation"
  | .truth | .comparison | .literal => "literal"
  | .operator => "comparison operator"
  | .body => "`:-` or `.`"
  | .clause => "clause"
  | .declarationKeyword | .declaration => "declaration"
  | .attribute | .attributes => "attribute"
  | .representation => "representation qualifier"
  | .statement => "declaration or clause"

theorem mem_all (production : Production) : production ∈ all := by
  cases production <;> decide

end Production

end Datalog.Grammar
