import Datalog.Proofs.Grammar.Reading
import Datalog.Proofs.Nodes.Building

/-!
# Taking a text apart into nodes

The grammar once more, with the same combinators, for readers that take a text apart: a
production yields a node around the nodes that are read inside it, a sign yields nothing,
and sequences and repetitions put what they yield one behind the other.  A lexeme is a node
without nodes inside, but for a string constant, which has its interior inside.
-/

set_option autoImplicit false

namespace Datalog.Grammar

open Phrase

/-- What is read as a phrase becomes a node around what the phrase yields. -/
def node (production : Production) (phrase : Phrase (List Node)) : Phrase (List Node) where
  read text :=
    (phrase.read text).map fun (inner, rest) =>
      ([.mk (.production production) (Text.before text rest.length) text.length inner], rest)
  attempt text trail :=
    let (found, trail) := phrase.attempt text trail
    let nodes := found.map fun (inner, rest) =>
      ([.mk (.production production) (Text.before text rest.length) text.length inner], rest)
    (nodes, trail)
  attempt_fst text trail := by simp [phrase.attempt_fst text trail]

/-- What is read as a lexeme becomes a node with nothing inside. -/
def leaf {α : Type} (production : Production) (phrase : Phrase α) : Phrase (List Node) :=
  node production ((fun _ => []) <$> phrase)

/-- Reads a string constant and answers with a node for its interior. -/
def readInteriorNode : List Char → Option (List Node × List Char)
  | '"' :: text =>
    (readInterior text).map fun (interior, rest) =>
      ([.mk .interior interior text.length []], rest)
  | _ => none

/-- A string constant becomes a node around its interior. -/
def stringNode : Phrase (List Node) := node .string (.lexeme readInteriorNode)

section Contents

variable (argument : Phrase (List Node))

/-- A name and the arguments inside. -/
def atomNodeOver : Phrase (List Node) :=
  node .atom (List.append <$> leaf .identifier identifier <*>
    (token "(" *> (List.flatten <$> listOf argument) <* token ")"))

/-- The atom that must not hold. -/
def negationNodeOver : Phrase (List Node) :=
  node .negation (token "!" *> atomNodeOver argument)

/-- Two arguments and the operator between them. -/
def comparisonNodeOver : Phrase (List Node) :=
  node .comparison ((fun left operator right => left ++ (operator ++ right)) <$>
    argument <*> leaf .operator operator <*> argument)

/-- A node around one of the alternatives for a literal. -/
def literalNodeOver : Phrase (List Node) :=
  node .literal (negationNodeOver argument <|> atomNodeOver argument <|>
    comparisonNodeOver argument <|> leaf .truth truth)

/-- The literals between braces, or the lone atom. -/
def aggregateBodyNodeOver : Phrase (List Node) :=
  node .aggregateBody
    (token "\x7b" *> (List.flatten <$> listOf (literalNodeOver argument)) <* token "\x7d" <|>
      atomNodeOver argument)

/-- A kind, perhaps a target, and a body. -/
def aggregateNodeOver : Phrase (List Node) :=
  node .aggregate ((fun kind target body => kind ++ (target.getD [] ++ body)) <$>
    leaf .aggregateKind aggregateKind <*> maybe argument <*>
      (token ":" *> aggregateBodyNodeOver argument))

/-- A node around one of the alternatives for an argument. -/
def argumentNodeOver : Phrase (List Node) :=
  node .argument (aggregateNodeOver argument <|> leaf .nil nil <|> leaf .counter counter <|>
    leaf .number number <|> stringNode <|> leaf .unnamed unnamed <|>
      leaf .variable variableName)

end Contents

/-- The node of an argument. -/
def argumentNode : Phrase (List Node) := .recursive argumentNodeOver

/-- The node of the body of a clause. -/
def bodyNode : Phrase (List Node) :=
  node .body (token ":-" *> (List.flatten <$> commaSeparated (literalNodeOver argumentNode)))

/-- The node of a clause. -/
def clauseNode : Phrase (List Node) :=
  node .clause ((fun head body => head ++ body.getD []) <$> atomNodeOver argumentNode <*>
    maybe bodyNode <* token ".")

/-- The nodes of a text that is a single clause: one for the clause, one for the end. -/
def singleClauseNodes : Phrase (List Node) :=
  .afterLayout (List.append <$> clauseNode <*> leaf .endOfInput .endOfInput)

end Datalog.Grammar
