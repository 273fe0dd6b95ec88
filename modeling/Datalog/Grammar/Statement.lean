import Datalog.Grammar.Clause

/-!
# The grammar of statements

A statement is a declaration or a clause.  A clause ends with its full stop.  A
declaration has no such mark: it ends behind its attributes or behind the word
that asks for a representation.  That word may also be the name of a relation in
the clause that follows, and then an opening parenthesis comes next.
-/

set_option autoImplicit false

namespace Datalog.Grammar

open Phrase (token named listOf commaSeparated maybe absent)

/-- A declaration or a clause. -/
inductive Statement where
  | declaration (declared : Declaration)
  | clause (spelled : SpelledClause)
deriving Inhabited

/-- The names of the relations that are declared together. -/
def relationNames : Phrase (List String) := named .relationNames (commaSeparated identifier)

/-- An attribute with its type. -/
def attributePhrase : Phrase Attribute :=
  named .attribute (Attribute.mk <$> identifier <*> (token ":" *> identifier))

/-- The attributes of the relations that are declared together. -/
def attributes : Phrase (List Attribute) := named .attributes (listOf attributePhrase)

/-- A declaration of relations. -/
def declaration : Phrase Declaration :=
  named .declaration
    ((fun names attributes representation => ⟨names, attributes, representation.getD .default⟩) <$>
      (declarationKeyword *> relationNames) <*> (token "(" *> attributes <* token ")") <*>
      maybe (qualifier <* absent '('))

/-- A declaration or a clause. -/
def statement : Phrase Statement :=
  named .statement (Statement.declaration <$> declaration <|> Statement.clause <$> clause)

/-- A statement with layout in front of it. -/
def nextStatement : Phrase Statement := .afterLayout statement

end Datalog.Grammar
