import Datalog.Program.Basic
import Datalog.Proofs.Grammar.Lexical

/-!
# Well-formed programs

A program can be written down only if its names can.  Names of relations, of
attributes and of types may be any words, the reserved ones included; the name of
a variable must be neither reserved nor the sign for a variable without a name.
Constants have no part in this, so replacing them keeps a clause well formed.
-/

set_option autoImplicit false

namespace Datalog

open Grammar (isName reservedWords)

/-- Whether a name can be that of a variable. -/
def isVariableName (name : String) : Bool :=
  isName name && !reservedWords.contains name && name != "_"

section Clauses

variable {ν ν' σ σ' : Type}

mutual
/-- Whether the names in an argument can be written. -/
def Argument.wellFormed : Argument ν σ → Bool
  | .nil | .number _ | .string _ | .unnamed | .counter => true
  | .variable name => isVariableName name
  | .aggregate _ none body => Literal.wellFormedAll body
  | .aggregate _ (some target) body => target.wellFormed && Literal.wellFormedAll body

/-- Whether the names in a sequence of arguments can be written. -/
def Argument.wellFormedAll : List (Argument ν σ) → Bool
  | [] => true
  | argument :: rest => argument.wellFormed && Argument.wellFormedAll rest

/-- Whether the names in a literal can be written. -/
def Literal.wellFormed : Literal ν σ → Bool
  | .positive name arguments => isName name && Argument.wellFormedAll arguments
  | .negative name arguments => isName name && Argument.wellFormedAll arguments
  | .comparison _ left right => left.wellFormed && right.wellFormed
  | .truth _ => true

/-- Whether the names in a body can be written. -/
def Literal.wellFormedAll : List (Literal ν σ) → Bool
  | [] => true
  | literal :: rest => literal.wellFormed && Literal.wellFormedAll rest
end

/-- Whether the names in an atom can be written. -/
def Atom.wellFormed (atom : Atom ν σ) : Bool :=
  isName atom.name && Argument.wellFormedAll atom.arguments

/-- Whether the names in a clause can be written. -/
def Clause.wellFormed (clause : Clause ν σ) : Bool :=
  clause.head.wellFormed && Literal.wellFormedAll clause.body

mutual
theorem Argument.wellFormed_map (number : ν → ν') (string : σ → σ') :
    ∀ argument : Argument ν σ, (argument.map number string).wellFormed = argument.wellFormed
  | .nil | .number _ | .string _ | .variable _ | .unnamed | .counter => rfl
  | .aggregate _ none body => Literal.wellFormedAll_mapAll number string body
  | .aggregate _ (some target) body => by
      rw [Argument.map, Argument.wellFormed, Argument.wellFormed,
        Argument.wellFormed_map number string target,
        Literal.wellFormedAll_mapAll number string body]

theorem Argument.wellFormedAll_mapAll (number : ν → ν') (string : σ → σ') :
    ∀ arguments : List (Argument ν σ),
      Argument.wellFormedAll (Argument.mapAll number string arguments) =
        Argument.wellFormedAll arguments
  | [] => rfl
  | argument :: rest => by
      rw [Argument.mapAll, Argument.wellFormedAll, Argument.wellFormedAll,
        Argument.wellFormed_map number string argument,
        Argument.wellFormedAll_mapAll number string rest]

theorem Literal.wellFormed_map (number : ν → ν') (string : σ → σ') :
    ∀ literal : Literal ν σ, (literal.map number string).wellFormed = literal.wellFormed
  | .positive _ arguments => by
      rw [Literal.map, Literal.wellFormed, Literal.wellFormed,
        Argument.wellFormedAll_mapAll number string arguments]
  | .negative _ arguments => by
      rw [Literal.map, Literal.wellFormed, Literal.wellFormed,
        Argument.wellFormedAll_mapAll number string arguments]
  | .comparison _ left right => by
      rw [Literal.map, Literal.wellFormed, Literal.wellFormed,
        Argument.wellFormed_map number string left, Argument.wellFormed_map number string right]
  | .truth _ => rfl

theorem Literal.wellFormedAll_mapAll (number : ν → ν') (string : σ → σ') :
    ∀ body : List (Literal ν σ),
      Literal.wellFormedAll (Literal.mapAll number string body) = Literal.wellFormedAll body
  | [] => rfl
  | literal :: rest => by
      rw [Literal.mapAll, Literal.wellFormedAll, Literal.wellFormedAll,
        Literal.wellFormed_map number string literal,
        Literal.wellFormedAll_mapAll number string rest]
end

/-- **Replacing constants keeps a clause well formed.** -/
theorem Clause.wellFormed_map (number : ν → ν') (string : σ → σ') (clause : Clause ν σ) :
    (clause.map number string).wellFormed = clause.wellFormed := by
  simp only [Clause.map, Atom.map, Clause.wellFormed, Atom.wellFormed,
    Argument.wellFormedAll_mapAll, Literal.wellFormedAll_mapAll]

end Clauses

/-- Whether the names in an attribute can be written. -/
def Attribute.wellFormed (column : Attribute) : Bool :=
  isName column.name && isName column.typeName

/-- Whether the names in a relation can be written. -/
def Relation.wellFormed (relation : Relation) : Bool :=
  isName relation.name && relation.attributes.all Attribute.wellFormed

/-- Whether the names in a program can be written. -/
def Program.wellFormed (program : Program) : Bool :=
  program.relations.all Relation.wellFormed && program.clauseList.all Clause.wellFormed

end Datalog
