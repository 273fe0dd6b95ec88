import Datalog.Tree.Basic

/-!
# Equality of clauses

Two clauses are equal when they have the same shape and equal names, and their
constants are equal place by place.  What it means for constants to be equal is
left to the types of the constants; for symbols this is a comparison of its own.
-/

set_option autoImplicit false

namespace Datalog

variable {ν σ : Type} [BEq ν] [BEq σ]

mutual
/-- Equality of arguments. -/
def Argument.beq : Argument ν σ → Argument ν σ → Bool
  | .nil, .nil => true
  | .number left, .number right => left == right
  | .string left, .string right => left == right
  | .variable left, .variable right => left == right
  | .unnamed, .unnamed => true
  | .counter, .counter => true
  | .aggregate kind none body, .aggregate kind' none body' =>
      kind == kind' && Literal.beqAll body body'
  | .aggregate kind (some target) body, .aggregate kind' (some target') body' =>
      kind == kind' && target.beq target' && Literal.beqAll body body'
  | _, _ => false

/-- Equality of sequences of arguments. -/
def Argument.beqAll : List (Argument ν σ) → List (Argument ν σ) → Bool
  | [], [] => true
  | left :: lefts, right :: rights => left.beq right && Argument.beqAll lefts rights
  | _, _ => false

/-- Equality of literals. -/
def Literal.beq : Literal ν σ → Literal ν σ → Bool
  | .positive name arguments, .positive name' arguments' =>
      name == name' && Argument.beqAll arguments arguments'
  | .negative name arguments, .negative name' arguments' =>
      name == name' && Argument.beqAll arguments arguments'
  | .comparison operator left right, .comparison operator' left' right' =>
      operator == operator' && left.beq left' && right.beq right'
  | .truth value, .truth value' => value == value'
  | _, _ => false

/-- Equality of bodies. -/
def Literal.beqAll : List (Literal ν σ) → List (Literal ν σ) → Bool
  | [], [] => true
  | left :: lefts, right :: rights => left.beq right && Literal.beqAll lefts rights
  | _, _ => false
end

instance : BEq (Argument ν σ) := ⟨Argument.beq⟩

instance : BEq (Literal ν σ) := ⟨Literal.beq⟩

instance : BEq (Atom ν σ) :=
  ⟨fun left right => left.name == right.name && Argument.beqAll left.arguments right.arguments⟩

instance : BEq (Clause ν σ) :=
  ⟨fun left right => left.head == right.head && Literal.beqAll left.body right.body⟩

end Datalog
