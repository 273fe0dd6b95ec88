/-!
# Clauses

The nodes of a clause.  A clause has a head and a body; the head is an atom, and
the body is a sequence of literals.  Arguments and literals refer to each other,
because an aggregate is an argument that carries a body of its own.

The nodes are polymorphic in their constants: `ν` stands for the numbers and `σ`
for the strings.  A clause that has just been read holds numerals and texts, a
clause of a program holds machine integers and symbols, and a clause that is
printed holds machine integers and texts.
-/

set_option autoImplicit false

namespace Datalog

/-- The reductions that an aggregate can ask for. -/
inductive AggregateKind where
  | min
  | max
  | count
  | sum
deriving DecidableEq, Repr

namespace AggregateKind

/-- Every kind of aggregate. -/
def all : List AggregateKind := [.min, .max, .count, .sum]

/-- The word that announces an aggregate of this kind. -/
def keyword : AggregateKind → String
  | .min => "min"
  | .max => "max"
  | .count => "count"
  | .sum => "sum"

/-- The kind that a word announces. -/
def ofKeyword? (word : String) : Option AggregateKind :=
  all.find? fun kind => kind.keyword == word

/-- Whether an aggregate of this kind asks for a target; counting does without. -/
def requiresTarget : AggregateKind → Bool
  | .count => false
  | _ => true

theorem ofKeyword?_keyword (kind : AggregateKind) : ofKeyword? kind.keyword = some kind := by
  cases kind <;> decide

end AggregateKind

/-- The comparisons between two arguments. -/
inductive Comparison where
  | equal
  | notEqual
  | less
  | lessEqual
  | greater
  | greaterEqual
deriving DecidableEq, Repr

namespace Comparison

/-- Every comparison. -/
def all : List Comparison := [.equal, .notEqual, .less, .lessEqual, .greater, .greaterEqual]

/-- The operator that stands for a comparison. -/
def operator : Comparison → String
  | .equal => "="
  | .notEqual => "!="
  | .less => "<"
  | .lessEqual => "<="
  | .greater => ">"
  | .greaterEqual => ">="

/-- The comparison that an operator stands for. -/
def ofOperator? (text : String) : Option Comparison :=
  all.find? fun comparison => comparison.operator == text

theorem ofOperator?_operator (comparison : Comparison) :
    ofOperator? comparison.operator = some comparison := by
  cases comparison <;> decide

end Comparison

mutual
/-- What a relation is applied to. -/
inductive Argument (ν σ : Type) where
  | nil
  | number (value : ν)
  | string (value : σ)
  | variable (name : String)
  /-- A variable without a name. -/
  | unnamed
  /-- A number that grows by itself. -/
  | counter
  /-- A reduction over the bindings of a body, of a target unless it counts. -/
  | aggregate (kind : AggregateKind) (target : Option (Argument ν σ))
      (body : List (Literal ν σ))

/-- One condition of a body. -/
inductive Literal (ν σ : Type) where
  /-- A relation that has to hold. -/
  | positive (name : String) (arguments : List (Argument ν σ))
  /-- A relation that must not hold. -/
  | negative (name : String) (arguments : List (Argument ν σ))
  | comparison (operator : Comparison) (left right : Argument ν σ)
  | truth (value : Bool)
end

deriving instance Inhabited for Argument, Literal

/-- A relation applied to arguments. -/
structure Atom (ν σ : Type) where
  name : String
  arguments : List (Argument ν σ)
deriving Inhabited

/-- A rule, or a fact when the body is empty. -/
structure Clause (ν σ : Type) where
  head : Atom ν σ
  body : List (Literal ν σ) := []
deriving Inhabited

variable {ν σ : Type}

/-- The number of arguments of an atom. -/
def Atom.arity (atom : Atom ν σ) : Nat := atom.arguments.length

/-- The condition that an atom holds. -/
def Atom.holds (atom : Atom ν σ) : Literal ν σ := .positive atom.name atom.arguments

/-- The condition that an atom does not hold. -/
def Atom.fails (atom : Atom ν σ) : Literal ν σ := .negative atom.name atom.arguments

/-- Whether a clause holds unconditionally. -/
def Clause.isFact (clause : Clause ν σ) : Bool := clause.body.isEmpty

end Datalog
