import Datalog.Tree.Basic

/-!
# The constants of a clause

Constants are visited in the order in which they are written: the head before
the body, the arguments of an atom and the literals of a body from left to
right, the left side of a comparison before the right one, and the target of an
aggregate before its body.  `Clause.traverse` gives each constant to an
operation in that order, and `Clause.map` replaces each constant by another.
-/

set_option autoImplicit false

namespace Datalog

variable {ν ν' σ σ' : Type}

/-! ## Replacing constants one by one -/

mutual
/-- The argument with its constants replaced. -/
def Argument.map (number : ν → ν') (string : σ → σ') : Argument ν σ → Argument ν' σ'
  | .nil => .nil
  | .number value => .number (number value)
  | .string value => .string (string value)
  | .variable name => .variable name
  | .unnamed => .unnamed
  | .counter => .counter
  | .aggregate kind none body => .aggregate kind none (Literal.mapAll number string body)
  | .aggregate kind (some target) body =>
      .aggregate kind (some (target.map number string)) (Literal.mapAll number string body)

/-- The arguments with their constants replaced. -/
def Argument.mapAll (number : ν → ν') (string : σ → σ') :
    List (Argument ν σ) → List (Argument ν' σ')
  | [] => []
  | argument :: rest => argument.map number string :: Argument.mapAll number string rest

/-- The literal with its constants replaced. -/
def Literal.map (number : ν → ν') (string : σ → σ') : Literal ν σ → Literal ν' σ'
  | .positive name arguments => .positive name (Argument.mapAll number string arguments)
  | .negative name arguments => .negative name (Argument.mapAll number string arguments)
  | .comparison operator left right =>
      .comparison operator (left.map number string) (right.map number string)
  | .truth value => .truth value

/-- The body with its constants replaced. -/
def Literal.mapAll (number : ν → ν') (string : σ → σ') :
    List (Literal ν σ) → List (Literal ν' σ')
  | [] => []
  | literal :: rest => literal.map number string :: Literal.mapAll number string rest
end

/-- The atom with its constants replaced. -/
def Atom.map (number : ν → ν') (string : σ → σ') (atom : Atom ν σ) : Atom ν' σ' :=
  ⟨atom.name, Argument.mapAll number string atom.arguments⟩

/-- The clause with its constants replaced. -/
def Clause.map (number : ν → ν') (string : σ → σ') (clause : Clause ν σ) : Clause ν' σ' :=
  ⟨clause.head.map number string, Literal.mapAll number string clause.body⟩

theorem Argument.mapAll_eq_map (number : ν → ν') (string : σ → σ')
    (arguments : List (Argument ν σ)) :
    Argument.mapAll number string arguments = arguments.map (Argument.map number string) := by
  induction arguments with
  | nil => rfl
  | cons argument rest ih => simp [Argument.mapAll, ih]

theorem Literal.mapAll_eq_map (number : ν → ν') (string : σ → σ') (body : List (Literal ν σ)) :
    Literal.mapAll number string body = body.map (Literal.map number string) := by
  induction body with
  | nil => rfl
  | cons literal rest ih => simp [Literal.mapAll, ih]

/-! ## Visiting constants in order -/

section Traverse

variable {m : Type → Type} [Monad m]

mutual
/-- The argument with its constants replaced by the results of operations. -/
def Argument.traverse (number : ν → m ν') (string : σ → m σ') :
    Argument ν σ → m (Argument ν' σ')
  | .nil => pure .nil
  | .number value => do return .number (← number value)
  | .string value => do return .string (← string value)
  | .variable name => pure (.variable name)
  | .unnamed => pure .unnamed
  | .counter => pure .counter
  | .aggregate kind none body => do
      return .aggregate kind none (← Literal.traverseAll number string body)
  | .aggregate kind (some target) body => do
      let target ← target.traverse number string
      return .aggregate kind (some target) (← Literal.traverseAll number string body)

/-- The arguments with their constants replaced by the results of operations. -/
def Argument.traverseAll (number : ν → m ν') (string : σ → m σ') :
    List (Argument ν σ) → m (List (Argument ν' σ'))
  | [] => pure []
  | argument :: rest => do
      let argument ← argument.traverse number string
      return argument :: (← Argument.traverseAll number string rest)

/-- The literal with its constants replaced by the results of operations. -/
def Literal.traverse (number : ν → m ν') (string : σ → m σ') :
    Literal ν σ → m (Literal ν' σ')
  | .positive name arguments => do
      return .positive name (← Argument.traverseAll number string arguments)
  | .negative name arguments => do
      return .negative name (← Argument.traverseAll number string arguments)
  | .comparison operator left right => do
      let left ← left.traverse number string
      return .comparison operator left (← right.traverse number string)
  | .truth value => pure (.truth value)

/-- The body with its constants replaced by the results of operations. -/
def Literal.traverseAll (number : ν → m ν') (string : σ → m σ') :
    List (Literal ν σ) → m (List (Literal ν' σ'))
  | [] => pure []
  | literal :: rest => do
      let literal ← literal.traverse number string
      return literal :: (← Literal.traverseAll number string rest)
end

/-- The atom with its constants replaced by the results of operations. -/
def Atom.traverse (number : ν → m ν') (string : σ → m σ') (atom : Atom ν σ) :
    m (Atom ν' σ') := do
  return ⟨atom.name, ← Argument.traverseAll number string atom.arguments⟩

/-- The clause with its constants replaced by the results of operations. -/
def Clause.traverse (number : ν → m ν') (string : σ → m σ') (clause : Clause ν σ) :
    m (Clause ν' σ') := do
  let head ← clause.head.traverse number string
  return ⟨head, ← Literal.traverseAll number string clause.body⟩

end Traverse

end Datalog
