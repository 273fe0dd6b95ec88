import Datalog.Interning

/-!
# Building clauses from nodes

A text can also be read in two passes.  The first one only takes the text apart: what is
read as a production becomes a node, which keeps how it is written and the nodes inside it.
The second pass builds a clause from the nodes.  It cannot see from a node alone which nodes
are inside, so it looks for what it needs and has an error for every way in which a node
may disappoint it.
-/

set_option autoImplicit false

namespace Datalog

open Grammar

/-! ## Nodes -/

/-- What a node stands for: a production of the grammar, or what stands between the quotes
of a string constant. -/
inductive NodeKind where
  | production (production : Production)
  | interior
deriving DecidableEq, Repr

/-- What is read as a production: how it is written, how many characters remain in the text
where it begins, and the nodes inside it in the order in which they are written. -/
inductive Node where
  | mk (kind : NodeKind) (spelling : List Char) (remaining : Nat) (inner : List Node)

namespace Node

def kind : Node → NodeKind
  | mk kind _ _ _ => kind

def spelling : Node → List Char
  | mk _ spelling _ _ => spelling

def remaining : Node → Nat
  | mk _ _ remaining _ => remaining

end Node

/-! ## Building -/

/-- An argument with its constants interned. -/
abbrev InternedArgument := Argument Int64 Symbol

/-- A literal with its constants interned. -/
abbrev InternedLiteral := Literal Int64 Symbol

/-- Why no clause is built from nodes. -/
inductive BuildError where
  /-- Another node was looked for. -/
  | unexpected (kind : NodeKind) (remaining : Nat)
  /-- A node was looked for behind the last one. -/
  | missing (kind : NodeKind)
  /-- A node was looked for inside one that has none. -/
  | empty (kind : NodeKind) (remaining : Nat)
  | outOfRange (numeral : Numeral)
deriving DecidableEq, Repr

/-- A computation that enters texts into a symbol table and may be given up. -/
abbrev Building := ExceptT BuildError (StateM SymbolTable)

/-- The answer of a building that starts from a table, and the table at its end. -/
def Building.runFrom {α : Type} (building : Building α) (table : SymbolTable) :
    Except BuildError α × SymbolTable :=
  StateT.run (ExceptT.run building) table

/-- An interning as a part of building. -/
def Interning.build {α : Type} (interning : Interning α) : Building α :=
  interning.adapt .outOfRange

namespace Node

/-- The node has to be of the given kind. -/
def expect (kind : NodeKind) (node : Node) : Building Unit :=
  if node.kind = kind then pure () else throw (.unexpected node.kind node.remaining)

theorem expect_of_kind {kind : NodeKind} {node : Node} (same : node.kind = kind) :
    node.expect kind = pure () := if_pos same

theorem expect_mk (kind : NodeKind) (spelling : List Char) (remaining : Nat)
    (inner : List Node) : (mk kind spelling remaining inner).expect kind = pure () := if_pos rfl

mutual
/-- The argument that a node for an argument holds. -/
def argument : Node → Building InternedArgument
  | mk kind _ remaining [] => throw (.empty kind remaining)
  | mk _ _ _ (inner :: _) => inner.argumentForm

/-- The argument that one of the alternatives for an argument stands for. -/
def argumentForm : Node → Building InternedArgument
  | mk (.production .aggregate) _ _ [] => throw (.missing (.production .aggregateKind))
  | mk (.production .aggregate) _ _ (word :: inner) => do
      word.expect (.production .aggregateKind)
      match AggregateKind.ofKeyword? (String.ofList word.spelling) with
      | none => throw (.unexpected word.kind word.remaining)
      | some kind => aggregate kind none [] inner
  | mk (.production .nil) _ _ _ => return .nil
  | mk (.production .counter) _ _ _ => return .counter
  | mk (.production .number) spelling remaining _ =>
      return .number (← (Numeral.intern ⟨spelling, remaining⟩).build)
  | mk (.production .string) _ _ [] => throw (.missing .interior)
  | mk (.production .string) _ _ (interior :: _) => do
      interior.expect .interior
      return .string (← (internText (String.ofList (Text.unescape interior.spelling))).build)
  | mk (.production .unnamed) _ _ _ => return .unnamed
  | mk (.production .variable) spelling _ _ => return .variable (String.ofList spelling)
  | mk kind _ remaining _ => throw (.unexpected kind remaining)

/-- The aggregate of a kind, with a target and a body as far as they have been found, and
the nodes that are left. -/
def aggregate (kind : AggregateKind) (target : Option InternedArgument)
    (body : List InternedLiteral) : List Node → Building InternedArgument
  | [] => return .aggregate kind target body
  | node :: rest =>
      match node.kind with
      | .production .argument => do aggregate kind (some (← node.argument)) body rest
      | .production .aggregateBody => do aggregate kind target (body ++ (← node.body)) rest
      | other => throw (.unexpected other node.remaining)

/-- The body of an aggregate that a node stands for. -/
def body : Node → Building (List InternedLiteral)
  | mk _ _ _ inner => conditions inner

/-- The literals in the body of an aggregate, where an atom may stand by itself. -/
def conditions : List Node → Building (List InternedLiteral)
  | [] => return []
  | node :: rest => do
      let literal ← if node.kind = .production .atom then Atom.holds <$> node.atom else node.literal
      return literal :: (← conditions rest)

/-- The atom that a node stands for. -/
def atom : Node → Building InternedAtom
  | mk _ _ _ inner => applied inner

/-- The atom that is made of a name and arguments. -/
def applied : List Node → Building InternedAtom
  | [] => throw (.missing (.production .identifier))
  | name :: inner => do
      name.expect (.production .identifier)
      return ⟨String.ofList name.spelling, ← arguments inner⟩

/-- The arguments that nodes hold. -/
def arguments : List Node → Building (List InternedArgument)
  | [] => return []
  | node :: rest => do
      let argument ← node.argument
      return argument :: (← arguments rest)

/-- The literal that a node for a literal holds. -/
def literal : Node → Building InternedLiteral
  | mk kind _ remaining [] => throw (.empty kind remaining)
  | mk _ _ _ (inner :: _) => inner.literalForm

/-- The literal that one of the alternatives for a literal stands for. -/
def literalForm : Node → Building InternedLiteral
  | mk (.production .atom) _ _ inner => Atom.holds <$> applied inner
  | mk (.production .negation) _ _ [] => throw (.missing (.production .atom))
  | mk (.production .negation) _ _ (inner :: _) => do
      inner.expect (.production .atom)
      Atom.fails <$> inner.atom
  | mk (.production .comparison) _ _ inner => comparison inner
  | mk (.production .truth) spelling _ _ => return .truth (spelling == "true".toList)
  | mk kind _ remaining _ => throw (.unexpected kind remaining)

/-- The comparison that nodes stand for. -/
def comparison : List Node → Building InternedLiteral
  | [] => throw (.missing (.production .argument))
  | left :: rest => do
      left.expect (.production .argument)
      let first ← left.argument
      match rest with
      | [] => throw (.missing (.production .operator))
      | sign :: rest =>
          sign.expect (.production .operator)
          match Comparison.ofOperator? (String.ofList sign.spelling) with
          | none => throw (.unexpected sign.kind sign.remaining)
          | some operator =>
              match rest with
              | [] => throw (.missing (.production .argument))
              | right :: _ =>
                  right.expect (.production .argument)
                  return .comparison operator first (← right.argument)
end

/-- The literals that nodes hold. -/
def literals : List Node → Building (List InternedLiteral)
  | [] => return []
  | node :: rest => do
      let literal ← node.literal
      return literal :: (← literals rest)

/-- The clause that is made of a head and perhaps a body. -/
def clause : List Node → Building InternedClause
  | [] => throw (.missing (.production .atom))
  | head :: rest => do
      head.expect (.production .atom)
      let atom ← head.atom
      match rest with
      | [] => return ⟨atom, []⟩
      | mk _ _ _ inner :: _ => return ⟨atom, ← literals inner⟩

/-- The clause in a text that is a single clause. -/
def singleClause : List Node → Building InternedClause
  | [] => throw (.missing (.production .clause))
  | node@(mk _ _ _ inner) :: _ => do
      node.expect (.production .clause)
      clause inner

end Node

end Datalog
