import Datalog.Grammar.Statement
import Datalog.Proofs.Grammar.Lexical

/-!
# Derivations

The grammar without its reader.  A derivation relates a text to a tree and to
what is left behind the phrase that the tree stands for.  Alternatives are not
ordered, what may be left out or repeated may be left out or repeated at will,
and there may be layout between any two elements.  Only the lexical elements are
as long as they can be.

A tree has one constructor for each alternative of the grammar and keeps what
the alternative was made of: a numeral with its place, a string constant with
its interior as it is written, and the body of an aggregate with or without its
braces.  What a tree stands for (`spelled`) forgets the braces and undoes the
escapes.
-/

set_option autoImplicit false

namespace Datalog.Grammar

/-! ## Sequences with commas -/

section Sequences

variable {τ : Type} (Derives : List Char → τ → List Char → Prop)

/-- One or more phrases with commas between them. -/
inductive Separated : List Char → List τ → List Char → Prop
  | single {text rest : List Char} {tree : τ} (item : Derives text tree rest) :
      Separated text [tree] rest
  | more {text stop comma next rest : List Char} {tree : τ} {trees : List τ}
      (item : Derives text tree stop) (before : Layout stop (',' :: comma))
      (behind : Layout comma next) (others : Separated next trees rest) :
      Separated text (tree :: trees) rest

/-- Any number of phrases with commas between them, and a pair of signs around
them. -/
inductive Enclosed (opening closing : Char) : List Char → List τ → List Char → Prop
  | empty {inner rest : List Char} (before : Layout inner (closing :: rest)) :
      Enclosed opening closing (opening :: inner) [] rest
  | filled {inner start stop rest : List Char} {trees : List τ} (before : Layout inner start)
      (items : Separated Derives start trees stop) (behind : Layout stop (closing :: rest)) :
      Enclosed opening closing (opening :: inner) trees rest

end Sequences

/-! ## Trees -/

mutual
/-- The alternatives for an argument. -/
inductive ArgumentTree where
  | aggregate (kind : AggregateKind) (target : Option ArgumentTree) (body : BodyTree)
  | nil
  | counter
  | number (numeral : Numeral)
  | string (interior : List Char)
  | unnamed
  | variable (name : String)

/-- The alternatives for the body of an aggregate. -/
inductive BodyTree where
  | braced (literals : List LiteralTree)
  | bare (atom : AtomTree)

/-- A name that is applied to arguments. -/
inductive AtomTree where
  | applied (name : String) (arguments : List ArgumentTree)

/-- The alternatives for a literal. -/
inductive LiteralTree where
  | negation (atom : AtomTree)
  | atom (atom : AtomTree)
  | comparison (left : ArgumentTree) (operator : Comparison) (right : ArgumentTree)
  | truth (value : Bool)
end

/-- A head, and the literals of a body unless it is left out. -/
structure ClauseTree where
  head : AtomTree
  body : List LiteralTree

/-- Names, attributes, and a representation unless it is left out. -/
structure DeclarationTree where
  names : List String
  attributes : List Attribute
  qualifier? : Option Representation

/-- The alternatives for a statement. -/
inductive StatementTree where
  | declaration (tree : DeclarationTree)
  | clause (tree : ClauseTree)

/-! ## What trees stand for -/

mutual
/-- The argument that a tree stands for. -/
def ArgumentTree.spelled : ArgumentTree → SpelledArgument
  | .aggregate kind none body => .aggregate kind none body.spelled
  | .aggregate kind (some target) body => .aggregate kind (some target.spelled) body.spelled
  | .nil => .nil
  | .counter => .counter
  | .number numeral => .number numeral
  | .string interior => .string (String.ofList (Text.unescape interior))
  | .unnamed => .unnamed
  | .variable name => .variable name

/-- The arguments that trees stand for. -/
def ArgumentTree.spelledAll : List ArgumentTree → List SpelledArgument
  | [] => []
  | tree :: trees => tree.spelled :: ArgumentTree.spelledAll trees

/-- The body that a tree stands for. -/
def BodyTree.spelled : BodyTree → List SpelledLiteral
  | .braced literals => LiteralTree.spelledAll literals
  | .bare atom => [atom.spelled.holds]

/-- The atom that a tree stands for. -/
def AtomTree.spelled : AtomTree → SpelledAtom
  | .applied name arguments => ⟨name, ArgumentTree.spelledAll arguments⟩

/-- The literal that a tree stands for. -/
def LiteralTree.spelled : LiteralTree → SpelledLiteral
  | .negation atom => atom.spelled.fails
  | .atom atom => atom.spelled.holds
  | .comparison left operator right => .comparison operator left.spelled right.spelled
  | .truth value => .truth value

/-- The literals that trees stand for. -/
def LiteralTree.spelledAll : List LiteralTree → List SpelledLiteral
  | [] => []
  | tree :: trees => tree.spelled :: LiteralTree.spelledAll trees
end

theorem ArgumentTree.spelledAll_eq_map (trees : List ArgumentTree) :
    ArgumentTree.spelledAll trees = trees.map ArgumentTree.spelled := by
  induction trees with
  | nil => rfl
  | cons tree trees ih => rw [ArgumentTree.spelledAll, ih, List.map_cons]

theorem LiteralTree.spelledAll_eq_map (trees : List LiteralTree) :
    LiteralTree.spelledAll trees = trees.map LiteralTree.spelled := by
  induction trees with
  | nil => rfl
  | cons tree trees ih => rw [LiteralTree.spelledAll, ih, List.map_cons]

/-- The clause that a tree stands for. -/
def ClauseTree.spelled (tree : ClauseTree) : SpelledClause :=
  ⟨tree.head.spelled, LiteralTree.spelledAll tree.body⟩

/-- The declaration that a tree stands for. -/
def DeclarationTree.spelled (tree : DeclarationTree) : Declaration :=
  ⟨tree.names, tree.attributes, tree.qualifier?.getD .default⟩

/-- The statement that a tree stands for. -/
def StatementTree.spelled : StatementTree → Statement
  | .declaration tree => .declaration tree.spelled
  | .clause tree => .clause tree.spelled

/-! ## Clauses -/

mutual
/-- The text is an argument, followed by the rest. -/
inductive DerivesArgument : List Char → ArgumentTree → List Char → Prop
  | untargeted {text mark inner start rest : List Char} {kind : AggregateKind} {body : BodyTree}
      (word : Word text kind.keyword mark) (before : Layout mark (':' :: inner))
      (behind : Layout inner start) (contents : DerivesBody start body rest) :
      DerivesArgument text (.aggregate kind none body) rest
  | targeted {text mark first stop inner start rest : List Char} {kind : AggregateKind}
      {target : ArgumentTree} {body : BodyTree} (word : Word text kind.keyword mark)
      (front : Layout mark first) (reduced : DerivesArgument first target stop)
      (before : Layout stop (':' :: inner)) (behind : Layout inner start)
      (contents : DerivesBody start body rest) :
      DerivesArgument text (.aggregate kind (some target) body) rest
  | nil {text rest : List Char} (word : Word text "nil" rest) : DerivesArgument text .nil rest
  | counter {rest : List Char} : DerivesArgument ('$' :: rest) .counter rest
  | number {text spelling rest : List Char} (digits : NumberText text spelling rest) :
      DerivesArgument text (.number ⟨spelling, text.length⟩) rest
  | string {text interior rest : List Char} (isInterior : Interior interior)
      (spelled : text = interior ++ '"' :: rest) :
      DerivesArgument ('"' :: text) (.string interior) rest
  | unnamed {text rest : List Char} (word : Word text "_" rest) :
      DerivesArgument text .unnamed rest
  | free {text rest : List Char} {name : String} (word : Word text name rest)
      (unreserved : name ∉ reservedWords) (named : name ≠ "_") :
      DerivesArgument text (.variable name) rest

/-- The text is the body of an aggregate, followed by the rest. -/
inductive DerivesBody : List Char → BodyTree → List Char → Prop
  | braced {text rest : List Char} {literals : List LiteralTree}
      (contents : Enclosed DerivesLiteral '\x7b' '\x7d' text literals rest) :
      DerivesBody text (.braced literals) rest
  | bare {text rest : List Char} {atom : AtomTree} (contents : DerivesAtom text atom rest) :
      DerivesBody text (.bare atom) rest

/-- The text is an atom, followed by the rest. -/
inductive DerivesAtom : List Char → AtomTree → List Char → Prop
  | applied {text mark inner rest : List Char} {name : String} {arguments : List ArgumentTree}
      (word : Word text name mark) (before : Layout mark inner)
      (contents : Enclosed DerivesArgument '(' ')' inner arguments rest) :
      DerivesAtom text (.applied name arguments) rest

/-- The text is a literal, followed by the rest. -/
inductive DerivesLiteral : List Char → LiteralTree → List Char → Prop
  | negation {inner start rest : List Char} {atom : AtomTree} (behind : Layout inner start)
      (contents : DerivesAtom start atom rest) :
      DerivesLiteral ('!' :: inner) (.negation atom) rest
  | atom {text rest : List Char} {atom : AtomTree} (contents : DerivesAtom text atom rest) :
      DerivesLiteral text (.atom atom) rest
  | comparison {text stop mark inner start rest : List Char} {left right : ArgumentTree}
      {operator : Comparison} (first : DerivesArgument text left stop)
      (before : Layout stop mark) (sign : OperatorText mark operator inner)
      (behind : Layout inner start) (second : DerivesArgument start right rest) :
      DerivesLiteral text (.comparison left operator right) rest
  | truth {text rest : List Char} {value : Bool} (word : Word text (truthWord value) rest) :
      DerivesLiteral text (.truth value) rest
end

/-- The text is a clause, followed by the rest. -/
inductive DerivesClause : List Char → ClauseTree → List Char → Prop
  | fact {text stop rest : List Char} {head : AtomTree} (first : DerivesAtom text head stop)
      (behind : Layout stop ('.' :: rest)) : DerivesClause text ⟨head, []⟩ rest
  | rule {text stop inner start last rest : List Char} {head : AtomTree}
      {body : List LiteralTree} (first : DerivesAtom text head stop)
      (before : Layout stop (':' :: '-' :: inner)) (front : Layout inner start)
      (contents : Separated DerivesLiteral start body last) (behind : Layout last ('.' :: rest)) :
      DerivesClause text ⟨head, body⟩ rest

/-! ## Statements -/

/-- The text is an attribute, followed by the rest. -/
inductive DerivesAttribute : List Char → Attribute → List Char → Prop
  | typed {text mark inner start rest : List Char} {name typeName : String}
      (word : Word text name mark) (before : Layout mark (':' :: inner))
      (behind : Layout inner start) (second : Word start typeName rest) :
      DerivesAttribute text ⟨name, typeName⟩ rest

/-- The text is a declaration up to the end of its attributes, followed by the rest. -/
inductive DerivesSignature : List Char → List String → List Attribute → List Char → Prop
  | declared {text mark start stop inner rest : List Char} {names : List String}
      {attributes : List Attribute} (keyword : text = ".decl".toList ++ mark)
      (ends : beginsInName mark = false) (front : Layout mark start)
      (listed : Separated Word start names stop) (before : Layout stop inner)
      (contents : Enclosed DerivesAttribute '(' ')' inner attributes rest) :
      DerivesSignature text names attributes rest

/-- An opening parenthesis comes next, perhaps behind layout. -/
def Opens (text : List Char) : Prop := ∃ inner, Layout text ('(' :: inner)

/-- The text is a word that asks for a representation, followed by the rest.  It
is none if a parenthesis comes next. -/
structure DerivesQualifier (text : List Char) (representation : Representation)
    (rest : List Char) : Prop where
  word : ∃ qualifier, representation.qualifier? = some qualifier ∧ Word text qualifier rest
  unapplied : ¬ Opens rest

/-- The text is a declaration, followed by the rest. -/
inductive DerivesDeclaration : List Char → DeclarationTree → List Char → Prop
  | unqualified {text rest : List Char} {names : List String} {attributes : List Attribute}
      (signature : DerivesSignature text names attributes rest) :
      DerivesDeclaration text ⟨names, attributes, none⟩ rest
  | qualified {text stop start rest : List Char} {names : List String}
      {attributes : List Attribute} {representation : Representation}
      (signature : DerivesSignature text names attributes stop) (before : Layout stop start)
      (qualifier : DerivesQualifier start representation rest) :
      DerivesDeclaration text ⟨names, attributes, some representation⟩ rest

/-- The text is a statement, followed by the rest. -/
inductive DerivesStatement : List Char → StatementTree → List Char → Prop
  | declaration {text rest : List Char} {tree : DeclarationTree}
      (contents : DerivesDeclaration text tree rest) :
      DerivesStatement text (.declaration tree) rest
  | clause {text rest : List Char} {tree : ClauseTree} (contents : DerivesClause text tree rest) :
      DerivesStatement text (.clause tree) rest

/-- The text is layout around a sequence of statements. -/
inductive DerivesStatements : List Char → List StatementTree → Prop
  | done {text : List Char} (before : Layout text []) : DerivesStatements text []
  | next {text start rest : List Char} {tree : StatementTree} {trees : List StatementTree}
      (before : Layout text start) (first : DerivesStatement start tree rest)
      (others : DerivesStatements rest trees) : DerivesStatements text (tree :: trees)

end Datalog.Grammar
