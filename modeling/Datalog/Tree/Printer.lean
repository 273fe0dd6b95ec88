import Datalog.Text.Decimal
import Datalog.Text.Quoted
import Datalog.Tree.Basic

/-!
# The text of a clause

Every clause of machine integers and texts has one canonical text.  Arguments
are set apart by commas alone, literals by a comma and a space.  The body of an
aggregate stands between braces, unless it is a single atom: without braces,
anything longer would be taken for a part of the enclosing body.
-/

set_option autoImplicit false

namespace Datalog

/-- The pieces of a sequence, one behind the other with a separator between. -/
def separate (separator : List Char) (pieces : List (List Char)) : List Char :=
  separator.intercalate pieces

/-- The body of an aggregate, given the texts of its literals. -/
def Literal.enclose (body : List (Literal Int64 String)) (texts : List (List Char)) :
    List Char :=
  match body with
  | [] => ['\x7b', '\x7d']
  | [.positive _ _] => separate [',', ' '] texts
  | _ => ['\x7b', ' '] ++ separate [',', ' '] texts ++ [' ', '\x7d']

mutual
/-- The text of an argument. -/
def Argument.text : Argument Int64 String → List Char
  | .nil => "nil".toList
  | .number value => Text.decimal value.toInt
  | .string value => Text.quote value.toList
  | .variable name => name.toList
  | .unnamed => ['_']
  | .counter => ['$']
  | .aggregate kind none body =>
      kind.keyword.toList ++ " : ".toList ++ Literal.enclose body (Literal.texts body)
  | .aggregate kind (some target) body =>
      kind.keyword.toList ++ ' ' :: target.text ++ " : ".toList ++
        Literal.enclose body (Literal.texts body)

/-- The texts of a sequence of arguments. -/
def Argument.texts : List (Argument Int64 String) → List (List Char)
  | [] => []
  | argument :: rest => argument.text :: Argument.texts rest

/-- The text of a literal. -/
def Literal.text : Literal Int64 String → List Char
  | .positive name arguments =>
      name.toList ++ '(' :: separate [','] (Argument.texts arguments) ++ [')']
  | .negative name arguments =>
      '!' :: name.toList ++ '(' :: separate [','] (Argument.texts arguments) ++ [')']
  | .comparison operator left right =>
      left.text ++ ' ' :: operator.operator.toList ++ ' ' :: right.text
  | .truth value => (if value then "true" else "false").toList

/-- The texts of the literals of a body. -/
def Literal.texts : List (Literal Int64 String) → List (List Char)
  | [] => []
  | literal :: rest => literal.text :: Literal.texts rest
end

/-- The text of an atom. -/
def Atom.text (atom : Atom Int64 String) : List Char := atom.holds.text

/-- The text of a clause: its head, its body unless it is a fact, and a full stop. -/
def Clause.text (clause : Clause Int64 String) : List Char :=
  if clause.isFact then clause.head.text ++ ['.']
  else clause.head.text ++ " :- ".toList ++ separate [',', ' '] (Literal.texts clause.body) ++ ['.']

theorem Argument.texts_eq_map (arguments : List (Argument Int64 String)) :
    Argument.texts arguments = arguments.map Argument.text := by
  induction arguments with
  | nil => rfl
  | cons argument rest ih => simp [Argument.texts, ih]

theorem Literal.texts_eq_map (body : List (Literal Int64 String)) :
    Literal.texts body = body.map Literal.text := by
  induction body with
  | nil => rfl
  | cons literal rest ih => simp [Literal.texts, ih]

end Datalog
