import Datalog.Tree.Printer

/-!
# Relations

A relation has a name, named and typed attributes and a representation.  A
declaration declares several relations at once, which then share attributes and
representation; the relations of a program are written in declarations that are
as long as possible.
-/

set_option autoImplicit false

namespace Datalog

/-- A column of a relation. -/
structure Attribute where
  name : String
  typeName : String
deriving DecidableEq, Repr, Inhabited

/-- The text of an attribute. -/
def Attribute.text (column : Attribute) : List Char :=
  column.name.toList ++ ':' :: column.typeName.toList

/-- How a relation is to be stored. -/
inductive Representation where
  | default
  | btree
  | brie
  | eqrel
deriving DecidableEq, Repr, Inhabited

namespace Representation

/-- The word that asks for a representation; the default one is never written. -/
def qualifier? : Representation → Option String
  | .default => none
  | .btree => some "btree"
  | .brie => some "brie"
  | .eqrel => some "eqrel"

/-- The representation that a word asks for. -/
def ofQualifier? : String → Option Representation
  | "btree" => some .btree
  | "brie" => some .brie
  | "eqrel" => some .eqrel
  | _ => none

theorem ofQualifier?_eq_some_iff (word : String) (representation : Representation) :
    ofQualifier? word = some representation ↔ representation.qualifier? = some word := by
  constructor
  · intro read
    unfold ofQualifier? at read
    split at read <;> cases read <;> rfl
  · intro written
    cases representation <;> cases written <;> rfl

end Representation

/-- A relation as it is declared. -/
structure Relation where
  name : String
  attributes : List Attribute := []
  representation : Representation := .default
deriving DecidableEq, Repr, Inhabited

/-- The number of attributes of a relation. -/
def Relation.arity (relation : Relation) : Nat := relation.attributes.length

/-- Names of relations with the attributes and the representation that they share. -/
structure Declaration where
  names : List String
  attributes : List Attribute := []
  representation : Representation := .default
deriving DecidableEq, Repr, Inhabited

namespace Declaration

/-- The relations that a declaration declares. -/
def relations (declaration : Declaration) : List Relation :=
  declaration.names.map fun name =>
    ⟨name, declaration.attributes, declaration.representation⟩

/-- Whether a relation could be declared along with the others. -/
def fits (relation : Relation) (declaration : Declaration) : Bool :=
  relation.attributes == declaration.attributes &&
    relation.representation == declaration.representation

/-- The shortest sequence of declarations that declares the given relations in
the given order. -/
def ofRelations : List Relation → List Declaration
  | [] => []
  | relation :: rest =>
    match ofRelations rest with
    | declaration :: others =>
      if fits relation declaration then
        { declaration with names := relation.name :: declaration.names } :: others
      else
        ⟨[relation.name], relation.attributes, relation.representation⟩ :: declaration :: others
    | [] => [⟨[relation.name], relation.attributes, relation.representation⟩]

/-- The text of a declaration. -/
def text (declaration : Declaration) : List Char :=
  ".decl ".toList ++ separate [','] (declaration.names.map String.toList) ++
    '(' :: separate [','] (declaration.attributes.map Attribute.text) ++ [')'] ++
    match declaration.representation.qualifier? with
    | none => []
    | some qualifier => ' ' :: qualifier.toList

/-- Writing relations as declarations loses none of them. -/
theorem flatMap_relations_ofRelations (relations : List Relation) :
    (ofRelations relations).flatMap Declaration.relations = relations := by
  induction relations with
  | nil => rfl
  | cons relation rest ih =>
    unfold ofRelations
    split
    next declaration others written =>
      rw [written] at ih
      split
      next shared =>
        simp only [fits, Bool.and_eq_true, beq_iff_eq] at shared
        simp only [List.flatMap_cons, Declaration.relations, List.map_cons] at ih ⊢
        rw [List.cons_append, ih, ← shared.1, ← shared.2]
      next => simpa [Declaration.relations] using ih
    next written =>
      rw [written] at ih
      simp [Declaration.relations, ← ih]

end Declaration

/-- A relation as a declaration of its own. -/
def Relation.text (relation : Relation) : List Char :=
  Declaration.text ⟨[relation.name], relation.attributes, relation.representation⟩

end Datalog
