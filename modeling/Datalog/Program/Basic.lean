import Datalog.Relation
import Datalog.Symbol.Table
import Datalog.Tree.Constants
import Datalog.Tree.Equality

/-!
# Programs

A program declares relations and holds clauses over them.  Relations are known
by their names, of which no two are equal, and keep the order in which they were
appended.  A clause is known by its handle, a number that the program gives to
it and never gives again, so the order of the handles is the order in which the
clauses were appended.

An operation that finds nothing to do leaves the program as it is.
-/

set_option autoImplicit false

namespace Datalog

/-- A clause whose numbers are machine integers and whose strings are symbols. -/
abbrev InternedClause := Clause Int64 Symbol

/-- An atom whose numbers are machine integers and whose strings are symbols. -/
abbrev InternedAtom := Atom Int64 Symbol

/-- A clause with every symbol replaced by the text that it stands for. -/
def Clause.content (clause : InternedClause) : Clause Int64 String :=
  clause.map id Symbol.text

/-- A clause in its canonical form. -/
def Clause.print (clause : InternedClause) : String :=
  String.ofList clause.content.text

/-- Relations with distinct names, and clauses with the handles they are known
by in increasing order, all of them below the next handle. -/
structure Program where
  relations : List Relation
  clauses : List (Nat × InternedClause)
  nextHandle : Nat
  distinct : (relations.map Relation.name).Nodup
  ascending : (clauses.map Prod.fst).Pairwise (· < ·)
  bounded : ∀ handle ∈ clauses.map Prod.fst, handle < nextHandle

/-- The program that declares nothing, holds no clause and has not given a handle. -/
def Program.empty : Program where
  relations := []
  clauses := []
  nextHandle := 0
  distinct := List.nodup_nil
  ascending := List.Pairwise.nil
  bounded _ member := absurd member List.not_mem_nil

instance : Inhabited Program := ⟨.empty⟩

/-- What a program refuses to do. -/
inductive ProgramError where
  | duplicateRelation (name : String)
deriving DecidableEq, Repr

/-- The wording of a refusal. -/
def ProgramError.message : ProgramError → String
  | .duplicateRelation name => "Redefinition of relation " ++ name

namespace Program

/-! ## Relations -/

/-- The relation with the given name. -/
def relation? (program : Program) (name : String) : Option Relation :=
  program.relations.find? fun relation => relation.name == name

theorem relation?_eq_none_iff (program : Program) (name : String) :
    program.relation? name = none ↔ name ∉ program.relations.map Relation.name := by
  simp only [relation?, List.find?_eq_none, beq_iff_eq, List.mem_map, not_exists, not_and]

/-- Appends a relation, unless there is one of that name. -/
def appendRelation (program : Program) (relation : Relation) : Except ProgramError Program :=
  if absent : program.relation? relation.name = none then
    .ok { program with
      relations := program.relations ++ [relation]
      distinct := by
        rw [List.map_append, List.nodup_append]
        refine ⟨program.distinct, by simp, ?_⟩
        intro name member last single same
        rw [List.map_singleton, List.mem_singleton] at single
        exact (program.relation?_eq_none_iff _).mp absent (single ▸ same ▸ member) }
  else .error (.duplicateRelation relation.name)

/-- Takes the relation with the given name out of the program. -/
def removeRelation (program : Program) (name : String) : Option (Relation × Program) :=
  (program.relation? name).map fun relation =>
    (relation,
      { program with
        relations := program.relations.eraseP fun relation => relation.name == name
        distinct := program.distinct.sublist ((List.eraseP_sublist).map _) })

/-- Takes a relation out and appends it under another name.  The answer tells
whether the other name was free; if it was not, the relation is lost. -/
def renameRelation (program : Program) (name newName : String) : Option (Bool × Program) :=
  (program.removeRelation name).map fun (relation, program) =>
    match program.appendRelation { relation with name := newName } with
    | .ok program => (true, program)
    | .error _ => (false, program)

/-! ## Clauses -/

/-- The handles of the clauses in increasing order. -/
def handles (program : Program) : List Nat := program.clauses.map Prod.fst

/-- The clauses in the order in which they were appended. -/
def clauseList (program : Program) : List InternedClause := program.clauses.map Prod.snd

/-- Appends a clause and gives it the next handle. -/
def appendClause (program : Program) (clause : InternedClause) : Nat × Program :=
  (program.nextHandle,
    { program with
      clauses := program.clauses ++ [(program.nextHandle, clause)]
      nextHandle := program.nextHandle + 1
      ascending := by
        rw [List.map_append, List.pairwise_append]
        refine ⟨program.ascending, by simp, ?_⟩
        intro handle member last single
        rw [List.map_singleton, List.mem_singleton] at single
        exact single ▸ program.bounded handle member
      bounded := by
        intro handle member
        rw [List.map_append, List.mem_append] at member
        rcases member with member | single
        · exact Nat.lt_succ_of_lt (program.bounded handle member)
        · rw [List.map_singleton, List.mem_singleton] at single
          exact single ▸ Nat.lt_succ_self _ })

/-- The clause with the given handle. -/
def clause? (program : Program) (handle : Nat) : Option InternedClause :=
  (program.clauses.find? fun entry => entry.1 == handle).map Prod.snd

/-- The handle of the first clause that equals the given one. -/
def findClause? (program : Program) (clause : InternedClause) : Option Nat :=
  (program.clauses.find? fun entry => entry.2 == clause).map Prod.fst

/-- Takes the clause with the given handle out of the program. -/
def removeHandle (program : Program) (handle : Nat) : Option (InternedClause × Program) :=
  (program.clause? handle).map fun clause =>
    (clause,
      { program with
        clauses := program.clauses.eraseP fun entry => entry.1 == handle
        ascending := program.ascending.sublist ((List.eraseP_sublist).map _)
        bounded := fun handle member =>
          program.bounded handle (((List.eraseP_sublist).map _).subset member) })

/-- Takes the first clause that equals the given one out of the program. -/
def removeClause (program : Program) (clause : InternedClause) :
    Option (InternedClause × Program) := do
  program.removeHandle (← program.findClause? clause)

/-- Takes a clause out and appends it with another head, under a new handle. -/
def replaceHead (program : Program) (handle : Nat) (head : InternedAtom) :
    Option (Nat × Program) :=
  (program.removeHandle handle).map fun (clause, program) =>
    program.appendClause { clause with head := head }

/-- Whether a program has neither relations nor clauses. -/
def isEmpty (program : Program) : Bool :=
  program.relations.isEmpty && program.clauses.isEmpty

end Program

end Datalog
