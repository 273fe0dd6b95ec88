import Datalog.Program.Basic

/-!
# Equality of programs

Two programs are equal when they declare equal relations, in whatever order, and
hold equal clauses in the same order.  Handles have no part in it.
-/

set_option autoImplicit false

namespace Datalog

/-- The relations are compared as a set of named entries.  It is enough to look
up the names of one program in the other one, because neither program has two
relations of one name and both have equally many. -/
instance : BEq Program :=
  ⟨fun left right =>
    left.relations.length == right.relations.length &&
      (left.relations.all fun relation => right.relation? relation.name == some relation) &&
      left.clauseList == right.clauseList⟩

end Datalog
