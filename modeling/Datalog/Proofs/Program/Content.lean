import Datalog.Proofs.Symbol.Issued
import Mathlib.Data.List.Nodup
import Mathlib.Data.List.Perm.Basic

/-!
# Programs with the same content

Two programs have the same content if they declare the same names, and equal names
alike, and if their clauses are the same in order once every symbol is replaced by
its text.  Equality of programs tests less than that: it counts the relations and
looks the names of one program up in the other.  Since no program has two relations
of one name the two come to the same (`Program.beq_iff_sameContent`).
-/

set_option autoImplicit false

namespace Datalog

/-- What is compared by its content is compared by an equivalence. -/
theorem equivalence_of_beq_iff {α β : Type} [BEq α] {known : α → Prop} {content : α → β}
    (equal : ∀ left right, known left → known right →
      ((left == right) = true ↔ content left = content right)) :
    Equivalence fun left right : {value // known value} => (left.1 == right.1) = true where
  refl value := (equal _ _ value.2 value.2).mpr rfl
  symm {left right} same :=
    (equal _ _ right.2 left.2).mpr ((equal _ _ left.2 right.2).mp same).symm
  trans {left middle right} same same' :=
    (equal _ _ left.2 right.2).mpr
      (((equal _ _ left.2 middle.2).mp same).trans ((equal _ _ middle.2 right.2).mp same'))

namespace Program

/-- Two programs declare the same names, and equal names alike, and their clauses
are the same in order, as texts. -/
structure SameContent (left right : Program) : Prop where
  names : ∀ name,
    name ∈ left.relations.map Relation.name ↔ name ∈ right.relations.map Relation.name
  alike : ∀ relation ∈ left.relations, ∀ relation' ∈ right.relations,
    relation.name = relation'.name →
      relation.attributes = relation'.attributes ∧
        relation.representation = relation'.representation
  clauses : left.clauseList.map Clause.content = right.clauseList.map Clause.content

namespace SameContent

variable {left middle right : Program}

/-- A program declares nothing twice. -/
theorem eq_of_name_eq {relation relation' : Relation} (member : relation ∈ left.relations)
    (member' : relation' ∈ left.relations) (same : relation.name = relation'.name) :
    relation = relation' := by
  have found := relation?_eq_some_of_mem member
  rw [same, relation?_eq_some_of_mem member'] at found
  exact (Option.some.inj found).symm

protected theorem refl (program : Program) : program.SameContent program where
  names _ := Iff.rfl
  alike relation member relation' member' same := by
    rw [eq_of_name_eq member member' same]
    exact ⟨rfl, rfl⟩
  clauses := rfl

protected theorem symm (same : left.SameContent right) : right.SameContent left where
  names name := (same.names name).symm
  alike relation member relation' member' named :=
    (same.alike relation' member' relation member named.symm).imp Eq.symm Eq.symm
  clauses := same.clauses.symm

/-- What a program declares is declared by a program of the same content. -/
theorem mem (same : left.SameContent right) {relation : Relation}
    (member : relation ∈ left.relations) : relation ∈ right.relations := by
  have known := (same.names relation.name).mp (List.mem_map_of_mem member)
  obtain ⟨relation', member', named⟩ := List.mem_map.mp known
  obtain ⟨attributes, representation⟩ := same.alike relation member relation' member' named.symm
  have equal : relation = relation' := by
    cases relation
    cases relation'
    cases named
    cases attributes
    cases representation
    rfl
  exact equal ▸ member'

protected theorem trans (same : left.SameContent middle) (same' : middle.SameContent right) :
    left.SameContent right where
  names name := (same.names name).trans (same'.names name)
  alike relation member relation' member' named :=
    same'.alike relation (same.mem member) relation' member' named
  clauses := same.clauses.trans same'.clauses

end SameContent

/-- Programs that declare the same names declare equally many relations. -/
theorem length_relations_eq {left right : Program}
    (names : ∀ name,
      name ∈ left.relations.map Relation.name ↔ name ∈ right.relations.map Relation.name) :
    left.relations.length = right.relations.length := by
  have counted := ((List.perm_ext_iff_of_nodup left.distinct right.distinct).mpr names).length_eq
  rwa [List.length_map, List.length_map] at counted

/-- **Programs are equal exactly if they have the same content**, wherever their
symbols are equal exactly if their texts are. -/
theorem beq_iff_sameContent {left right : Program}
    (agree : ∀ clause ∈ left.clauseList, ∀ clause' ∈ right.clauseList,
      Agree clause.constants clause'.constants) :
    (left == right) = true ↔ left.SameContent right := by
  change (left.relations.length == right.relations.length &&
    (left.relations.all fun relation => right.relation? relation.name == some relation) &&
    left.clauseList == right.clauseList) = true ↔ _
  rw [Bool.and_eq_true, Bool.and_eq_true, beq_iff_eq, List.all_eq_true,
    clauses_beq_iff_content agree]
  constructor
  · rintro ⟨⟨counted, found⟩, clauses⟩
    have inside : left.relations ⊆ right.relations := by
      intro relation member
      exact List.mem_of_find?_eq_some (beq_iff_eq.mp (found relation member))
    -- An inclusion between lists of one length without repetitions is an equality of sets.
    have permuted : left.relations.Perm right.relations :=
      (List.subperm_of_subset left.distinct.of_map inside).perm_of_length_le
        (Nat.le_of_eq counted.symm)
    refine ⟨fun name => (permuted.map Relation.name).mem_iff, ?_, clauses⟩
    intro relation member relation' member' named
    rw [SameContent.eq_of_name_eq (inside member) member' named]
    exact ⟨rfl, rfl⟩
  · intro same
    refine ⟨⟨length_relations_eq same.names, fun relation member => ?_⟩, same.clauses⟩
    rw [relation?_eq_some_of_mem (same.mem member), beq_iff_eq]

end Program

end Datalog
