import Datalog.Proofs.Printer.Program
import Datalog.Proofs.Program.Congruence

/-!
# Equality as it is printed

A text states relations and clauses in one way only (`States.unique`), because its
derivation is unique.  So well-formed clauses with the same text have the same content,
and well-formed relations with the same text are the same (`Clause.text_inj`,
`Relation.text_inj`).  The other way round a text depends on nothing but the content: it
does not show in which table a string was numbered, or when.

Equality can therefore be read off what is printed, in every workspace that can be
reached (`Workspace.Reachable.equality_is_printed`).  Of two programs the texts of the
clauses are compared in order and the texts of the relations as sets: a program as a whole
may be printed in several ways, since it equals the programs that declare its relations in
another order.
-/

set_option autoImplicit false

namespace Datalog

open Grammar
open Program (stringClause)

/-! ## Texts tell contents apart -/

/-- **A text states one program at most.** -/
theorem States.unique {text : List Char} {relations relations' : List Relation}
    {contents contents' : List (Clause Int64 String)} (states : States text relations contents)
    (states' : States text relations' contents') :
    relations = relations' ∧ contents = contents' := by
  obtain ⟨trees, derives, -, rfl, rfl⟩ := states
  obtain ⟨trees', derives', -, rfl, rfl⟩ := states'
  obtain rfl := derives.unique derives'
  exact ⟨rfl, rfl⟩

/-- **Well-formed clauses with the same text are the same.** -/
theorem Clause.text_inj {clause clause' : Clause Int64 String}
    (wellFormed : clause.wellFormed = true) (wellFormed' : clause'.wellFormed = true) :
    clause.text = clause'.text ↔ clause = clause' := by
  refine ⟨fun same => ?_, congrArg Clause.text⟩
  have states := states_nil.clause (.nothing _) wellFormed
  rw [same] at states
  exact List.singleton_inj.mp (states.unique (states_nil.clause (.nothing _) wellFormed')).2

theorem Relation.declaration_wellFormed {relation : Relation}
    (wellFormed : relation.wellFormed = true) :
    Declaration.WellFormed ⟨[relation.name], relation.attributes, relation.representation⟩ := by
  rw [Relation.wellFormed, Bool.and_eq_true, List.all_eq_true] at wellFormed
  refine ⟨List.cons_ne_nil _ _, fun name listed => ?_, wellFormed.2⟩
  rw [List.mem_singleton.mp listed]
  exact wellFormed.1

/-- **Well-formed relations with the same text are the same.** -/
theorem Relation.text_inj {relation relation' : Relation}
    (wellFormed : relation.wellFormed = true) (wellFormed' : relation'.wellFormed = true) :
    relation.text = relation'.text ↔ relation = relation' := by
  refine ⟨fun same => ?_, congrArg Relation.text⟩
  rw [Relation.text, Relation.text] at same
  have states := states_nil.declaration (.nothing _) rfl (declaration_wellFormed wellFormed)
  rw [same] at states
  exact List.singleton_inj.mp
    (states.unique
      (states_nil.declaration (.nothing _) rfl (declaration_wellFormed wellFormed'))).1

/-- Well-formed clauses that are printed alike one by one have the same contents. -/
theorem contents_eq_of_print_eq {clauses clauses' : List InternedClause}
    (wellFormed : ∀ clause ∈ clauses, clause.wellFormed = true)
    (wellFormed' : ∀ clause ∈ clauses', clause.wellFormed = true)
    (same : clauses.map Clause.print = clauses'.map Clause.print) :
    clauses.map Clause.content = clauses'.map Clause.content := by
  have texts := congrArg (List.map String.toList) same
  simp only [List.map_map, Function.comp_def, Clause.print, String.toList_ofList] at texts
  have states := states_clauses wellFormed
  rw [texts] at states
  exact (states.unique (states_clauses wellFormed')).2

/-- What is printed for a clause is told by its content. -/
theorem Clause.print_inj {clause clause' : InternedClause} (wellFormed : clause.wellFormed = true)
    (wellFormed' : clause'.wellFormed = true) :
    clause.print = clause'.print ↔ clause.content = clause'.content := by
  rw [Clause.print, Clause.print, String.ofList_inj]
  refine Clause.text_inj ?_ ?_
  · rwa [Clause.content, Clause.wellFormed_map]
  · rwa [Clause.content, Clause.wellFormed_map]

namespace Program

/-- Well-formed relations are told apart by their texts, also as sets. -/
theorem mem_relations_iff_of_text {left right : Program}
    (wellFormed : ∀ relation ∈ left.relations, relation.wellFormed = true)
    (wellFormed' : ∀ relation ∈ right.relations, relation.wellFormed = true)
    (texts : ∀ text, text ∈ left.relations.map Relation.text ↔
      text ∈ right.relations.map Relation.text) (relation : Relation) :
    relation ∈ left.relations ↔ relation ∈ right.relations := by
  constructor
  · intro member
    obtain ⟨relation', member', same⟩ :=
      List.mem_map.mp ((texts relation.text).mp (List.mem_map_of_mem member))
    rwa [← (Relation.text_inj (wellFormed' _ member') (wellFormed _ member)).mp same]
  · intro member
    obtain ⟨relation', member', same⟩ :=
      List.mem_map.mp ((texts relation.text).mpr (List.mem_map_of_mem member))
    rwa [← (Relation.text_inj (wellFormed _ member') (wellFormed' _ member)).mp same]

/-- **Well-formed programs have the same content exactly if they are printed alike**: the
clauses one by one, and the relations in whatever order. -/
theorem sameContent_iff_printed {left right : Program} (wellFormed : left.wellFormed = true)
    (wellFormed' : right.wellFormed = true) :
    left.SameContent right ↔
      left.clauseList.map Clause.print = right.clauseList.map Clause.print ∧
        ∀ text, text ∈ left.relations.map Relation.text ↔
          text ∈ right.relations.map Relation.text := by
  rw [Program.wellFormed, Bool.and_eq_true, List.all_eq_true, List.all_eq_true]
    at wellFormed wellFormed'
  constructor
  · intro same
    constructor
    · have texts := congrArg (List.map fun content => String.ofList content.text) same.clauses
      rwa [List.map_map, List.map_map] at texts
    · intro text
      simp only [List.mem_map, same.mem_iff]
  · rintro ⟨clauses, texts⟩
    exact .of_mem_iff (mem_relations_iff_of_text wellFormed.1 wellFormed'.1 texts)
      (contents_eq_of_print_eq wellFormed.2 wellFormed'.2 clauses)

end Program

namespace Workspace

variable {workspace : Workspace}

/-- **What is printed shows equality, and nothing else.**  In every workspace that can be
reached, well-formed clauses are equal exactly if their texts are, wherever their strings
have been numbered.  Well-formed programs are equal exactly if the texts of their clauses
are the same in order and the texts of their relations are the same as sets. -/
theorem Reachable.equality_is_printed (reachable : workspace.Reachable) :
    (∀ clause clause' : InternedClause,
      workspace.Knows clause.constants → workspace.Knows clause'.constants →
      clause.wellFormed = true → clause'.wellFormed = true →
        ((clause == clause') = true ↔ clause.print = clause'.print)) ∧
    ∀ left ∈ workspace.programs, ∀ right ∈ workspace.programs,
      left.wellFormed = true → right.wellFormed = true →
        ((left == right) = true ↔
          left.clauseList.map Clause.print = right.clauseList.map Clause.print ∧
            ∀ text, text ∈ left.relations.map Relation.text ↔
              text ∈ right.relations.map Relation.text) := by
  have sound := reachable.sound
  constructor
  · intro clause clause' knows knows' wellFormed wellFormed'
    rw [Clause.print_inj wellFormed wellFormed']
    exact Clause.beq_iff_content (sound.agree knows knows')
  · intro left listed right listed' wellFormed wellFormed'
    rw [sound.program_beq_iff listed listed']
    exact Program.sameContent_iff_printed wellFormed wellFormed'

theorem equality_is_printed_reordered :
    (stringClause ⟨0, 0, "a"⟩).print = (stringClause ⟨1, 1, "a"⟩).print ∧
      (stringClause ⟨0, 0, "a"⟩ == stringClause ⟨1, 0, "b"⟩) = false ∧
      reordered.1.print ≠ reordered.2.print ∧
      reordered.1.clauseList.map Clause.print = reordered.2.clauseList.map Clause.print ∧
        ∀ text, text ∈ reordered.1.relations.map Relation.text ↔
          text ∈ reordered.2.relations.map Relation.text := by
  have knows (symbol : Symbol) (listed : symbol ∈ twoTables.symbols) :
      Knows { twoTables with programs := [reordered.1, reordered.2] }
        (stringClause symbol).constants := by
    simpa [Knows, stringClause, Clause.constants, Argument.constantsAll, Argument.constants,
      Literal.constantsAll] using listed
  obtain ⟨clauses, programs⟩ := Reachable.equality_is_printed reordered_reachable
  have first := knows ⟨0, 0, "a"⟩ (by simp [twoTables])
  have equal := clauses _ _ first (knows ⟨1, 1, "a"⟩ (by simp [twoTables])) rfl rfl
  have other := clauses _ _ first (knows ⟨1, 0, "b"⟩ (by simp [twoTables])) rfl rfl
  refine ⟨equal.mp (by decide +kernel), ?_, by decide +kernel, ?_⟩
  · rw [Bool.eq_false_iff]
    exact mt other.mp (by decide +kernel)
  · exact (programs _ List.mem_cons_self _ (List.mem_cons_of_mem _ List.mem_cons_self)
      (by decide +kernel) (by decide +kernel)).mp (by decide +kernel)

end Workspace

end Datalog
