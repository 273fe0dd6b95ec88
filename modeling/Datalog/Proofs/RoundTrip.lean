import Datalog.Proofs.Acceptance
import Datalog.Proofs.Printer.Program
import Datalog.Proofs.Tree.Equality

/-!
# Printing and reading back

A well-formed program is not changed by being written down and read back.  The
text is read without any remark, and the program that comes of it has the same
relations in the same order, equals the old one, and has the same text
(`Program.print_round_trip`).

The new program numbers its strings in a table of its own.  Symbols of different
tables are compared by their texts, so it does not matter how the strings of the
old program were numbered, or in how many tables.
-/

set_option autoImplicit false

namespace Datalog

open Grammar

/-- A program that was read back from the text of another one: read without a
remark, with the same relations in the same order, equal to it and of the same text. -/
structure ReadsBackAs (unit : TranslationUnit) (program : Program) : Prop where
  unremarked : unit.report.diagnostics = []
  relations : unit.program.relations = program.relations
  equal : (unit.program == program) = true
  equal' : (program == unit.program) = true
  print : unit.program.print = program.print

/-- The text of a program depends on its relations and its contents alone. -/
theorem Program.print_eq_of_same {left right : Program}
    (relations : left.relations = right.relations)
    (contents : left.clauseList.map Clause.content = right.clauseList.map Clause.content) :
    left.print = right.print := by
  have clauses := congrArg (List.map Clause.text) contents
  simp only [List.map_map] at clauses
  rw [Program.print, Program.print, Program.text, Program.text, Program.lines, Program.lines,
    relations]
  exact congrArg (fun lines => String.ofList (List.flatMap (fun line => line ++ ['\n'])
    ((Declaration.ofRelations right.relations).map Declaration.text ++ lines))) clauses

/-- What states a program is read as that program. -/
theorem States.unitOf {text : List Char} {relations : List Relation}
    {contents : List (Clause Int64 String)} (states : States text relations contents)
    (distinct : (relations.map Relation.name).Nodup) (preferences : Preferences)
    (symbols : SymbolTable) :
    (preferences.unitOf text symbols).report.diagnostics = [] ∧
      (preferences.unitOf text symbols).Holds symbols.key relations contents := by
  obtain ⟨trees, derives, range, rfl, rfl⟩ := states
  have held := Segment.all_of_derives derives
  constructor
  · have same : (preferences.unitOf text symbols).report = { quiet := preferences.quiet } :=
      TranslationUnit.ofText_report_of_clean (by rw [held, List.map_map]; rfl) distinct range _ _ _
    rw [same]
  · have holds := preferences.unitOf_holds text symbols
    rwa [Segment.statements_of_derives derives, denotedRelations,
      Relation.foldl_enter (by simpa using distinct), List.nil_append] at holds

/-- The text of a well-formed program is read as the program, whatever table it is
read with. -/
theorem Program.unitOf_print {program : Program} (wellFormed : program.wellFormed = true)
    (preferences : Preferences) (symbols : SymbolTable) :
    (preferences.unitOf program.print.toList symbols).report.diagnostics = [] ∧
      (preferences.unitOf program.print.toList symbols).Holds symbols.key program.relations
        (program.clauseList.map Clause.content) := by
  have written : program.print.toList = program.text := String.toList_ofList
  rw [written]
  exact (Program.states_text wellFormed).unitOf program.distinct preferences symbols

/-- A unit that holds what a program holds has read it back, if its table is none of those
that number the program's strings. -/
theorem ReadsBackAs.of_holds {unit : TranslationUnit} {program : Program} {table : Nat}
    (unremarked : unit.report.diagnostics = [])
    (holds : unit.Holds table program.relations (program.clauseList.map Clause.content))
    (new : ∀ clause ∈ program.clauseList, ∀ symbol,
      .inr symbol ∈ clause.constants → symbol.table ≠ table) : ReadsBackAs unit program := by
  refine ⟨unremarked, holds.relations, ?_, ?_, ?_⟩
  · refine Program.beq_of_same holds.relations holds.contents ?_
    intro clause member clause' member' symbol symbol' listed listed'
    refine Symbol.beq_iff_of_table_ne ?_
    rw [holds.owned clause member symbol listed]
    exact (new clause' member' symbol' listed').symm
  · refine Program.beq_of_same holds.relations.symm holds.contents.symm ?_
    intro clause member clause' member' symbol symbol' listed listed'
    refine Symbol.beq_iff_of_table_ne ?_
    rw [holds.owned clause' member' symbol' listed']
    exact new clause member symbol listed
  · exact Program.print_eq_of_same holds.relations holds.contents

/-- A program whose strings are those of one table is read back with any other table. -/
theorem Program.readsBack_of_owned {program : Program} (wellFormed : program.wellFormed = true)
    {key table : Nat} (owned : ∀ clause ∈ program.clauseList, TranslationUnit.Owned key clause)
    (new : table ≠ key) (preferences : Preferences) :
    ReadsBackAs (preferences.unitOf program.print.toList (.empty table)) program := by
  obtain ⟨unremarked, holds⟩ := Program.unitOf_print wellFormed preferences (.empty table)
  refine .of_holds unremarked holds fun clause member symbol listed => ?_
  rw [owned clause member symbol listed]
  exact new.symm

/-- **A well-formed program is read back from its text.**  The table that the
text is read with is any new one, which has numbered none of the program's strings. -/
theorem Program.print_round_trip (program : Program) (wellFormed : program.wellFormed = true)
    (table : Nat) (new : ∀ clause ∈ program.clauseList, ∀ symbol,
      .inr symbol ∈ clause.constants → symbol.table ≠ table) (preferences : Preferences) :
    ReadsBackAs (preferences.unitOf program.print.toList (.empty table)) program := by
  obtain ⟨unremarked, holds⟩ := Program.unitOf_print wellFormed preferences (.empty table)
  exact .of_holds unremarked holds new

/-- The clause `min("\"") :- -2 <= count : {min("\""), !b(_)}.`, whose strings are
numbered in two tables. -/
def nestedClause : InternedClause where
  head := ⟨"min", [.string ⟨1, 0, "\""⟩]⟩
  body := [.comparison .lessEqual (.number (-2))
    (.aggregate .count none [.positive "min" [.string ⟨2, 5, "\""⟩], .negative "b" [.unnamed]])]

theorem Program.print_round_trip_nested :
    ReadsBackAs
      (({} : Preferences).unitOf (Program.empty.appendClause nestedClause).2.print.toList
        (.empty 0))
      (Program.empty.appendClause nestedClause).2 := by
  refine Program.print_round_trip _ (by decide) 0 ?_ {}
  intro clause member symbol listed
  have known : symbol = ⟨1, 0, "\""⟩ ∨ symbol = ⟨2, 5, "\""⟩ := by
    simpa [List.mem_singleton.mp member, nestedClause, Clause.constants, Argument.constantsAll,
      Argument.constants, Literal.constantsAll, Literal.constants] using listed
  rcases known with rfl | rfl <;> decide

end Datalog
