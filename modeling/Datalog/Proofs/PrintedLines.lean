import Datalog.Proofs.Printer.Lines
import Datalog.Proofs.Program.Operations
import Datalog.Proofs.RoundTrip

/-!
# A program line by line

A program is printed one statement to a line, and a line says by itself what it says in
its place (`Program.printed_line_by_line`).  For a clause this is so because the full stop
ends it.  A declaration without a word for a representation has no such end, and another
one could go on behind it; but what is printed in the next line is never a word for a
representation, even where it is spelled like one, and by itself a line has nothing
behind it.
-/

set_option autoImplicit false

namespace Datalog

open Grammar (beginsInName Layout)

/-! ## Lines by themselves -/

/-- A text that was read without a remark, as the given relations and clauses. -/
structure TranslationUnit.Reads (unit : TranslationUnit) (relations : List Relation)
    (clauses : List InternedClause) : Prop where
  unremarked : unit.report.diagnostics = []
  relations : unit.program.relations = relations
  clauses : (unit.program.clauseList == clauses) = true

/-- A text is read as what it states, if its strings are numbered in a new table. -/
theorem States.reads {text : List Char} {relations : List Relation} {clauses : List InternedClause}
    (states : States text relations (clauses.map Clause.content))
    (distinct : (relations.map Relation.name).Nodup) {table : Nat}
    (new : ∀ clause ∈ clauses, ∀ symbol, .inr symbol ∈ clause.constants → symbol.table ≠ table)
    (preferences : Preferences) :
    (preferences.unitOf text (.empty table)).Reads relations clauses := by
  obtain ⟨unremarked, holds⟩ := states.unitOf distinct preferences (.empty table)
  refine ⟨unremarked, holds.relations, (clauses_beq_iff_content ?_).mpr holds.contents⟩
  intro clause member clause' member' symbol symbol' listed listed'
  refine Symbol.beq_iff_of_table_ne ?_
  rw [holds.owned clause member symbol listed]
  exact (new clause' member' symbol' listed').symm

/-- The end of a line, with or without a line feed. -/
theorem layout_of_ending {ending : List Char} (ends : ending ∈ [[], ['\n']]) :
    Layout ending [] ∧ beginsInName ending = false := by
  simp only [List.mem_cons, List.not_mem_nil, or_false] at ends
  rcases ends with rfl | rfl
  · exact ⟨.nothing _, rfl⟩
  · exact ⟨layout_feed [], rfl⟩

/-- The line of a declaration by itself. -/
theorem Declaration.reads_text {declaration : Declaration} (wellFormed : declaration.WellFormed)
    (distinct : (declaration.relations.map Relation.name).Nodup) {ending : List Char}
    (ends : ending ∈ [[], ['\n']]) (table : Nat) (preferences : Preferences) :
    (preferences.unitOf (declaration.text ++ ending) (.empty table)).Reads
      declaration.relations [] := by
  obtain ⟨blank, free⟩ := layout_of_ending ends
  have states : States (declaration.text ++ ending) declaration.relations
      (List.map Clause.content []) := by
    simpa using states_nil.declaration blank free wellFormed
  exact states.reads distinct (fun clause member => by cases member) preferences

/-- The line of a clause by itself. -/
theorem Clause.reads_print {clause : InternedClause} (wellFormed : clause.wellFormed = true)
    {ending : List Char} (ends : ending ∈ [[], ['\n']]) {table : Nat}
    (new : ∀ symbol, .inr symbol ∈ clause.constants → symbol.table ≠ table)
    (preferences : Preferences) :
    (preferences.unitOf (clause.print.toList ++ ending) (.empty table)).Reads [] [clause] := by
  have content : clause.content.wellFormed = true := by
    rwa [Clause.content, Clause.wellFormed_map]
  have states : States (clause.content.text ++ ending) [] ([clause].map Clause.content) :=
    states_nil.clause (layout_of_ending ends).1 content
  rw [Clause.print, String.toList_ofList]
  refine states.reads List.nodup_nil ?_ preferences
  intro held member
  rw [List.mem_singleton.mp member]
  exact new

/-- **A program is printed line by line, in as few declarations as its order allows.**
The declarations group the relations in order, and no two neighbours could be one.  Each
line is ended by its only line feed, and by itself it is read without a remark as the
relations of its declaration or as its clause. -/
theorem Program.printed_line_by_line (program : Program) (wellFormed : program.wellFormed = true)
    (table : Nat) (new : ∀ clause ∈ program.clauseList, ∀ symbol,
      .inr symbol ∈ clause.constants → symbol.table ≠ table) (preferences : Preferences) :
    ∃ declarations : List Declaration,
      Declaration.Groups declarations program.relations ∧
      program.relations.splitBy Relation.alike = declarations.map Declaration.relations ∧
      program.print.toList = ((declarations.map Declaration.text ++
        program.clauseList.map fun clause => clause.print.toList).flatMap
          fun line => line ++ ['\n']) ∧
      (∀ declaration ∈ declarations, '\n' ∉ declaration.text ∧
        ∀ ending ∈ [[], ['\n']],
          (preferences.unitOf (declaration.text ++ ending) (.empty table)).Reads
            declaration.relations []) ∧
      ∀ clause ∈ program.clauseList, '\n' ∉ clause.print.toList ∧
        ∀ ending ∈ [[], ['\n']],
          (preferences.unitOf (clause.print.toList ++ ending) (.empty table)).Reads
            [] [clause] := by
  rw [Program.wellFormed, Bool.and_eq_true, List.all_eq_true, List.all_eq_true] at wellFormed
  have groups := Declaration.groups_ofRelations program.relations
  refine ⟨_, groups, groups.splitBy_eq, ?_, fun declaration member => ?_, fun clause member => ?_⟩
  · rw [Program.print, String.toList_ofList, Program.text, Program.lines]
    simp only [Clause.print, String.toList_ofList]
  · have declared := Declaration.wellFormed_of_mem_ofRelations wellFormed.1 declaration member
    have inside : declaration.relations.Sublist program.relations := by
      rw [← groups.partition, List.flatMap_def]
      exact List.sublist_flatten_of_mem (List.mem_map_of_mem member)
    exact ⟨Declaration.feed_not_mem_text declared, fun ending ends =>
      Declaration.reads_text declared (program.distinct.sublist (inside.map _)) ends table
        preferences⟩
  · have content : clause.content.wellFormed = true := by
      rw [Clause.content, Clause.wellFormed_map]
      exact wellFormed.2 clause member
    refine ⟨?_, fun ending ends =>
      Clause.reads_print (wellFormed.2 clause member) ends (new clause member) preferences⟩
    rw [Clause.print, String.toList_ofList]
    exact Clause.feed_not_mem_text content

/-- Two relations that are alike, another one whose name is a word for a representation,
and a fact about a text with a line feed in it. -/
def threeLines : Program :=
  (Program.empty.performAll
    [.appendRelation ⟨"A", [⟨"x", "symbol"⟩], .default⟩,
      .appendRelation ⟨"B", [⟨"x", "symbol"⟩], .default⟩,
      .appendRelation ⟨"btree", [], .default⟩,
      .appendClause ⟨⟨"A", [.string ⟨1, 0, "\n"⟩]⟩, []⟩]).2

theorem printed_line_by_line_three :
    threeLines.print = ".decl A,B(x:symbol)\n.decl btree()\nA(\"\\n\").\n" ∧
      ∃ declarations : List Declaration,
        Declaration.Groups declarations threeLines.relations ∧
        (∀ declaration ∈ declarations, '\n' ∉ declaration.text ∧
          ∀ ending ∈ [[], ['\n']],
            (({} : Preferences).unitOf (declaration.text ++ ending) (.empty 0)).Reads
              declaration.relations []) ∧
        ∀ clause ∈ threeLines.clauseList, '\n' ∉ clause.print.toList ∧
          ∀ ending ∈ [[], ['\n']],
            (({} : Preferences).unitOf (clause.print.toList ++ ending) (.empty 0)).Reads
              [] [clause] := by
  have new : ∀ clause ∈ threeLines.clauseList, ∀ symbol,
      .inr symbol ∈ clause.constants → symbol.table ≠ 0 := by
    intro clause member symbol listed
    have known : symbol = ⟨1, 0, "\n"⟩ := by
      simpa [List.mem_singleton.mp member, Clause.constants, Argument.constantsAll,
        Argument.constants, Literal.constantsAll] using listed
    rw [known]
    decide
  obtain ⟨declarations, groups, -, -, declared, stated⟩ :=
    Program.printed_line_by_line threeLines (by decide +kernel) 0 new {}
  exact ⟨by decide +kernel, declarations, groups, declared, stated⟩

end Datalog
