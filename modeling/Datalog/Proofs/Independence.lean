import Datalog.Proofs.Preferences
import Datalog.Proofs.RoundTrip
import Datalog.Proofs.TranslationUnit.Literals
import Datalog.Proofs.TranslationUnit.Remarks

/-!
# The history of a symbol table

A text is read with a table that may have seen other texts before.  The numbers in the
unit depend on what the table has seen, but nothing that can be observed of the unit does:
two tables lead to equal programs, which are written alike, and to the same reports
(`TranslationUnit.independent_of_table`).  For symbols are equal exactly if their texts
are, whether the tables are two or one and the same at different times
(`SymbolTable.Numbers.agree`), and everything else is told by the statements of the text.

What the table itself comes to is its history followed by the new string constants of the
text (`TranslationUnit.Enters`).
-/

set_option autoImplicit false

namespace Datalog

open Grammar

/-! ## Symbols of two tables -/

theorem Symbol.beq_comm (left right : Symbol) : (left == right) = (right == left) := by
  change (if left.table = right.table then left.id == right.id else left.text == right.text) =
    if right.table = left.table then right.id == left.id else right.text == left.text
  rw [if_congr (@eq_comm _ left.table right.table) rfl rfl, BEq.comm (a := left.id),
    BEq.comm (a := left.text)]

theorem Agree.symm {constants constants' : List (Int64 ⊕ Symbol)}
    (agree : Agree constants constants') : Agree constants' constants := by
  intro symbol' symbol member' member
  rw [Symbol.beq_comm, agree symbol symbol' member member', eq_comm]

/-- **Symbols are equal exactly if their texts are**, if the tables that resolve them are
different or the second one is the first one at a later time. -/
theorem SymbolTable.Numbers.agree {table table' : SymbolTable}
    {constants constants' : List (Int64 ⊕ Symbol)} (numbers : table.Numbers constants)
    (numbers' : table'.Numbers constants')
    (grown : table.key = table'.key → table.texts <+: table'.texts) :
    Agree constants constants' := by
  intro symbol symbol' member member'
  obtain ⟨own, resolved⟩ := numbers symbol member
  obtain ⟨own', resolved'⟩ := numbers' symbol' member'
  by_cases together : symbol.table = symbol'.table
  · have one : table.key = table'.key := own.symm.trans (together.trans own')
    have later := SymbolTable.resolve?_of_prefix (grown one) resolved
    rw [← SymbolTable.resolve?_inj later resolved']
    exact Symbol.beq_iff_of_table_eq together
  · exact Symbol.beq_iff_of_table_ne together

namespace TranslationUnit

/-- What a text adds to the debug report is its program. -/
theorem ofText_debug (code : List Char) (symbols : SymbolTable) (report : ErrorReport)
    (debug : DebugReport) :
    (ofText code symbols report debug).debug =
      debug.add ⟨"parser", "Parsed program", (ofText code symbols report debug).program.print⟩ :=
  congrArg (fun before : DebugReport => before.add _)
    (foldl_add_debug code { symbols, report, debug } (Segment.all code))

/-- **A unit does not depend on the history of its table.**  The tables are different, or the
second one is what the first one has become behind the first reading, perhaps after more
texts. -/
theorem independent_of_table (code : List Char) (left right : SymbolTable)
    (report : ErrorReport) (debug : DebugReport)
    (later : left.key = right.key →
      (ofText code left report debug).symbols.texts <+: right.texts) :
    let unit := ofText code left report debug
    let unit' := ofText code right report debug
    (unit.program == unit'.program) = true ∧ (unit'.program == unit.program) = true ∧
      unit.program.print = unit'.program.print ∧
      unit.report.diagnostics = unit'.report.diagnostics ∧ unit.debug = unit'.debug ∧
      ∃ trees, Segment.Matches code trees ∧ unit.Enters left trees ∧ unit'.Enters right trees := by
  intro unit unit'
  have holds : unit.Holds left.key _ _ := ofText_holds code left report debug
  have holds' : unit'.Holds right.key _ _ := ofText_holds code right report debug
  have relations := holds.relations.trans holds'.relations.symm
  have contents := holds.contents.trans holds'.contents.symm
  have print := Program.print_eq_of_same relations contents
  have agree : ∀ clause ∈ unit.program.clauseList, ∀ clause' ∈ unit'.program.clauseList,
      Agree clause.constants clause'.constants := by
    intro clause member clause' member'
    refine (ofText_numbered code left report debug clause member).agree
      (ofText_numbered code right report debug clause' member') fun one => ?_
    rw [holds.numbered, holds'.numbered] at one
    refine (later one).trans ?_
    rw [ofText_symbols code right report debug]
    exact right.prefix_insertAll _
  obtain ⟨trees, statements⟩ := Segment.exists_matches code
  refine ⟨Program.beq_of_same relations contents agree, ?_, print, ?_, ?_, trees, statements,
    ofText_enters code statements.spelled left report debug,
    ofText_enters code statements.spelled right report debug⟩
  · exact Program.beq_of_same relations.symm contents.symm fun clause' member' clause member =>
      (agree clause member clause' member').symm
  · exact (ofText_diagnostics code left report debug).trans
      (ofText_diagnostics code right report debug).symm
  · exact (ofText_debug code left report debug).trans
      (print ▸ (ofText_debug code right report debug).symm)

/-- Two tables in which every text has another number.  The first clause is dropped for its
numeral, in front of which stands a string constant. -/
theorem independent_of_table_cut_short :
    let code := "B(\"b\", 9223372036854775808, \"c\"). A(\"a\", \"\\\"\", \"b\"). A(".toList
    let unit := ofText code ((SymbolTable.empty 0).insertAll ["a"]) {} {}
    let unit' := ofText code (.empty 1) {} {}
    (unit.program == unit'.program) = true ∧ unit.program.print = unit'.program.print ∧
      unit.symbols.texts = ["a", "b", "\""] ∧ unit'.symbols.texts = ["b", "a", "\""] := by
  intro code unit unit'
  obtain ⟨equal, -, print, -⟩ := independent_of_table code ((SymbolTable.empty 0).insertAll ["a"])
    (.empty 1) {} {} (by decide)
  exact ⟨equal, print, by decide +kernel, by decide +kernel⟩

/-- Within one key the numbers decide, so two tables must not share their key by chance. -/
example :
    let code := "A(\"a\").".toList
    ((ofText code (.empty 0) {} {}).program ==
      (ofText code ((SymbolTable.empty 0).insertAll ["b"]) {} {}).program) = false := by
  decide +kernel

end TranslationUnit

end Datalog
