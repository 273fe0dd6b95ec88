import Datalog.Proofs.Symbol.Issued
import Datalog.Proofs.TranslationUnit.Contents

/-!
# The symbols of a translation unit

Reading a text enters the texts of its statements into the symbol table and does nothing
else to it (`TranslationUnit.ofText_symbols`), and every symbol in the clauses of the unit is
one that the table behind the text resolves (`TranslationUnit.ofText_numbered`).
A single clause is read in the same way (`parseClause_numbered`).
-/

set_option autoImplicit false

namespace Datalog

open Grammar

/-! ## Texts that have been entered -/

/-- Of a clause that is taken every text is entered. -/
theorem mem_entered_of_taken {constants : List (Numeral ⊕ String)} {text : String}
    (taken : rejected? constants = none) (member : .inr text ∈ constants) :
    text ∈ entered constants := by
  induction constants with
  | nil => cases member
  | cons constant rest ih =>
      cases constant with
      | inl numeral =>
          have range := (rejected?_eq_none_iff _).mp taken numeral List.mem_cons_self
          rw [rejected?, if_pos range] at taken
          rw [entered, if_pos range]
          exact ih taken ((List.mem_cons.mp member).resolve_left Sum.inr_ne_inl)
      | inr other =>
          rw [entered, List.mem_cons]
          exact (List.mem_cons.mp member).imp Sum.inr.inj (ih taken)

namespace SymbolTable

theorem mem_insertAll {table : SymbolTable} {texts : List String} {text : String}
    (member : text ∈ texts) : text ∈ (table.insertAll texts).texts := by
  obtain ⟨front, rest, rfl⟩ := List.append_of_mem member
  rw [insertAll_append]
  exact (prefix_insertAll _ rest).subset (mem_insert _ text)

/-- The number of a text is resolved to the text. -/
theorem resolve?_symbolOf {table : SymbolTable} {text : String} (known : text ∈ table.texts) :
    table.resolve? (table.symbolOf text).id = some text := by
  have bound : table.texts.idxOf text < table.texts.length := List.idxOf_lt_length_of_mem known
  rw [resolve?, symbolOf, List.getElem?_eq_getElem bound, List.getElem_idxOf bound]

/-- The symbols among some constants belong to a table, which resolves them. -/
def Numbers (table : SymbolTable) (constants : List (Int64 ⊕ Symbol)) : Prop :=
  ∀ symbol, .inr symbol ∈ constants →
    symbol.table = table.key ∧ table.resolve? symbol.id = some symbol.text

theorem Numbers.insertAll {table : SymbolTable} {constants : List (Int64 ⊕ Symbol)}
    (numbers : table.Numbers constants) (texts : List String) :
    (table.insertAll texts).Numbers constants := by
  intro symbol member
  obtain ⟨own, resolved⟩ := numbers symbol member
  exact ⟨own.trans (key_insertAll table texts).symm,
    resolve?_of_prefix (prefix_insertAll table texts) resolved⟩

end SymbolTable

/-- The clause with the symbols of a table, unless a numeral in it is out of range. -/
def Clause.interned (spelled : SpelledClause) (table : SymbolTable) : List InternedClause :=
  if spelled.inRange then [spelled.map Numeral.machine table.symbolOf] else []

/-- A table that has entered the texts of a clause resolves its symbols. -/
theorem Clause.numbers_interned {spelled : SpelledClause} {table : SymbolTable}
    {clause : InternedClause}
    (member : clause ∈ spelled.interned (table.insertAll (entered spelled.constants))) :
    (table.insertAll (entered spelled.constants)).Numbers clause.constants := by
  rw [Clause.interned] at member
  split at member
  next range =>
    have taken : rejected? spelled.constants = none := by simpa [Clause.inRange] using range
    obtain rfl := List.mem_singleton.mp member
    intro symbol listed
    rw [Clause.constants_map, List.mem_map] at listed
    obtain ⟨constant, known, same⟩ := listed
    cases constant with
    | inl numeral => cases same
    | inr text =>
        cases same
        have listed := mem_entered_of_taken taken known
        exact ⟨rfl, SymbolTable.resolve?_symbolOf (SymbolTable.mem_insertAll listed)⟩
  next => cases member

/-! ## Units -/

/-- The texts that a statement enters into a table. -/
def Grammar.Statement.texts : Statement → List String
  | .declaration _ => []
  | .clause spelled => entered spelled.constants

namespace TranslationUnit

/-- Taking in a clause enters its texts, up to a numeral that is out of range. -/
theorem addClause_symbols (code : List Char) (spelled : SpelledClause) (unit : TranslationUnit) :
    (unit.addClause code spelled).symbols = unit.symbols.insertAll (entered spelled.constants) := by
  cases stopped : rejected? spelled.constants with
  | none =>
      rw [addClause, spelled.interns.answers unit.symbols stopped]
      rfl
  | some numeral =>
      rw [addClause, spelled.interns.rejects unit.symbols numeral stopped]
      rfl

/-- Taking in a clause appends it with the symbols of the table behind it. -/
theorem addClause_clauseList (code : List Char) (spelled : SpelledClause)
    (unit : TranslationUnit) :
    (unit.addClause code spelled).program.clauseList =
      unit.program.clauseList ++
        spelled.interned (unit.symbols.insertAll (entered spelled.constants)) := by
  cases stopped : rejected? spelled.constants with
  | none =>
      rw [addClause, spelled.interns.answers unit.symbols stopped, Clause.interned, Clause.inRange,
        stopped, Option.isNone_none, if_pos rfl]
      exact Program.clauseList_appendClause _ _
  | some numeral =>
      rw [addClause, spelled.interns.rejects unit.symbols numeral stopped, Clause.interned,
        Clause.inRange, stopped]
      exact (List.append_nil _).symm

/-- Taking in a segment enters the texts of its statement. -/
theorem add_symbols (code : List Char) (unit : TranslationUnit) (segment : Segment) :
    (unit.add code segment).symbols =
      unit.symbols.insertAll (segment.statement?.toList.flatMap Statement.texts) := by
  obtain ⟨begins, ends, reading⟩ := segment
  cases reading with
  | malformed fault => rfl
  | statement start stated =>
      cases stated with
      | declaration declared =>
          exact (declareAll_holds (.ofPlace code start) [] declared.relations unit (by simp)).2.2
      | clause spelled =>
          refine (addClause_symbols code spelled unit).trans ?_
          exact congrArg unit.symbols.insertAll (List.append_nil _).symm

theorem foldl_add_symbols (code : List Char) (unit : TranslationUnit) (segments : List Segment) :
    (segments.foldl (add code) unit).symbols =
      unit.symbols.insertAll
        ((segments.filterMap Segment.statement?).flatMap Statement.texts) := by
  induction segments generalizing unit with
  | nil => rfl
  | cons segment rest ih =>
      rw [List.foldl_cons, ih, add_symbols, ← SymbolTable.insertAll_append, List.filterMap_cons]
      cases segment.statement? <;> simp

/-- **Reading a text enters the texts of its statements**, one statement after the other. -/
theorem ofText_symbols (code : List Char) (symbols : SymbolTable) (report : ErrorReport)
    (debug : DebugReport) :
    (ofText code symbols report debug).symbols =
      symbols.insertAll ((Segment.statements code).flatMap Statement.texts) :=
  foldl_add_symbols code { symbols, report, debug } (Segment.all code)

/-- The table of a unit resolves the symbols of all its clauses. -/
def Numbered (unit : TranslationUnit) : Prop :=
  ∀ clause ∈ unit.program.clauseList, unit.symbols.Numbers clause.constants

/-- Taking in a segment numbers what it takes in. -/
theorem Numbered.take {unit : TranslationUnit} (numbered : unit.Numbered) (code : List Char)
    (segment : Segment) : (unit.add code segment).Numbered := by
  obtain ⟨begins, ends, reading⟩ := segment
  cases reading with
  | malformed fault => exact numbered
  | statement start stated =>
      intro clause member
      cases stated with
      | declaration declared =>
          obtain ⟨-, clauses, symbols⟩ :=
            declareAll_holds (.ofPlace code start) [] declared.relations unit (by simp)
          rw [add, Program.clauseList, clauses] at member
          rw [add, symbols]
          exact numbered clause member
      | clause spelled =>
          rw [add, addClause_clauseList, List.mem_append] at member
          rw [add, addClause_symbols]
          rcases member with member | member
          · exact (numbered clause member).insertAll _
          · exact Clause.numbers_interned member

theorem Numbered.takeAll {unit : TranslationUnit} (numbered : unit.Numbered) (code : List Char)
    (segments : List Segment) : (segments.foldl (add code) unit).Numbered := by
  induction segments generalizing unit with
  | nil => exact numbered
  | cons segment rest ih => exact ih (numbered.take code segment)

/-- **The table behind a text resolves every symbol in its program.** -/
theorem ofText_numbered (code : List Char) (symbols : SymbolTable) (report : ErrorReport)
    (debug : DebugReport) : (ofText code symbols report debug).Numbered := by
  have start : Numbered { symbols := symbols, report := report, debug := debug } := by
    intro clause member
    cases member
  exact start.takeAll code (Segment.all code)

end TranslationUnit

/-- Reading a single clause enters texts into the table and answers a clause whose
symbols the table resolves. -/
theorem parseClause_numbered (code : List Char) (table : SymbolTable) :
    (∃ texts, (parseClause code table).2 = table.insertAll texts) ∧
      ∀ clause, (parseClause code table).1 = .ok clause →
        (parseClause code table).2.Numbers clause.constants := by
  unfold parseClause
  cases Grammar.singleClause.parse code with
  | error fault => exact ⟨⟨[], rfl⟩, by simp⟩
  | ok read =>
      obtain ⟨spelled, rest⟩ := read
      dsimp only
      cases stopped : rejected? spelled.constants with
      | some numeral =>
          rw [spelled.interns.rejects table numeral stopped]
          exact ⟨⟨_, rfl⟩, fun clause answered => by cases answered⟩
      | none =>
          rw [spelled.interns.answers table stopped]
          refine ⟨⟨_, rfl⟩, fun clause answered => ?_⟩
          cases answered
          refine Clause.numbers_interned ?_
          rw [Clause.interned, Clause.inRange, stopped, Option.isNone_none, if_pos rfl]
          exact List.mem_singleton_self _

end Datalog
