import Datalog.Proofs.Interning
import Datalog.Proofs.Segment.Statements
import Datalog.TranslationUnit

/-!
# What a translation unit holds

The program of a text is told by the statements among its segments
(`TranslationUnit.ofText_holds`): the relations that they declare, of each name the
first one, and the clauses that they state, unless a numeral is out of range.  The
symbols of these clauses all belong to the table that the text was read with.
-/

set_option autoImplicit false

namespace Datalog

open Grammar

/-! ## What statements denote -/

/-- The relations with another one behind them, unless there is one of its name. -/
def Relation.enter (relations : List Relation) (relation : Relation) : List Relation :=
  if relation.name ∈ relations.map Relation.name then relations else relations ++ [relation]

/-- The relations that a statement declares. -/
def Grammar.Statement.relations : Statement → List Relation
  | .declaration declared => declared.relations
  | .clause _ => []

/-- The clause that a statement states, unless a numeral in it is out of range. -/
def Grammar.Statement.contents : Statement → List (Clause Int64 String)
  | .declaration _ => []
  | .clause spelled => if spelled.inRange then [spelled.denoted] else []

/-- Whether every numeral of a statement denotes a machine integer. -/
def Grammar.Statement.inRange : Statement → Bool
  | .declaration _ => true
  | .clause spelled => spelled.inRange

/-- The relations that statements declare, of each name the first one. -/
def denotedRelations (statements : List Statement) : List Relation :=
  (statements.flatMap Statement.relations).foldl Relation.enter []

/-- The clauses that statements state, without those that have a numeral out of range. -/
def denotedClauses (statements : List Statement) : List (Clause Int64 String) :=
  statements.flatMap Statement.contents

/-- Relations with new names are all entered. -/
theorem Relation.foldl_enter {relations more : List Relation}
    (distinct : ((relations ++ more).map Relation.name).Nodup) :
    more.foldl Relation.enter relations = relations ++ more := by
  induction more generalizing relations with
  | nil => rw [List.foldl_nil, List.append_nil]
  | cons relation more ih =>
      have absent : relation.name ∉ relations.map Relation.name := by
        intro member
        rw [List.map_append, List.nodup_append] at distinct
        exact distinct.2.2 _ member _ (by simp) rfl
      rw [List.foldl_cons, Relation.enter, if_neg absent, ih (by simpa using distinct)]
      simp

/-- What has been entered was there before or is one of those that are entered. -/
theorem Relation.mem_of_mem_foldl_enter {relations more : List Relation} {relation : Relation}
    (member : relation ∈ more.foldl Relation.enter relations) :
    relation ∈ relations ∨ relation ∈ more := by
  induction more generalizing relations with
  | nil => exact .inl member
  | cons first rest ih =>
      rcases ih member with entered | member
      · rw [Relation.enter] at entered
        split at entered
        · exact .inl entered
        · rcases List.mem_append.mp entered with known | new
          · exact .inl known
          · exact .inr (List.mem_cons.mpr (.inl (List.mem_singleton.mp new)))
      · exact .inr (List.mem_cons_of_mem _ member)

theorem Declaration.names_relations (declaration : Declaration) :
    declaration.relations.map Relation.name = declaration.names := by
  rw [relations, List.map_map]
  exact List.map_id _

/-! ## Programs that grow -/

theorem Program.appendRelation_of_absent {program : Program} {relation : Relation}
    (absent : relation.name ∉ program.relations.map Relation.name) :
    ∃ grown, program.appendRelation relation = .ok grown ∧
      grown.relations = program.relations ++ [relation] ∧ grown.clauses = program.clauses := by
  have none := (program.relation?_eq_none_iff relation.name).mpr absent
  rw [Program.appendRelation, dif_pos none]
  exact ⟨_, rfl, rfl, rfl⟩

theorem Program.appendRelation_of_present {program : Program} {relation : Relation}
    (present : relation.name ∈ program.relations.map Relation.name) :
    program.appendRelation relation = .error (.duplicateRelation relation.name) := by
  rw [Program.appendRelation, dif_neg]
  exact fun none => (program.relation?_eq_none_iff relation.name).mp none present

theorem Program.clauseList_appendClause (program : Program) (clause : InternedClause) :
    (program.appendClause clause).2.clauseList = program.clauseList ++ [clause] := by
  simp [Program.appendClause, Program.clauseList]

namespace TranslationUnit

/-! ## Declarations -/

theorem declare_of_absent (location : Location) {unit : TranslationUnit} {relation : Relation}
    (absent : relation.name ∉ unit.program.relations.map Relation.name) :
    (unit.declare location relation).program.relations = unit.program.relations ++ [relation] ∧
      (unit.declare location relation).program.clauses = unit.program.clauses ∧
      (unit.declare location relation).symbols = unit.symbols ∧
      (unit.declare location relation).report = unit.report := by
  obtain ⟨grown, appended, relations, clauses⟩ := Program.appendRelation_of_absent absent
  rw [declare, appended]
  exact ⟨relations, clauses, rfl, rfl⟩

theorem declare_of_present (location : Location) {unit : TranslationUnit} {relation : Relation}
    (present : relation.name ∈ unit.program.relations.map Relation.name) :
    unit.declare location relation =
      (unit.addError (ProgramError.duplicateRelation relation.name).message (some location)).note
        [.relationRejected relation.name] := by
  rw [declare, Program.appendRelation_of_present present]

/-- Declaring a relation enters it, and changes nothing else of what a unit holds. -/
theorem declare_holds (location : Location) (unit : TranslationUnit) (relation : Relation) :
    (unit.declare location relation).program.relations =
        Relation.enter unit.program.relations relation ∧
      (unit.declare location relation).program.clauses = unit.program.clauses ∧
      (unit.declare location relation).symbols = unit.symbols := by
  by_cases present : relation.name ∈ unit.program.relations.map Relation.name
  · rw [declare_of_present location present, Relation.enter, if_pos present]
    exact ⟨rfl, rfl, rfl⟩
  · obtain ⟨relations, clauses, symbols, -⟩ := declare_of_absent location present
    rw [Relation.enter, if_neg present]
    exact ⟨relations, clauses, symbols⟩

theorem mem_names_enter {relations : List Relation} {name : String} (relation : Relation)
    (known : name ∈ relations.map Relation.name ∨ name = relation.name) :
    name ∈ (Relation.enter relations relation).map Relation.name := by
  rw [Relation.enter]
  split
  next present => exact known.elim id fun same => same ▸ present
  next => simpa using known.imp_left List.mem_map.mp

/-- **Declaring relations enters them one by one.**  A name that is listed again is
entered already. -/
theorem declareAll_holds (location : Location) (listed : List String) (relations : List Relation)
    (unit : TranslationUnit)
    (known : ∀ name ∈ listed, name ∈ unit.program.relations.map Relation.name) :
    (declareAll location listed relations unit).program.relations =
        relations.foldl Relation.enter unit.program.relations ∧
      (declareAll location listed relations unit).program.clauses = unit.program.clauses ∧
      (declareAll location listed relations unit).symbols = unit.symbols := by
  induction relations generalizing listed unit with
  | nil => exact ⟨rfl, rfl, rfl⟩
  | cons relation rest ih =>
      rw [declareAll, List.foldl_cons]
      split
      next again =>
        rw [Relation.enter, if_pos (known _ again)]
        exact ih listed (unit.addWarning _ _) known
      next =>
        obtain ⟨relations, clauses, symbols⟩ := declare_holds location unit relation
        rw [← relations, ← clauses, ← symbols]
        refine ih (relation.name :: listed) (unit.declare location relation) ?_
        intro name member
        rw [relations]
        refine mem_names_enter relation ?_
        exact (List.mem_cons.mp member).symm.imp_left (known name)

/-! ## Clauses -/

/-- The symbols of a clause all belong to the table with the given key. -/
def Owned (key : Nat) (clause : InternedClause) : Prop :=
  ∀ symbol, .inr symbol ∈ clause.constants → symbol.table = key

theorem addClause_of_inRange (code : List Char) {spelled : SpelledClause}
    (range : spelled.inRange = true) (unit : TranslationUnit) :
    ∃ clause, clause.content = spelled.denoted ∧ Owned unit.symbols.key clause ∧
      (unit.addClause code spelled).program.relations = unit.program.relations ∧
      (unit.addClause code spelled).program.clauseList = unit.program.clauseList ++ [clause] ∧
      (unit.addClause code spelled).symbols.key = unit.symbols.key ∧
      (unit.addClause code spelled).report = unit.report := by
  obtain ⟨clause, final, run, content, key, owned⟩ := Clause.intern_of_inRange range unit.symbols
  refine ⟨clause, content, owned, ?_⟩
  rw [addClause, run]
  exact ⟨rfl, Program.clauseList_appendClause _ _, key, rfl⟩

theorem addClause_of_not_inRange (code : List Char) {spelled : SpelledClause}
    (range : spelled.inRange = false) (unit : TranslationUnit) :
    ∃ numeral, (unit.addClause code spelled).program = unit.program ∧
      (unit.addClause code spelled).symbols.key = unit.symbols.key ∧
      (unit.addClause code spelled).report =
        unit.report.addError (ParseError.outOfRange numeral).message
          (some (.ofPlace code numeral.remaining)) := by
  obtain ⟨numeral, final, run, -, key⟩ := Clause.intern_of_not_inRange range unit.symbols
  refine ⟨numeral, ?_⟩
  rw [addClause, run]
  exact ⟨rfl, key, rfl⟩

/-! ## Segments -/

theorem add_relations (code : List Char) (unit : TranslationUnit) (segment : Segment) :
    (unit.add code segment).program.relations =
      (segment.statement?.toList.flatMap Statement.relations).foldl Relation.enter
        unit.program.relations := by
  obtain ⟨begins, ends, reading⟩ := segment
  cases reading with
  | malformed fault => rfl
  | statement start stated =>
      cases stated with
      | declaration declared =>
          obtain ⟨relations, -, -⟩ :=
            declareAll_holds (.ofPlace code start) [] declared.relations unit (by simp)
          exact relations.trans (by simp [Segment.statement?, Statement.relations])
      | clause spelled =>
          cases range : spelled.inRange with
          | true =>
              obtain ⟨clause, -, -, relations, -, -, -⟩ := addClause_of_inRange code range unit
              exact relations
          | false =>
              obtain ⟨numeral, program, -, -⟩ := addClause_of_not_inRange code range unit
              exact congrArg Program.relations program

/-- What a unit holds is told by statements: of each name the first relation, and
the clauses in their order, with symbols of the unit's own table. -/
structure Holds (unit : TranslationUnit) (key : Nat) (relations : List Relation)
    (contents : List (Clause Int64 String)) : Prop where
  numbered : unit.symbols.key = key
  relations : unit.program.relations = relations
  contents : unit.program.clauseList.map Clause.content = contents
  owned : ∀ clause ∈ unit.program.clauseList, Owned key clause

/-- Taking in a segment takes in its statement. -/
theorem Holds.take {unit : TranslationUnit} {key : Nat} {relations : List Relation}
    {contents : List (Clause Int64 String)} (holds : Holds unit key relations contents)
    (code : List Char) (segment : Segment) :
    Holds (unit.add code segment) key
      ((segment.statement?.toList.flatMap Statement.relations).foldl Relation.enter relations)
      (contents ++ segment.statement?.toList.flatMap Statement.contents) := by
  obtain ⟨rfl, rfl, rfl, owned⟩ := holds
  obtain ⟨begins, ends, reading⟩ := segment
  cases reading with
  | malformed fault =>
      exact ⟨rfl, rfl, (List.append_nil _).symm, owned⟩
  | statement start stated =>
      cases stated with
      | declaration declared =>
          obtain ⟨-, clauses, symbols⟩ :=
            declareAll_holds (.ofPlace code start) [] declared.relations unit (by simp)
          refine ⟨congrArg SymbolTable.key symbols, add_relations code unit _, ?_, ?_⟩
          · simp [Segment.statement?, Statement.contents, Program.clauseList, add, clauses]
          · simpa [Program.clauseList, add, clauses] using owned
      | clause spelled =>
          have kept : (Segment.mk begins ends (.statement start (.clause spelled))).statement? =
            some (.clause spelled) := rfl
          rw [kept, Option.toList_some, List.flatMap_singleton, List.flatMap_singleton]
          cases range : spelled.inRange with
          | true =>
              obtain ⟨clause, content, own, -, clauses, key, -⟩ :=
                addClause_of_inRange code range unit
              refine ⟨key, add_relations code unit _, ?_, ?_⟩
              · rw [add, clauses, List.map_append, Statement.contents, if_pos range, ← content]
                rfl
              · intro other member
                rw [add, clauses] at member
                rcases List.mem_append.mp member with member | member
                · exact owned other member
                · obtain rfl := List.mem_singleton.mp member
                  exact own
          | false =>
              obtain ⟨numeral, program, key, -⟩ := addClause_of_not_inRange code range unit
              refine ⟨key, add_relations code unit _, ?_, ?_⟩
              · rw [add, program, Statement.contents, range]
                exact (List.append_nil _).symm
              · rw [add, program]
                exact owned

/-- Taking in segments takes in their statements one by one. -/
theorem Holds.takeAll {unit : TranslationUnit} {key : Nat} {relations : List Relation}
    {contents : List (Clause Int64 String)} (holds : Holds unit key relations contents)
    (code : List Char) (segments : List Segment) :
    Holds (segments.foldl (add code) unit) key
      (((segments.filterMap Segment.statement?).flatMap Statement.relations).foldl Relation.enter
        relations)
      (contents ++ (segments.filterMap Segment.statement?).flatMap Statement.contents) := by
  induction segments generalizing unit relations contents with
  | nil => simpa using holds
  | cons segment rest ih =>
      have further := ih (holds.take code segment)
      rw [← List.foldl_append, ← List.flatMap_append, List.append_assoc, ← List.flatMap_append]
        at further
      rw [List.foldl_cons, List.filterMap_cons]
      cases held : segment.statement? with
      | none => simpa [held] using further
      | some stated => simpa [held] using further

/-- **The program of a text holds what its statements denote.** -/
theorem ofText_holds (code : List Char) (symbols : SymbolTable) (report : ErrorReport)
    (debug : DebugReport) :
    Holds (ofText code symbols report debug) symbols.key
      (denotedRelations (Segment.statements code)) (denotedClauses (Segment.statements code)) := by
  have start : Holds { symbols := symbols, report := report, debug := debug } symbols.key [] [] :=
    ⟨rfl, rfl, rfl, by simp [Program.clauseList, Program.empty]⟩
  obtain ⟨key, relations, contents, owned⟩ := start.takeAll code (Segment.all code)
  exact ⟨key, relations, contents.trans (List.nil_append _), owned⟩

end TranslationUnit

end Datalog
