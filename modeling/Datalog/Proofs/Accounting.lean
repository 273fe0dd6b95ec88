import Datalog.Proofs.Segment.Splitting
import Datalog.Proofs.TranslationUnit.Listing

/-!
# Every statement is accounted for

A text is split into statements and malformed pieces.  What becomes of each of them
can be told from the statements alone: a clause is held unless a numeral in it is out
of range, a name stands for what the first declaration says that lists it, and each
malformed piece, each clause with a numeral out of range, each name that is declared
again and each repetition in a list of names is reported once
(`TranslationUnit.every_statement_accounted`).

Taking in one segment changes the program in one of four ways (`Program.Takes`).
What is refused leaves the program as it is, and of a declaration only the refused
names are left out.
-/

set_option autoImplicit false

namespace Datalog

open Grammar

/-! ## Counting refusals and repetitions -/

/-- Whether a segment holds no statement. -/
def Segment.isMalformed (segment : Segment) : Bool := segment.statement?.isNone

/-- The number of refusals among segments, when some names are known: malformed
segments, clauses with a numeral out of range, and in each declaration the names that
are known or that an earlier one lists. -/
def refusals (known : List String) (segments : List Segment) : Nat :=
  segments.countP Segment.isMalformed +
    (segments.filterMap Segment.statement?).countP (fun stated => !stated.inRange) +
    (redeclarations known (declarations (segments.filterMap Segment.statement?))).length

/-- The number of names that are listed again in one declaration. -/
def repetitions (segments : List Segment) : Nat :=
  ((declarations (segments.filterMap Segment.statement?)).flatMap Declaration.repeated).length

section Counting

variable {segment : Segment} (known : List String) (rest : List Segment)

theorem refusals_malformed (held : segment.statement? = none) :
    refusals known (segment :: rest) = refusals known rest + 1 := by
  have malformed : segment.isMalformed = true := by
    rw [Segment.isMalformed, held, Option.isNone_none]
  rw [refusals, refusals, List.countP_cons_of_pos malformed, List.filterMap_cons_none held]
  omega

theorem refusals_clause {spelled : SpelledClause}
    (held : segment.statement? = some (.clause spelled)) :
    refusals known (segment :: rest) =
      refusals known rest + if spelled.inRange then 0 else 1 := by
  have sound : ¬ segment.isMalformed = true := by simp [Segment.isMalformed, held]
  rw [refusals, refusals, List.countP_cons_of_neg sound, List.filterMap_cons_some held,
    declarations_clause, List.countP_cons, Statement.inRange]
  cases spelled.inRange with
  | true => rfl
  | false =>
      simp only [Bool.not_false, if_true, Bool.false_eq_true, if_false]
      omega

theorem refusals_declaration {declared : Declaration}
    (held : segment.statement? = some (.declaration declared)) :
    refusals known (segment :: rest) =
      refusals (known ++ declared.names) rest + (declared.redeclared known).length := by
  have sound : ¬ segment.isMalformed = true := by simp [Segment.isMalformed, held]
  rw [refusals, refusals, List.countP_cons_of_neg sound, List.filterMap_cons_some held,
    declarations_declaration, redeclarations, List.length_append,
    List.countP_cons_of_neg (by simp [Statement.inRange])]
  omega

theorem refusals_congr {known known' : List String}
    (same : ∀ name, name ∈ known ↔ name ∈ known') (segments : List Segment) :
    refusals known segments = refusals known' segments := by
  rw [refusals, refusals, redeclarations_congr same]

end Counting

namespace Tally

/-- **The errors are the refusals.**  The names that are known are those of the
relations that are held. -/
theorem errors_foldl_take (tally : Tally) (segments : List Segment) :
    ((segments.map Segment.statement?).foldl take tally).errors =
      tally.errors + refusals (tally.relations.map Relation.name) segments := by
  induction segments generalizing tally with
  | nil => rfl
  | cons segment rest ih =>
      rw [List.map_cons, List.foldl_cons, ih]
      cases held : segment.statement? with
      | none =>
          rw [refusals_malformed _ _ held, take]
          simp only
          omega
      | some stated =>
          cases stated with
          | clause spelled =>
              rw [refusals_clause _ _ held, take, state]
              simp only
              omega
          | declaration declared =>
              rw [refusals_declaration _ _ held, take, declare_eq]
              have known (name : String) :
                  name ∈ (declared.relations.foldl Relation.enter tally.relations).map
                    Relation.name ↔ name ∈ tally.relations.map Relation.name ++ declared.names := by
                rw [Relation.mem_names_foldl_enter, declared.names_relations, List.mem_append]
              rw [refusals_congr known]
              simp only
              omega

/-- **The warnings are the repetitions**, unless warnings are dropped. -/
theorem warnings_foldl_take (tally : Tally) (segments : List Segment) :
    ((segments.map Segment.statement?).foldl take tally).warnings =
      tally.warnings + if tally.quiet then 0 else repetitions segments := by
  induction segments generalizing tally with
  | nil =>
      rw [repetitions]
      exact (congrArg (tally.warnings + ·) (ite_self 0)).symm
  | cons segment rest ih =>
      rw [List.map_cons, List.foldl_cons, ih, repetitions, repetitions]
      cases held : segment.statement? with
      | none =>
          rw [List.filterMap_cons_none held]
          rfl
      | some stated =>
          rw [List.filterMap_cons_some held]
          cases stated with
          | clause spelled => rfl
          | declaration declared =>
              rw [take, declare_eq, declarations_declaration, List.flatMap_cons,
                List.length_append]
              simp only
              split <;> omega

end Tally

/-! ## What one segment does to a program -/

/-- What taking in a segment makes of a program. -/
inductive Program.Takes (program : Program) (segment : Segment) (taken : Program) : Prop where
  /-- A malformed segment leaves the program as it is. -/
  | malformed (held : segment.statement? = none) (same : taken = program)
  /-- So does a clause with a numeral out of range. -/
  | refused (spelled : SpelledClause) (held : segment.statement? = some (.clause spelled))
      (range : spelled.inRange = false) (same : taken = program)
  /-- Another clause is appended. -/
  | clause (spelled : SpelledClause) (held : segment.statement? = some (.clause spelled))
      (range : spelled.inRange = true) (clause : InternedClause)
      (content : clause.content = spelled.denoted)
      (appended : taken = (program.appendClause clause).2)
  /-- Of a declaration the new names are declared, each once, and nothing else changes. -/
  | declaration (declared : Declaration)
      (held : segment.statement? = some (.declaration declared))
      (relations : taken.relations = program.relations ++
        (declared.newNames (program.relations.map Relation.name)).map declared.relation)
      (clauses : taken.clauses = program.clauses) (handles : taken.nextHandle = program.nextHandle)

namespace TranslationUnit

theorem declare_nextHandle (location : Location) (unit : TranslationUnit) (relation : Relation) :
    (unit.declare location relation).program.nextHandle = unit.program.nextHandle := by
  rw [declare, Program.appendRelation]
  by_cases absent : unit.program.relation? relation.name = none
  · rw [dif_pos absent]
    rfl
  · rw [dif_neg absent]
    rfl

theorem declareAll_nextHandle (location : Location) (listed : List String)
    (relations : List Relation) (unit : TranslationUnit) :
    (declareAll location listed relations unit).program.nextHandle = unit.program.nextHandle := by
  induction relations generalizing listed unit with
  | nil => rfl
  | cons relation rest ih =>
      rw [declareAll]
      split
      · exact ih _ _
      · exact (ih _ _).trans (declare_nextHandle location unit relation)

/-- **Taking in a segment changes the program in one of four ways.** -/
theorem add_takes (code : List Char) (unit : TranslationUnit) (segment : Segment) :
    unit.program.Takes segment (unit.add code segment).program := by
  obtain ⟨begins, ends, reading⟩ := segment
  cases reading with
  | malformed fault => exact .malformed rfl rfl
  | statement start stated =>
      cases stated with
      | declaration declared =>
          obtain ⟨relations, clauses, -⟩ :=
            declareAll_holds (.ofPlace code start) [] declared.relations unit (by simp)
          rw [Declaration.foldl_enter_relations_of_known] at relations
          exact .declaration declared rfl relations clauses (declareAll_nextHandle _ _ _ _)
      | clause spelled =>
          cases range : spelled.inRange with
          | true =>
              obtain ⟨clause, final, run, content, -, -⟩ :=
                Clause.intern_of_inRange range unit.symbols
              refine .clause spelled rfl range clause content ?_
              simp only [add, addClause, run]
              rfl
          | false =>
              obtain ⟨numeral, program, -, -⟩ := addClause_of_not_inRange code range unit
              exact .refused spelled rfl range program

/-! ## A whole text -/

/-- The unit that has taken in some segments of a text. -/
def through (code : List Char) (symbols : SymbolTable) (report : ErrorReport)
    (debug : DebugReport) (segments : List Segment) : TranslationUnit :=
  segments.foldl (add code) { symbols := symbols, report := report, debug := debug }

/-- How a text is accounted for by the unit that comes of it. -/
structure Accounts (code : List Char) (symbols : SymbolTable) (report : ErrorReport)
    (debug : DebugReport) (unit : TranslationUnit) : Prop where
  /-- There is one way to split the text into statements, malformed pieces and layout. -/
  split : ∀ segments, Segment.Splits code segments ↔ segments = Segment.all code
  /-- The unit has taken in its segments one after the other, and each of them has
  changed the program in its own way only. -/
  steps : unit.program = (through code symbols report debug (Segment.all code)).program ∧
    ∀ front segment behind, Segment.all code = front ++ segment :: behind →
      (through code symbols report debug front).program.Takes segment
        (through code symbols report debug (front ++ [segment])).program
  /-- The clauses are those that are stated without a numeral out of range, in order. -/
  clauses : unit.program.clauseList.map Clause.content = denotedClauses (Segment.statements code)
  /-- A name stands for what the first declaration says that lists it. -/
  firstListed : ∀ name, unit.program.relation? name =
    ((declarations (Segment.statements code)).find? fun declared =>
      decide (name ∈ declared.names)).map fun declared => declared.relation name
  /-- Relations stand in the order in which their names are listed first. -/
  order : unit.program.relations.map Relation.name =
    ((declarations (Segment.statements code)).flatMap Declaration.names).eraseDups
  /-- What has been declared by the first segments is not changed by later ones. -/
  kept : ∀ front behind, Segment.all code = front ++ behind →
    (through code symbols report debug front).program.relations <+: unit.program.relations
  /-- Every refusal is an error. -/
  errors : unit.report.errors = report.errors + refusals [] (Segment.all code)
  /-- Every repetition is a warning, unless warnings are dropped. -/
  warnings : unit.report.warnings =
    report.warnings + if report.quiet then 0 else repetitions (Segment.all code)

/-- Relations that are held stay where they are. -/
theorem relations_prefix (code : List Char) (unit : TranslationUnit) (segments : List Segment) :
    unit.program.relations <+: (segments.foldl (add code) unit).program.relations := by
  induction segments generalizing unit with
  | nil => exact List.prefix_rfl
  | cons segment rest ih =>
      have first : unit.program.relations <+: (unit.add code segment).program.relations := by
        rw [add_relations, Relation.foldl_enter_eq]
        exact List.prefix_append _ _
      exact first.trans (ih (unit.add code segment))

/-- **First declaration wins, and every statement is accounted for once.** -/
theorem every_statement_accounted (code : List Char) (symbols : SymbolTable)
    (report : ErrorReport) (debug : DebugReport) :
    Accounts code symbols report debug (ofText code symbols report debug) := by
  obtain ⟨-, relations, contents, -⟩ := ofText_holds code symbols report debug
  have tally := ofText_tally code symbols report debug
  have errors := congrArg Tally.errors tally
  have warnings := congrArg Tally.warnings tally
  rw [Tally.errors_foldl_take] at errors
  rw [Tally.warnings_foldl_take] at warnings
  rw [denotedRelations, flatMap_relations] at relations
  exact
    { split := fun segments => Segment.splits_iff
      steps := by
        refine ⟨rfl, fun front segment behind _ => ?_⟩
        have step : through code symbols report debug (front ++ [segment]) =
            (through code symbols report debug front).add code segment := List.foldl_append
        rw [step]
        exact add_takes code _ segment
      clauses := contents
      firstListed := by
        intro name
        rw [Program.relation?, relations, Relation.find?_foldl_enter, List.nil_append,
          find?_flatMap_relations]
      order := by
        rw [relations, Relation.map_name_foldl_enter, map_name_flatMap_relations]
      kept := by
        intro front behind split
        have whole : (ofText code symbols report debug).program =
            (behind.foldl (add code) (through code symbols report debug front)).program := by
          rw [through, ← List.foldl_append, ← split]
          rfl
        rw [whole]
        exact relations_prefix code _ behind
      errors := errors
      warnings := warnings }

end TranslationUnit

end Datalog
