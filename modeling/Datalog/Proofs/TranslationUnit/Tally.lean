import Datalog.Proofs.Segment.Meaning
import Datalog.Proofs.TranslationUnit.Report
import Datalog.Proofs.TranslationUnit.Symbols
import Datalog.Session

/-!
# What a translation unit comes to

The tally of a unit is what it holds, and how many errors and warnings it reports,
without their wordings and places.  It is told by what the segments of a text say,
one after the other (`TranslationUnit.ofText_tally`): a declaration enters each of
its names once, a clause enters its texts and is appended unless a numeral is out of
range, and a malformed segment is an error.
-/

set_option autoImplicit false

namespace Datalog

open Grammar

/-! ## Relations that are entered -/

namespace Relation

/-- Whether one of some relations has the name of another one. -/
def namedIn (relations : List Relation) (relation : Relation) : Bool :=
  decide (relation.name ∈ relations.map Relation.name)

theorem namedIn_iff {relations : List Relation} {relation : Relation} :
    namedIn relations relation = true ↔ relation.name ∈ relations.map Relation.name :=
  decide_eq_true_iff

theorem mem_names_foldl_enter (relations more : List Relation) (name : String) :
    name ∈ (more.foldl enter relations).map Relation.name ↔
      name ∈ relations.map Relation.name ∨ name ∈ more.map Relation.name := by
  induction more generalizing relations with
  | nil => simp
  | cons relation more ih =>
      rw [List.foldl_cons, ih, enter, List.map_cons, List.mem_cons]
      split
      next present =>
        constructor
        · rintro (known | later)
          · exact .inl known
          · exact .inr (.inr later)
        · rintro (known | rfl | later)
          · exact .inl known
          · exact .inl present
          · exact .inr later
      next => simp [or_assoc]

theorem length_foldl_enter_le (relations more : List Relation) :
    (more.foldl enter relations).length ≤ relations.length + more.length := by
  induction more generalizing relations with
  | nil => exact Nat.le_refl _
  | cons relation more ih =>
      refine (ih _).trans ?_
      rw [enter, List.length_cons]
      split
      · omega
      · rw [List.length_append, List.length_singleton]
        omega

/-- Entering what has been entered elsewhere enters no name twice. -/
theorem foldl_enter_enter (base relations : List Relation) (relation : Relation) :
    (enter relations relation).foldl enter base = enter (relations.foldl enter base) relation := by
  rw [enter.eq_def relations]
  split
  next present =>
    rw [enter, if_pos ((mem_names_foldl_enter base relations _).mpr (.inr present))]
  next => rw [List.foldl_append, List.foldl_cons, List.foldl_nil]

theorem foldl_enter_foldl (base relations more : List Relation) :
    (more.foldl enter relations).foldl enter base =
      more.foldl enter (relations.foldl enter base) := by
  induction more generalizing relations with
  | nil => rfl
  | cons relation more ih => rw [List.foldl_cons, ih, foldl_enter_enter, List.foldl_cons]

/-- Entering relations behind others puts those there whose names are new. -/
theorem foldl_enter_eq (relations more : List Relation) :
    more.foldl enter relations =
      relations ++ (more.foldl enter []).filter fun relation => !namedIn relations relation := by
  suffices general : ∀ entered : List Relation,
      more.foldl enter (relations ++ entered.filter fun relation => !namedIn relations relation) =
        relations ++ (more.foldl enter entered).filter fun relation =>
          !namedIn relations relation by
    simpa using general []
  induction more with
  | nil => exact fun _ => rfl
  | cons relation more ih =>
      intro entered
      rw [List.foldl_cons, List.foldl_cons, ← ih]
      congr 1
      by_cases present : namedIn relations relation = true
      · have named := namedIn_iff.mp present
        rw [enter, if_pos (by rw [List.map_append]; exact List.mem_append_left _ named), enter]
        split
        · rfl
        · rw [List.filter_append, List.filter_cons_of_neg (by simpa using present),
            List.filter_nil, List.append_nil]
      · have named : relation.name ∈ (relations ++
            entered.filter fun relation => !namedIn relations relation).map Relation.name ↔
              relation.name ∈ entered.map Relation.name := by
          rw [List.map_append, List.mem_append, or_iff_right (mt namedIn_iff.mpr present)]
          constructor
          · exact fun member => (List.filter_sublist.map _).subset member
          · intro member
            obtain ⟨other, listed, same⟩ := List.mem_map.mp member
            refine List.mem_map.mpr ⟨other, List.mem_filter.mpr ⟨listed, ?_⟩, same⟩
            rwa [Bool.not_eq_true, namedIn, ← same, ← namedIn, ← Bool.not_eq_true'] at present
        rw [enter, enter, if_congr named rfl rfl]
        split
        · rfl
        · rw [List.filter_append, List.filter_cons_of_pos (by simpa using present),
            List.filter_nil, List.append_assoc]

/-- Of names that are entered, those count that were there in front of the first ones,
and those of the others that were there in front of the second ones. -/
theorem countP_foldl_enter (base relations more : List Relation) :
    (more.foldl enter []).countP (namedIn (relations.foldl enter base)) +
        relations.countP (namedIn base) =
      (more.foldl enter []).countP (namedIn relations) +
        (more.foldl enter relations).countP (namedIn base) := by
  have either (relation : Relation) : namedIn (relations.foldl enter base) relation =
      (namedIn base relation || namedIn relations relation) := by
    rw [namedIn, namedIn, namedIn, ← Bool.decide_or]
    exact decide_eq_decide.mpr (mem_names_foldl_enter base relations _)
  rw [foldl_enter_eq relations more, List.countP_append, List.countP_filter,
    List.countP_eq_countP_filter_add _ _ (namedIn relations), List.countP_filter,
    List.countP_filter]
  have known : (more.foldl enter []).countP (fun relation =>
      namedIn (relations.foldl enter base) relation && namedIn relations relation) =
        (more.foldl enter []).countP (namedIn relations) :=
    List.countP_congr fun relation _ => by
      rw [either]
      cases namedIn base relation <;> simp
  have fresh : (more.foldl enter []).countP (fun relation =>
      namedIn (relations.foldl enter base) relation && !namedIn relations relation) =
        (more.foldl enter []).countP fun relation =>
          namedIn base relation && !namedIn relations relation :=
    List.countP_congr fun relation _ => by
      rw [either]
      cases namedIn relations relation <;> simp
  rw [known, fresh]
  omega

end Relation

/-! ## Tallies -/

/-- What a unit holds, and the numbers of its errors and warnings. -/
structure Tally where
  relations : List Relation := []
  clauses : List InternedClause := []
  symbols : SymbolTable
  /-- Whether warnings are dropped. -/
  quiet : Bool := false
  errors : Nat := 0
  warnings : Nat := 0

namespace Tally

/-- Takes in the relations of a declaration.  A name that was there before is an
error, and a name that is listed again is a warning. -/
def declare (tally : Tally) (declared : List Relation) : Tally :=
  let distinct := declared.foldl Relation.enter []
  { tally with
    relations := declared.foldl Relation.enter tally.relations
    errors := tally.errors + distinct.countP (Relation.namedIn tally.relations)
    warnings := tally.warnings + if tally.quiet then 0 else declared.length - distinct.length }

/-- Takes in a clause.  A numeral out of range is an error. -/
def state (tally : Tally) (spelled : SpelledClause) : Tally :=
  let symbols := tally.symbols.insertAll (entered spelled.constants)
  { tally with
    clauses := tally.clauses ++ spelled.interned symbols
    symbols := symbols
    errors := tally.errors + if spelled.inRange then 0 else 1 }

/-- Takes in what a segment says, or a segment that says nothing. -/
def take (tally : Tally) : Option Statement → Tally
  | some (.declaration declared) => tally.declare declared.relations
  | some (.clause spelled) => tally.state spelled
  | none => { tally with errors := tally.errors + 1 }

end Tally

/-! ## Statements of one meaning -/

/-- Which texts are entered, and whether a numeral is rejected, depends on the
integers that the numerals denote. -/
theorem entered_congr {constants constants' : List (Numeral ⊕ String)}
    (same : constants.map (Sum.map Numeral.value id) = constants'.map (Sum.map Numeral.value id)) :
    entered constants = entered constants' ∧
      (rejected? constants).isNone = (rejected? constants').isNone := by
  induction constants generalizing constants' with
  | nil =>
      obtain rfl := List.map_eq_nil_iff.mp same.symm
      exact ⟨rfl, rfl⟩
  | cons constant rest ih =>
      obtain ⟨constant', rest', rfl, one, others⟩ := List.map_eq_cons_iff.mp same.symm
      obtain ⟨entered', rejected'⟩ := ih others.symm
      cases constant with
      | inl numeral =>
          cases constant' with
          | inr text => cases one
          | inl numeral' =>
              have range : numeral'.inRange = numeral.inRange := by
                rw [Numeral.inRange, Sum.inl.inj one, Numeral.inRange]
              rw [entered, entered, rejected?, rejected?, range, entered']
              split
              · exact ⟨rfl, rejected'⟩
              · exact ⟨rfl, rfl⟩
      | inr text =>
          cases constant' with
          | inl numeral => cases one
          | inr text' =>
              obtain rfl : text' = text := Sum.inr.inj one
              rw [entered, entered, entered']
              exact ⟨rfl, rejected'⟩

theorem Clause.interned_congr {spelled spelled' : SpelledClause}
    (same : spelled.map Numeral.value id = spelled'.map Numeral.value id) :
    entered spelled.constants = entered spelled'.constants ∧
      spelled.inRange = spelled'.inRange ∧ spelled.interned = spelled'.interned := by
  have constants := congrArg Clause.constants same
  rw [Clause.constants_map, Clause.constants_map] at constants
  obtain ⟨texts, range⟩ := entered_congr constants
  refine ⟨texts, range, funext fun table => ?_⟩
  have machine (clause : SpelledClause) : clause.map Numeral.machine table.symbolOf =
      (clause.map Numeral.value id).map Int64.ofInt table.symbolOf := by
    rw [Clause.map_map]
    rfl
  have range : spelled.inRange = spelled'.inRange := range
  rw [Clause.interned, Clause.interned, machine, machine, same, range]

/-- Statements that say the same are taken in alike. -/
theorem Tally.take_congr (tally : Tally) {stated? stated?' : Option Statement}
    (same : stated?.map Statement.meaning = stated?'.map Statement.meaning) :
    tally.take stated? = tally.take stated?' := by
  cases stated? with
  | none =>
      obtain rfl := Option.map_eq_none_iff.mp same.symm
      rfl
  | some stated =>
      obtain ⟨stated', rfl, one⟩ := Option.map_eq_some_iff.mp same.symm
      cases stated with
      | declaration declared =>
          cases stated' with
          | declaration declared' => rw [Sum.inl.inj one]
          | clause spelled' => cases one
      | clause spelled =>
          cases stated' with
          | declaration declared' => cases one
          | clause spelled' =>
              obtain ⟨texts, range, interned⟩ := Clause.interned_congr (Sum.inr.inj one)
              rw [take, take, state, state, texts, range, interned]

/-- **Segments that say the same are taken in alike.** -/
theorem Tally.foldl_take_congr (tally : Tally) {segments segments' : List Segment}
    (same : segments.map Segment.meaning? = segments'.map Segment.meaning?) :
    (segments.map Segment.statement?).foldl take tally =
      (segments'.map Segment.statement?).foldl take tally := by
  induction segments generalizing segments' tally with
  | nil =>
      obtain rfl := List.map_eq_nil_iff.mp same.symm
      rfl
  | cons segment rest ih =>
      obtain ⟨segment', rest', rfl, one, others⟩ := List.map_eq_cons_iff.mp same.symm
      rw [List.map_cons, List.foldl_cons, List.map_cons, List.foldl_cons,
        take_congr tally one.symm]
      exact ih _ others.symm

/-! ## The tally of a unit -/

namespace ErrorReport

variable (report : ErrorReport) (message : String) (location? : Option Location)

@[simp] theorem errors_addError :
    (report.addError message location?).errors = report.errors + 1 := by
  rw [errors, errors, count, diagnostics_addError, List.countP_append]
  rfl

@[simp] theorem warnings_addError :
    (report.addError message location?).warnings = report.warnings := by
  rw [warnings, warnings, count, diagnostics_addError, List.countP_append]
  rfl

@[simp] theorem errors_addWarning :
    (report.addWarning message location?).errors = report.errors := by
  rw [addWarning, add]
  split
  · rfl
  · rw [errors, errors, count, List.countP_append]
    rfl

theorem warnings_addWarning : (report.addWarning message location?).warnings =
    report.warnings + if report.quiet then 0 else 1 := by
  rw [addWarning, add]
  cases report.quiet with
  | true => rfl
  | false =>
      rw [Bool.false_and, if_neg Bool.false_ne_true, warnings, warnings, count,
        List.countP_append]
      rfl

end ErrorReport

namespace TranslationUnit

/-- What a unit comes to. -/
def tally (unit : TranslationUnit) : Tally where
  relations := unit.program.relations
  clauses := unit.program.clauseList
  symbols := unit.symbols
  quiet := unit.report.quiet
  errors := unit.report.errors
  warnings := unit.report.warnings

@[simp] theorem tally_note (unit : TranslationUnit) (events : List Event) :
    (unit.note events).tally = unit.tally := rfl

@[simp] theorem tally_addError (unit : TranslationUnit) (message : String)
    (location? : Option Location) :
    (unit.addError message location?).tally =
      { unit.tally with errors := unit.tally.errors + 1 } := by
  have quiet : (unit.report.addError message location?).quiet = unit.report.quiet :=
    ErrorReport.quiet_add _ _
  rw [addError, tally, ErrorReport.errors_addError, ErrorReport.warnings_addError, quiet]
  rfl

variable (location : Location)

theorem declare_errors (unit : TranslationUnit) (relation : Relation) :
    (unit.declare location relation).report.errors =
        unit.report.errors + (if Relation.namedIn unit.program.relations relation then 1 else 0) ∧
      (unit.declare location relation).report.warnings = unit.report.warnings ∧
      (unit.declare location relation).report.quiet = unit.report.quiet := by
  by_cases present : relation.name ∈ unit.program.relations.map Relation.name
  · rw [declare_of_present location present, if_pos (Relation.namedIn_iff.mpr present)]
    exact ⟨ErrorReport.errors_addError _ _ _, ErrorReport.warnings_addError _ _ _,
      ErrorReport.quiet_add _ _⟩
  · obtain ⟨-, -, -, report⟩ := declare_of_absent location present
    rw [report, if_neg (mt Relation.namedIn_iff.mp present)]
    exact ⟨rfl, rfl, rfl⟩

/-- The errors of a declaration are the names that were there before it. -/
theorem declareAll_errors {listed : List String} {seen held : List Relation}
    (relations : List Relation) {unit : TranslationUnit}
    (same : ∀ name, name ∈ listed ↔ name ∈ seen.map Relation.name)
    (known : ∀ name, name ∈ unit.program.relations.map Relation.name ↔
      name ∈ held.map Relation.name ∨ name ∈ listed) :
    (declareAll location listed relations unit).report.errors +
        seen.countP (Relation.namedIn held) =
      unit.report.errors +
        (relations.foldl Relation.enter seen).countP (Relation.namedIn held) := by
  induction relations generalizing listed seen unit with
  | nil => rfl
  | cons relation rest ih =>
      rw [declareAll, List.foldl_cons, Relation.enter, if_congr (same _).symm rfl rfl]
      split
      next again =>
        exact (@ih _ _ (unit.addWarning _ _) same known).trans
          (congrArg (· + _) (ErrorReport.errors_addWarning _ _ _))
      next new =>
        obtain ⟨errors, -, -⟩ := declare_errors location unit relation
        have further := @ih (relation.name :: listed) (seen ++ [relation])
          (unit.declare location relation) (by simp [same, or_comm]) (by
            intro name
            rw [(declare_holds location unit relation).1]
            have entered := Relation.mem_names_foldl_enter unit.program.relations [relation] name
            rw [List.foldl_cons, List.foldl_nil, known, List.map_singleton, List.mem_singleton]
              at entered
            rw [entered, List.mem_cons, or_assoc, or_comm (a := name = _)])
        have agrees : Relation.namedIn unit.program.relations relation =
            Relation.namedIn held relation := by
          refine decide_eq_decide.mpr ((known _).trans (or_iff_left new))
        rw [errors, List.countP_append, List.countP_singleton, agrees] at further
        omega

/-- The warnings of a declaration are the names that are listed again. -/
theorem declareAll_warnings {listed : List String} {seen : List Relation}
    (relations : List Relation) {unit : TranslationUnit}
    (same : ∀ name, name ∈ listed ↔ name ∈ seen.map Relation.name) :
    (declareAll location listed relations unit).report.warnings +
        (if unit.report.quiet then 0 else (relations.foldl Relation.enter seen).length) =
      unit.report.warnings +
        if unit.report.quiet then 0 else seen.length + relations.length := by
  induction relations generalizing listed seen unit with
  | nil => rfl
  | cons relation rest ih =>
      rw [declareAll, List.foldl_cons, Relation.enter, if_congr (same _).symm rfl rfl]
      split
      next again =>
        generalize "Relation " ++ relation.name ++ " listed twice in declaration" = message
        have quiet : (unit.addWarning message (some location)).report.quiet = unit.report.quiet :=
          ErrorReport.quiet_add _ _
        have warned := ErrorReport.warnings_addWarning unit.report message (some location)
        have further := @ih _ _ (unit.addWarning message (some location)) same
        rw [quiet, addWarning, warned] at further
        rw [addWarning, further, List.length_cons]
        split <;> omega
      next =>
        obtain ⟨-, warnings, quiet⟩ := declare_errors location unit relation
        have further := @ih (relation.name :: listed) (seen ++ [relation])
          (unit.declare location relation) (by simp [same, or_comm])
        rw [warnings, quiet] at further
        rw [further, List.length_append, List.length_singleton, List.length_cons]
        split <;> omega

theorem declareAll_quiet (listed : List String) (relations : List Relation)
    (unit : TranslationUnit) :
    (declareAll location listed relations unit).report.quiet = unit.report.quiet := by
  induction relations generalizing listed unit with
  | nil => rfl
  | cons relation rest ih =>
      rw [declareAll]
      split
      · exact (ih _ _).trans (ErrorReport.quiet_add _ _)
      · exact (ih _ _).trans (declare_errors location unit relation).2.2

theorem declareAll_tally (unit : TranslationUnit) (relations : List Relation) :
    (declareAll location [] relations unit).tally = unit.tally.declare relations := by
  obtain ⟨held, clauses, symbols⟩ := declareAll_holds location [] relations unit (by simp)
  have errors := @declareAll_errors location [] [] unit.program.relations relations unit
    (by simp) (by simp)
  have warnings := @declareAll_warnings location [] [] relations unit (by simp)
  have warned : (declareAll location [] relations unit).report.warnings =
      unit.report.warnings + if unit.report.quiet then 0 else
        relations.length - (relations.foldl Relation.enter []).length := by
    have shorter := Relation.length_foldl_enter_le [] relations
    rw [List.length_nil, Nat.zero_add] at warnings shorter
    cases quiet : unit.report.quiet with
    | true => simpa [quiet] using warnings
    | false =>
        rw [quiet, if_neg Bool.false_ne_true, if_neg Bool.false_ne_true] at warnings
        rw [if_neg Bool.false_ne_true]
        omega
  rw [List.countP_nil, Nat.add_zero] at errors
  rw [tally, held, symbols, errors, warned, declareAll_quiet, Program.clauseList, clauses]
  rfl

theorem addClause_tally (code : List Char) (spelled : SpelledClause) (unit : TranslationUnit) :
    (unit.addClause code spelled).tally = unit.tally.state spelled := by
  have reported : (unit.addClause code spelled).program.relations = unit.program.relations ∧
      (unit.addClause code spelled).report.quiet = unit.report.quiet ∧
      (unit.addClause code spelled).report.errors =
        unit.report.errors + (if spelled.inRange then 0 else 1) ∧
      (unit.addClause code spelled).report.warnings = unit.report.warnings := by
    cases range : spelled.inRange with
    | true =>
        obtain ⟨-, -, -, relations, -, -, report⟩ := addClause_of_inRange code range unit
        rw [report]
        exact ⟨relations, rfl, rfl, rfl⟩
    | false =>
        obtain ⟨numeral, program, -, report⟩ := addClause_of_not_inRange code range unit
        rw [report, program, if_neg Bool.false_ne_true]
        exact ⟨rfl, ErrorReport.quiet_add _ _, ErrorReport.errors_addError _ _ _,
          ErrorReport.warnings_addError _ _ _⟩
  obtain ⟨relations, quiet, errors, warnings⟩ := reported
  rw [tally, addClause_symbols, addClause_clauseList, relations, quiet, errors, warnings]
  rfl

/-- Taking in a segment is told by the tally and by what the segment says. -/
theorem add_tally (code : List Char) (unit : TranslationUnit) (segment : Segment) :
    (unit.add code segment).tally = unit.tally.take segment.statement? := by
  obtain ⟨begins, ends, reading⟩ := segment
  cases reading with
  | malformed fault => exact tally_addError _ _ _
  | statement start stated =>
      cases stated with
      | declaration declared => exact declareAll_tally _ unit _
      | clause spelled => exact addClause_tally code spelled unit

/-- **What a text comes to is told by what its segments say.** -/
theorem ofText_tally (code : List Char) (symbols : SymbolTable) (report : ErrorReport)
    (debug : DebugReport) :
    (ofText code symbols report debug).tally =
      ((Segment.all code).map Segment.statement?).foldl Tally.take
        (tally { symbols := symbols, report := report }) := by
  have run (segments : List Segment) (unit : TranslationUnit) :
      (segments.foldl (add code) unit).tally =
        (segments.map Segment.statement?).foldl Tally.take unit.tally := by
    induction segments generalizing unit with
    | nil => rfl
    | cons segment rest ih =>
        rw [List.foldl_cons, ih, add_tally, List.map_cons, List.foldl_cons]
  exact run (Segment.all code) { symbols := symbols, report := report, debug := debug }

end TranslationUnit

/-- The tally of a text. -/
theorem Preferences.unitOf_tally (preferences : Preferences) (code : List Char)
    (symbols : SymbolTable) :
    (preferences.unitOf code symbols).tally =
      ((Segment.all code).map Segment.statement?).foldl Tally.take
        { symbols := symbols, quiet := preferences.quiet } :=
  TranslationUnit.ofText_tally code symbols _ _

end Datalog
