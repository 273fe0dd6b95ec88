import Datalog.Proofs.Isolation.Remark
import Datalog.Proofs.TranslationUnit.Listing

/-!
# What is remarked on a segment

What is reported about a segment depends on the segment and on the names that are
known when it is taken in (`Segment.remarks`).  So the report of a unit is told by the
segments of its text, one after the other: it holds their remarks, each at the
location of the place that it is about (`TranslationUnit.ofText_diagnostics`).
-/

set_option autoImplicit false

namespace Datalog

open Grammar

/-! ## Remarks -/

/-- Whether a remark is reported by whom may have been told to drop warnings. -/
def Remark.wanted (quiet : Bool) (remark : Remark) : Bool :=
  !(quiet && remark.severity == .warning)

/-- The remarks on names that stand at a place in one declaration.  A name that has been
listed in it already is a warning, another one that is known is an error. -/
def nameRemarks (start : Nat) (known : List String) : List String → List String → List Remark
  | _, [] => []
  | listed, name :: rest =>
    if name ∈ listed then
      ⟨.warning, "Relation " ++ name ++ " listed twice in declaration", start⟩ ::
        nameRemarks start known listed rest
    else if name ∈ known then
      ⟨.error, (ProgramError.duplicateRelation name).message, start⟩ ::
        nameRemarks start known (name :: listed) rest
    else nameRemarks start known (name :: listed) rest

/-- The remarks on a segment, when some names are known. -/
def Segment.remarks (known : List String) (segment : Segment) : List Remark :=
  match segment.reading with
  | .statement start (.declaration declared) => nameRemarks start known [] declared.names
  | .statement _ (.clause spelled) =>
    (rejected? spelled.constants).toList.map fun numeral =>
      ⟨.error, (ParseError.outOfRange numeral).message, numeral.remaining⟩
  | .malformed fault => [⟨.error, fault.message, fault.remaining⟩]

/-- The names that a segment lists. -/
def Segment.names (segment : Segment) : List String :=
  match segment.reading with
  | .statement _ (.declaration declared) => declared.names
  | _ => []

theorem Segment.map_name_relations (segment : Segment) :
    (segment.statement?.toList.flatMap Statement.relations).map Relation.name = segment.names := by
  obtain ⟨begins, ends, reading⟩ := segment
  cases reading with
  | malformed fault => rfl
  | statement start stated =>
      cases stated with
      | clause spelled => rfl
      | declaration declared =>
          rw [Segment.statement?, Option.toList_some, List.flatMap_singleton]
          exact declared.names_relations

/-- The remarks on segments that follow each other. -/
def remarksOn : List String → List Segment → List Remark
  | _, [] => []
  | known, segment :: rest => segment.remarks known ++ remarksOn (known ++ segment.names) rest

/-! ## Names that are known -/

section Known

variable {known known' : List String}

/-- Names that are listed need not be told apart from known ones. -/
theorem nameRemarks_congr {listed : List String} (start : Nat)
    (same : ∀ name, name ∉ listed → (name ∈ known ↔ name ∈ known')) (names : List String) :
    nameRemarks start known listed names = nameRemarks start known' listed names := by
  induction names generalizing listed with
  | nil => rfl
  | cons name rest ih =>
      have further : ∀ other, other ∉ name :: listed → (other ∈ known ↔ other ∈ known') :=
        fun other absent => same other (mt (List.mem_cons_of_mem _) absent)
      rw [nameRemarks, nameRemarks]
      by_cases again : name ∈ listed
      · rw [if_pos again, if_pos again, ih same]
      · rw [if_neg again, if_neg again, if_congr (same name again) rfl rfl, ih further]

theorem Segment.remarks_congr (same : ∀ name, name ∈ known ↔ name ∈ known')
    (segment : Segment) : segment.remarks known = segment.remarks known' := by
  obtain ⟨begins, ends, reading⟩ := segment
  cases reading with
  | malformed fault => rfl
  | statement start stated =>
      cases stated with
      | clause spelled => rfl
      | declaration declared => exact nameRemarks_congr start (fun name _ => same name) _

theorem remarksOn_congr (same : ∀ name, name ∈ known ↔ name ∈ known')
    (segments : List Segment) : remarksOn known segments = remarksOn known' segments := by
  induction segments generalizing known known' with
  | nil => rfl
  | cons segment rest ih =>
      rw [remarksOn, remarksOn, segment.remarks_congr same, ih]
      intro name
      rw [List.mem_append, List.mem_append, same]

theorem remarksOn_append (known : List String) (front behind : List Segment) :
    remarksOn known (front ++ behind) =
      remarksOn known front ++ remarksOn (known ++ front.flatMap Segment.names) behind := by
  induction front generalizing known with
  | nil => rw [List.nil_append, remarksOn, List.flatMap_nil, List.append_nil, List.nil_append]
  | cons segment front ih =>
      rw [List.cons_append, remarksOn, remarksOn, ih, List.flatMap_cons, List.append_assoc,
        List.append_assoc]

end Known

/-! ## Units that say more -/

/-- The second unit has reported some remarks behind what the first one has reported,
unless they are dropped. -/
structure Tells (code : List Char) (unit unit' : TranslationUnit) (remarks : List Remark) :
    Prop where
  quiet : unit'.report.quiet = unit.report.quiet
  diagnostics : unit'.report.diagnostics = unit.report.diagnostics ++
    (remarks.filter (Remark.wanted unit.report.quiet)).map (Remark.diagnostic code)

namespace Tells

variable {code : List Char} {unit unit' unit'' : TranslationUnit} {remarks remarks' : List Remark}

theorem nothing (same : unit'.report = unit.report) : Tells code unit unit' [] :=
  ⟨congrArg ErrorReport.quiet same,
    (congrArg ErrorReport.diagnostics same).trans (List.append_nil _).symm⟩

theorem trans (first : Tells code unit unit' remarks) (second : Tells code unit' unit'' remarks') :
    Tells code unit unit'' (remarks ++ remarks') := by
  refine ⟨second.quiet.trans first.quiet, ?_⟩
  rw [second.diagnostics, first.diagnostics, first.quiet, List.filter_append, List.map_append,
    List.append_assoc]

/-- One remark is reported, or is dropped. -/
theorem one (remark : Remark)
    (report : unit'.report = unit.report.add (remark.diagnostic code)) :
    Tells code unit unit' [remark] := by
  have severity : (remark.diagnostic code).severity = remark.severity := rfl
  refine ⟨report ▸ ErrorReport.quiet_add _ _, ?_⟩
  rw [report, ErrorReport.add, severity]
  by_cases unwanted : (unit.report.quiet && remark.severity == .warning) = true
  · rw [if_pos unwanted, List.filter_cons_of_neg (by simp [Remark.wanted, unwanted])]
    exact (List.append_nil _).symm
  · rw [if_neg unwanted, List.filter_cons_of_pos (by simp [Remark.wanted, unwanted])]
    rfl

end Tells

/-! ## Taking in segments -/

namespace TranslationUnit

variable (code : List Char)

theorem declare_tells (start : Nat) (unit : TranslationUnit) (relation : Relation) :
    Tells code unit (unit.declare (.ofPlace code start) relation)
      (if relation.name ∈ unit.program.relations.map Relation.name then
        [⟨.error, (ProgramError.duplicateRelation relation.name).message, start⟩]
      else []) := by
  by_cases present : relation.name ∈ unit.program.relations.map Relation.name
  · rw [declare_of_present _ present, if_pos present]
    exact .one _ rfl
  · obtain ⟨-, -, -, report⟩ := declare_of_absent (.ofPlace code start) present
    rw [if_neg present]
    exact .nothing report

/-- **The names of a declaration are remarked on one by one.**  Names that it has listed
before have been declared since. -/
theorem declareAll_tells (start : Nat) (relations : List Relation) {listed known : List String}
    {unit : TranslationUnit} (declared : ∀ name, name ∉ listed →
      (name ∈ unit.program.relations.map Relation.name ↔ name ∈ known)) :
    Tells code unit (unit.declareAll (.ofPlace code start) listed relations)
      (nameRemarks start known listed (relations.map Relation.name)) := by
  induction relations generalizing listed unit with
  | nil => exact .nothing rfl
  | cons relation rest ih =>
      rw [declareAll, List.map_cons, nameRemarks]
      by_cases again : relation.name ∈ listed
      · have warned (message : String) :
            Tells code unit (unit.addWarning message (some (.ofPlace code start)))
              [⟨.warning, message, start⟩] := .one _ rfl
        rw [if_pos again, if_pos again]
        exact (warned _).trans (ih declared)
      · have later : ∀ name, name ∉ relation.name :: listed →
            (name ∈ (unit.declare (.ofPlace code start) relation).program.relations.map
              Relation.name ↔ name ∈ known) := by
          intro name absent
          obtain ⟨other, fresh⟩ := not_or.mp (mt List.mem_cons.mpr absent)
          rw [(declare_holds _ unit relation).1]
          have entered := Relation.mem_names_foldl_enter unit.program.relations [relation] name
          rw [List.foldl_cons, List.foldl_nil, List.map_singleton, List.mem_singleton] at entered
          rw [entered, or_iff_left other, declared name fresh]
        have first := declare_tells code start unit relation
        rw [if_neg again, if_neg again]
        rw [if_congr (declared _ again) rfl rfl] at first
        have whole := first.trans (ih later)
        split
        next present => rwa [if_pos present] at whole
        next absent => rwa [if_neg absent] at whole

theorem addClause_tells (spelled : SpelledClause) (unit : TranslationUnit) :
    Tells code unit (unit.addClause code spelled)
      ((rejected? spelled.constants).toList.map fun numeral =>
        ⟨.error, (ParseError.outOfRange numeral).message, numeral.remaining⟩) := by
  cases stopped : rejected? spelled.constants with
  | none =>
      rw [addClause, spelled.interns.answers unit.symbols stopped]
      exact .nothing rfl
  | some numeral =>
      rw [addClause, spelled.interns.rejects unit.symbols numeral stopped]
      exact .one _ rfl

/-- **Taking in a segment says what is remarked on it.** -/
theorem add_tells (unit : TranslationUnit) (segment : Segment) :
    Tells code unit (unit.add code segment)
      (segment.remarks (unit.program.relations.map Relation.name)) := by
  obtain ⟨begins, ends, reading⟩ := segment
  cases reading with
  | malformed fault => exact .one _ rfl
  | statement start stated =>
      cases stated with
      | clause spelled => exact addClause_tells code spelled unit
      | declaration declared =>
          have told := @declareAll_tells code start declared.relations [] _ unit
            fun _ _ => Iff.rfl
          rw [declared.names_relations] at told
          exact told

/-- Taking in a segment makes its names known. -/
theorem mem_names_add (unit : TranslationUnit) (segment : Segment) (name : String) :
    name ∈ (unit.add code segment).program.relations.map Relation.name ↔
      name ∈ unit.program.relations.map Relation.name ++ segment.names := by
  rw [add_relations, Relation.mem_names_foldl_enter, segment.map_name_relations, List.mem_append]

/-- Taking in segments says what is remarked on them, one after the other. -/
theorem foldl_add_tells (unit : TranslationUnit) (segments : List Segment) :
    Tells code unit (segments.foldl (add code) unit)
      (remarksOn (unit.program.relations.map Relation.name) segments) := by
  induction segments generalizing unit with
  | nil => exact .nothing rfl
  | cons segment rest ih =>
      have further := ih (unit.add code segment)
      rw [remarksOn_congr (mem_names_add code unit segment)] at further
      exact (add_tells code unit segment).trans further

/-- **The report of a text holds the remarks on its segments**, behind what was
reported before. -/
theorem ofText_diagnostics (symbols : SymbolTable) (report : ErrorReport) (debug : DebugReport) :
    (ofText code symbols report debug).report.diagnostics = report.diagnostics ++
      ((remarksOn [] (Segment.all code)).filter (Remark.wanted report.quiet)).map
        (Remark.diagnostic code) :=
  (foldl_add_tells code { symbols, report, debug } (Segment.all code)).diagnostics

end TranslationUnit

end Datalog
