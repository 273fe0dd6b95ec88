import Datalog.Proofs.TranslationUnit.Contents

/-!
# What a translation unit reports

Only a malformed segment leads to a syntax error, and every one of them does
(`TranslationUnit.ofText_syntax_iff`).  Nothing at all is reported about a text
of statements that declare no name twice and hold no numeral out of range
(`TranslationUnit.ofText_report_of_clean`).
-/

set_option autoImplicit false

namespace Datalog

open Grammar

/-! ## Syntax errors -/

/-- Whether a diagnostic says that a text does not follow the grammar. -/
def Diagnostic.isSyntaxError (diagnostic : Diagnostic) : Bool :=
  "syntax error, ".toList.isPrefixOf diagnostic.message.toList

theorem isSyntaxError_fault (fault : Fault) (severity : Severity) (location? : Option Location) :
    (Diagnostic.mk severity fault.message location?).isSyntaxError = true := by
  rw [Diagnostic.isSyntaxError, List.isPrefixOf_iff_prefix, Fault.message]
  exact ⟨_, String.toList_append.symm⟩

/-- No message that starts with another letter is about the syntax. -/
theorem isSyntaxError_append {front : String} (other : front.toList.head?.any (· != 's') = true)
    (rest : String) (severity : Severity) (location? : Option Location) :
    (Diagnostic.mk severity (front ++ rest) location?).isSyntaxError = false := by
  have spelled : "syntax error, ".toList = 's' :: "yntax error, ".toList := by decide
  have together : (front ++ rest).toList = front.toList ++ rest.toList := String.toList_append
  rw [Diagnostic.isSyntaxError, together, spelled]
  cases starts : front.toList with
  | nil => simp [starts] at other
  | cons c more =>
      have distinct : c ≠ 's' := by simpa [starts] using other
      have differs : ('s' == c) = false := by simpa using distinct.symm
      rw [List.cons_append, List.isPrefixOf, differs, Bool.false_and]

theorem isSyntaxError_duplicate (name : String) (severity : Severity)
    (location? : Option Location) :
    (Diagnostic.mk severity (ProgramError.duplicateRelation name).message
      location?).isSyntaxError = false :=
  isSyntaxError_append (by decide) name severity location?

theorem isSyntaxError_outOfRange (numeral : Numeral) (severity : Severity)
    (location? : Option Location) :
    (Diagnostic.mk severity (ParseError.outOfRange numeral).message
      location?).isSyntaxError = false := by
  have together : (ParseError.outOfRange numeral).message =
      "number constant " ++ (String.ofList numeral.spelling ++ " is out of range") :=
    String.append_assoc
  rw [together]
  exact isSyntaxError_append (by decide) _ severity location?

theorem isSyntaxError_listedTwice (name : String) (severity : Severity)
    (location? : Option Location) :
    (Diagnostic.mk severity ("Relation " ++ name ++ " listed twice in declaration")
      location?).isSyntaxError = false := by
  have together : "Relation " ++ name ++ " listed twice in declaration" =
      "Relation " ++ (name ++ " listed twice in declaration") := String.append_assoc
  rw [together]
  exact isSyntaxError_append (by decide) _ severity location?

/-! ## Reports that grow -/

namespace ErrorReport

/-- The second report has further diagnostics behind those of the first one, and
all of them have a property. -/
def Extends (property : Diagnostic → Prop) (report report' : ErrorReport) : Prop :=
  ∃ more, report'.diagnostics = report.diagnostics ++ more ∧
    ∀ diagnostic ∈ more, property diagnostic

variable {property : Diagnostic → Prop} {report report' report'' : ErrorReport}

theorem Extends.refl (report : ErrorReport) : Extends property report report :=
  ⟨[], (List.append_nil _).symm, by simp⟩

theorem Extends.trans (first : Extends property report report')
    (second : Extends property report' report'') : Extends property report report'' := by
  obtain ⟨more, same, all⟩ := first
  obtain ⟨more', same', all'⟩ := second
  refine ⟨more ++ more', by rw [same', same, List.append_assoc], ?_⟩
  intro diagnostic member
  exact (List.mem_append.mp member).elim (all diagnostic) (all' diagnostic)

theorem extends_add (report : ErrorReport) {diagnostic : Diagnostic}
    (holds : property diagnostic) : Extends property report (report.add diagnostic) := by
  rw [add]
  split
  · exact .refl report
  · exact ⟨[diagnostic], rfl, by simpa using holds⟩

/-- Errors are never dropped. -/
theorem diagnostics_addError (report : ErrorReport) (message : String)
    (location? : Option Location) :
    (report.addError message location?).diagnostics =
      report.diagnostics ++ [⟨.error, message, location?⟩] := by
  simp [addError, add]

theorem quiet_add (report : ErrorReport) (diagnostic : Diagnostic) :
    (report.add diagnostic).quiet = report.quiet := by
  rw [add]
  split <;> rfl

end ErrorReport

namespace TranslationUnit

open ErrorReport (Extends)

/-- What is reported about a declaration is not about the syntax. -/
theorem declareAll_extends (location : Location) (listed : List String) (relations : List Relation)
    (unit : TranslationUnit) :
    Extends (fun diagnostic => diagnostic.isSyntaxError = false) unit.report
      (declareAll location listed relations unit).report := by
  induction relations generalizing listed unit with
  | nil => exact .refl _
  | cons relation rest ih =>
      rw [declareAll]
      split
      · exact (ErrorReport.extends_add _ (isSyntaxError_listedTwice _ _ _)).trans (ih _ _)
      · refine Extends.trans ?_ (ih _ _)
        by_cases present : relation.name ∈ unit.program.relations.map Relation.name
        · rw [declare_of_present location present]
          exact ErrorReport.extends_add _ (isSyntaxError_duplicate _ _ _)
        · rw [(declare_of_absent location present).2.2.2]
          exact .refl _

theorem addClause_extends (code : List Char) (spelled : SpelledClause) (unit : TranslationUnit) :
    Extends (fun diagnostic => diagnostic.isSyntaxError = false) unit.report
      (unit.addClause code spelled).report := by
  cases range : spelled.inRange with
  | true =>
      obtain ⟨clause, -, -, -, -, -, report⟩ := addClause_of_inRange code range unit
      rw [report]
      exact .refl _
  | false =>
      obtain ⟨numeral, -, -, report⟩ := addClause_of_not_inRange code range unit
      rw [report]
      exact ErrorReport.extends_add _ (isSyntaxError_outOfRange _ _ _)

/-- **A segment leads to a syntax error exactly if it is malformed.** -/
theorem add_syntax (code : List Char) (unit : TranslationUnit) (segment : Segment) :
    ∃ more, (unit.add code segment).report.diagnostics = unit.report.diagnostics ++ more ∧
      ((∃ diagnostic ∈ more, diagnostic.isSyntaxError = true) ↔ segment.statement? = none) := by
  obtain ⟨begins, ends, reading⟩ := segment
  cases reading with
  | malformed fault =>
      refine ⟨_, ErrorReport.diagnostics_addError _ _ _, ?_⟩
      simp [Segment.statement?, isSyntaxError_fault]
  | statement start stated =>
      have extends' : Extends (fun diagnostic => diagnostic.isSyntaxError = false) unit.report
          (unit.add code ⟨begins, ends, .statement start stated⟩).report := by
        cases stated with
        | declaration declared => exact declareAll_extends _ _ _ _
        | clause spelled => exact addClause_extends _ _ _
      obtain ⟨more, same, all⟩ := extends'
      refine ⟨more, same, ?_⟩
      simp only [Segment.statement?, reduceCtorEq, iff_false, not_exists, not_and]
      intro diagnostic member
      rw [all diagnostic member]
      decide

theorem foldl_syntax (code : List Char) (unit : TranslationUnit) (segments : List Segment) :
    ∃ more, (segments.foldl (add code) unit).report.diagnostics =
        unit.report.diagnostics ++ more ∧
      ((∃ diagnostic ∈ more, diagnostic.isSyntaxError = true) ↔
        ∃ segment ∈ segments, segment.statement? = none) := by
  induction segments generalizing unit with
  | nil => exact ⟨[], (List.append_nil _).symm, by simp⟩
  | cons segment rest ih =>
      obtain ⟨first, same, found⟩ := add_syntax code unit segment
      obtain ⟨others, same', found'⟩ := ih (unit.add code segment)
      refine ⟨first ++ others, by rw [List.foldl_cons, same', same, List.append_assoc], ?_⟩
      rw [List.exists_mem_cons_iff, ← found, ← found']
      simp only [List.mem_append, or_and_right, exists_or]

theorem ofText_report (code : List Char) (symbols : SymbolTable) (report : ErrorReport)
    (debug : DebugReport) :
    (ofText code symbols report debug).report =
      ((Segment.all code).foldl (add code)
        { symbols := symbols, report := report, debug := debug }).report := rfl

/-- **A text has syntax errors exactly if one of its segments is no statement.** -/
theorem ofText_syntax_iff (code : List Char) (symbols : SymbolTable) (quiet : Bool)
    (debug : DebugReport) :
    (∃ diagnostic ∈ (ofText code symbols { quiet := quiet } debug).report.diagnostics,
        diagnostic.isSyntaxError = true) ↔
      ∃ segment ∈ Segment.all code, segment.statement? = none := by
  obtain ⟨more, same, found⟩ := foldl_syntax code
    { symbols := symbols, report := { quiet := quiet }, debug := debug } (Segment.all code)
  rw [ofText_report, same, List.nil_append, found]

/-! ## Texts about which nothing is reported -/

/-- Declaring relations with new names is not reported. -/
theorem declareAll_report (location : Location) (listed : List String) {relations : List Relation}
    {unit : TranslationUnit}
    (distinct : ((unit.program.relations ++ relations).map Relation.name).Nodup)
    (known : ∀ name ∈ listed, name ∈ unit.program.relations.map Relation.name) :
    (declareAll location listed relations unit).report = unit.report := by
  induction relations generalizing listed unit with
  | nil => rfl
  | cons relation rest ih =>
      have absent : relation.name ∉ unit.program.relations.map Relation.name := by
        intro member
        rw [List.map_append, List.nodup_append] at distinct
        exact distinct.2.2 _ member _ (by simp) rfl
      obtain ⟨relations, -, -, report⟩ := declare_of_absent location absent
      rw [declareAll, if_neg fun again => absent (known _ again), ← report]
      refine ih (relation.name :: listed) (by simpa [relations] using distinct) ?_
      intro name member
      rw [relations, List.map_append, List.mem_append]
      rcases List.mem_cons.mp member with rfl | member
      · exact .inr (by simp)
      · exact .inl (known name member)

theorem add_report_of_clean (code : List Char) {unit : TranslationUnit} {segment : Segment}
    {stated : Statement} (held : segment.statement? = some stated)
    (distinct : ((unit.program.relations ++ stated.relations).map Relation.name).Nodup)
    (range : stated.inRange = true) : (unit.add code segment).report = unit.report := by
  obtain ⟨begins, ends, reading⟩ := segment
  cases reading with
  | malformed fault => cases held
  | statement start stated' =>
      obtain rfl := Option.some.inj held
      cases stated' with
      | declaration declared => exact declareAll_report _ [] distinct (by simp)
      | clause spelled =>
          obtain ⟨clause, -, -, -, -, -, report⟩ := addClause_of_inRange code range unit
          exact report

theorem foldl_report_of_clean (code : List Char) {unit : TranslationUnit}
    {segments : List Segment} {statements : List Statement}
    (held : segments.map Segment.statement? = statements.map some)
    (distinct : ((unit.program.relations ++ statements.flatMap Statement.relations).map
      Relation.name).Nodup)
    (range : ∀ stated ∈ statements, stated.inRange = true) :
    (segments.foldl (add code) unit).report = unit.report := by
  induction segments generalizing unit statements with
  | nil => rfl
  | cons segment rest ih =>
      cases statements with
      | nil => cases held
      | cons stated others =>
          obtain ⟨first, later⟩ := List.cons.inj held
          rw [List.flatMap_cons, ← List.append_assoc] at distinct
          have initial : ((unit.program.relations ++ stated.relations).map Relation.name).Nodup :=
            distinct.sublist ((List.sublist_append_left _ _).map _)
          have relations : (unit.add code segment).program.relations =
              unit.program.relations ++ stated.relations := by
            rw [add_relations, first, Option.toList_some, List.flatMap_singleton,
              Relation.foldl_enter initial]
          rw [List.foldl_cons, ih later (by rw [relations]; exact distinct)
            fun other member => range other (List.mem_cons_of_mem _ member)]
          exact add_report_of_clean code first initial (range stated List.mem_cons_self)

/-- **Nothing is reported about statements with distinct names and numerals in range.** -/
theorem ofText_report_of_clean {code : List Char} {statements : List Statement}
    (held : (Segment.all code).map Segment.statement? = statements.map some)
    (distinct : ((statements.flatMap Statement.relations).map Relation.name).Nodup)
    (range : ∀ stated ∈ statements, stated.inRange = true) (symbols : SymbolTable)
    (report : ErrorReport) (debug : DebugReport) :
    (ofText code symbols report debug).report = report := by
  have start : (TranslationUnit.mk .empty symbols report debug []).program.relations = [] := rfl
  rw [ofText_report]
  refine foldl_report_of_clean code held ?_ range
  rwa [start, List.nil_append]

end TranslationUnit

end Datalog
