import Datalog.Proofs.Canonical
import Datalog.Proofs.Session

/-!
# Preferences do not interfere

Whoever asks for no warnings, or for a debug report, gets the same program.  Nothing
that is done while a text is being read, or while its unit is merged into a session,
ever looks at what has been reported: a report that is changed in a way that further
diagnostics cannot notice may be changed before or after (`TranslationUnit.recast_add`,
`Session.recast_merge`).  Dropping the warnings is such a change
(`ErrorReport.hushed_add`), and so is replacing the debug report.

From this come the four parts of `preferences_do_not_interfere`: on one text, without
warnings and with another debug report, on the lines of a session, and on runs of the
command line that format a file.
-/

set_option autoImplicit false

namespace Datalog

/-! ## Reports without warnings -/

namespace ErrorReport

/-- What is left of a report for a reader who does not want warnings. -/
def hushed (report : ErrorReport) : ErrorReport where
  diagnostics := report.diagnostics.filter fun diagnostic => diagnostic.severity == .error
  quiet := true

/-- **Warnings may be dropped as they arrive or afterwards.** -/
theorem hushed_add (report : ErrorReport) (diagnostic : Diagnostic) :
    (report.add diagnostic).hushed = report.hushed.add diagnostic := by
  obtain ⟨severity, message, location?⟩ := diagnostic
  cases severity with
  | error => simp [add, hushed]
  | warning => cases quiet : report.quiet <;> simp [add, hushed, quiet]

theorem errors_hushed (report : ErrorReport) : report.hushed.errors = report.errors := by
  rw [errors, errors, count, count, hushed, List.countP_filter]
  simp only [Bool.and_self]

end ErrorReport

/-! ## Units with other reports -/

namespace TranslationUnit

/-- A unit with its report changed and its debug report replaced. -/
def recast (change : ErrorReport → ErrorReport) (debug : DebugReport) (unit : TranslationUnit) :
    TranslationUnit :=
  { unit with report := change unit.report, debug := debug }

section Recast

variable {change : ErrorReport → ErrorReport}
  (blind : ∀ report diagnostic, change (report.add diagnostic) = (change report).add diagnostic)
  (debug : DebugReport)

include blind

theorem recast_addError (unit : TranslationUnit) (message : String)
    (location? : Option Location) :
    (unit.addError message location?).recast change debug =
      (unit.recast change debug).addError message location? :=
  congrArg (fun report => { unit with report := report, debug := debug }) (blind _ _)

theorem recast_addWarning (unit : TranslationUnit) (message : String)
    (location? : Option Location) :
    (unit.addWarning message location?).recast change debug =
      (unit.recast change debug).addWarning message location? :=
  congrArg (fun report => { unit with report := report, debug := debug }) (blind _ _)

theorem recast_declare (location : Location) (unit : TranslationUnit) (relation : Relation) :
    (unit.declare location relation).recast change debug =
      (unit.recast change debug).declare location relation := by
  have program : (unit.recast change debug).program = unit.program := rfl
  rw [declare, declare, program]
  cases unit.program.appendRelation relation with
  | ok grown => rfl
  | error error =>
      exact congrArg (note · [.relationRejected relation.name]) (recast_addError blind debug _ _ _)

theorem recast_declareAll (location : Location) (listed : List String)
    (relations : List Relation) (unit : TranslationUnit) :
    (unit.declareAll location listed relations).recast change debug =
      (unit.recast change debug).declareAll location listed relations := by
  induction relations generalizing listed unit with
  | nil => rfl
  | cons relation rest ih =>
      rw [declareAll, declareAll]
      by_cases again : relation.name ∈ listed
      · rw [if_pos again, if_pos again, ih, recast_addWarning blind]
      · rw [if_neg again, if_neg again, ih, recast_declare blind]

theorem recast_addClause (code : List Char) (spelled : SpelledClause) (unit : TranslationUnit) :
    (unit.addClause code spelled).recast change debug =
      (unit.recast change debug).addClause code spelled := by
  have symbols : (unit.recast change debug).symbols = unit.symbols := rfl
  rw [addClause, addClause, symbols]
  rcases spelled.intern.runFrom unit.symbols with ⟨_ | _, _⟩
  · exact recast_addError blind debug _ _ _
  · rfl

/-- **Taking in a segment does not look at what has been reported.** -/
theorem recast_add (code : List Char) (unit : TranslationUnit) (segment : Segment) :
    (unit.add code segment).recast change debug =
      (unit.recast change debug).add code segment := by
  obtain ⟨begins, ends, reading⟩ := segment
  cases reading with
  | malformed fault => exact recast_addError blind debug _ _ _
  | statement start stated =>
      cases stated with
      | declaration declared => exact recast_declareAll blind debug _ _ _ _
      | clause spelled => exact recast_addClause blind debug _ _ _

theorem recast_foldl_add (code : List Char) (unit : TranslationUnit) (segments : List Segment) :
    (segments.foldl (add code) unit).recast change debug =
      segments.foldl (add code) (unit.recast change debug) :=
  (List.foldl_hom _ fun unit segment => (recast_add blind debug code unit segment).symm).symm

end Recast

/-! ## Whole texts -/

section Texts

variable (code : List Char) (symbols : SymbolTable) (report : ErrorReport) (debug : DebugReport)

/-- Taking in segments leaves the debug report alone. -/
theorem foldl_add_debug (unit : TranslationUnit) (segments : List Segment) :
    (segments.foldl (add code) unit).debug = unit.debug := by
  have alone := @recast_foldl_add id (fun _ _ => rfl) unit.debug code unit segments
  exact (congrArg TranslationUnit.debug alone).symm

/-- **Of a text a reader who wants no warnings is told everything else.** -/
theorem ofText_hushed :
    ofText code symbols report.hushed debug =
      (ofText code symbols report debug).recast ErrorReport.hushed
        (ofText code symbols report debug).debug := by
  have start : recast ErrorReport.hushed debug { symbols, report, debug } =
      { symbols := symbols, report := report.hushed, debug := debug } := rfl
  have taken := recast_foldl_add ErrorReport.hushed_add debug code { symbols, report, debug }
    (Segment.all code)
  rw [ofText, ofText, ← start, ← taken, close, close, recast, foldl_add_debug,
    ErrorReport.errors_hushed]
  rfl

/-- **A debug report that is asked for changes nothing else.** -/
theorem ofText_recast_debug (debug' : DebugReport) :
    ofText code symbols report debug' =
      (ofText code symbols report debug).recast id (ofText code symbols report debug').debug := by
  have start : recast id debug' { symbols, report, debug } =
      { symbols := symbols, report := report, debug := debug' } := rfl
  have taken := @recast_foldl_add id (fun _ _ => rfl) debug' code { symbols, report, debug }
    (Segment.all code)
  rw [ofText, ofText, ← start, ← taken]
  rfl

end Texts

end TranslationUnit

/-- The unit of a text under any preferences is the unit for a reader who wants to be
told as little as can be, apart from the reports. -/
theorem Preferences.unitOf_plain (preferences : Preferences) (code : List Char)
    (symbols : SymbolTable) :
    unitOf { quiet := true } code symbols =
      (preferences.unitOf code symbols).recast ErrorReport.hushed
        (unitOf { quiet := true } code symbols).debug := by
  have hushed := TranslationUnit.ofText_hushed code symbols { quiet := preferences.quiet }
    { enabled := preferences.debug }
  have plain := TranslationUnit.ofText_recast_debug code symbols { quiet := true }
    { enabled := preferences.debug } {}
  rw [unitOf, plain]
  exact congrArg (TranslationUnit.recast id _) hushed

/-- Two units of one text hold the same and have as many errors. -/
theorem Preferences.unitOf_agree (preferences preferences' : Preferences) (code : List Char)
    (symbols : SymbolTable) :
    (preferences'.unitOf code symbols).program = (preferences.unitOf code symbols).program ∧
      (preferences'.unitOf code symbols).report.errors =
        (preferences.unitOf code symbols).report.errors := by
  have plain (preferences : Preferences) := preferences.unitOf_plain code symbols
  have program (preferences : Preferences) := congrArg TranslationUnit.program (plain preferences)
  have errors (preferences : Preferences) :=
    (congrArg (fun unit => unit.report.errors) (plain preferences)).trans
      (ErrorReport.errors_hushed (preferences.unitOf code symbols).report)
  exact ⟨(program preferences').symm.trans (program preferences),
    (errors preferences').symm.trans (errors preferences)⟩

/-! ## Sessions -/

namespace Session

section Merge

variable {change : ErrorReport → ErrorReport}
  (blind : ∀ report diagnostic, change (report.add diagnostic) = (change report).add diagnostic)
  (debug : DebugReport)

include blind

theorem recast_mergeRelation (unit : TranslationUnit) (relation : Relation) :
    (mergeRelation unit relation).recast change debug =
      mergeRelation (unit.recast change debug) relation := by
  have program : (unit.recast change debug).program = unit.program := rfl
  rw [mergeRelation, mergeRelation, program]
  cases unit.program.appendRelation relation with
  | ok grown => rfl
  | error error =>
      exact congrArg (TranslationUnit.note · [.relationRejected relation.name])
        (TranslationUnit.recast_addError blind debug _ _ _)

/-- **Merging a unit does not look at what has been reported.** -/
theorem recast_merge (program : Program) (unit : TranslationUnit) :
    (merge program unit).recast change debug = merge program (unit.recast change debug) := by
  have relations (unit : TranslationUnit) (relations : List Relation) :
      (relations.foldl mergeRelation unit).recast change debug =
        relations.foldl mergeRelation (unit.recast change debug) :=
    (List.foldl_hom _ fun unit relation =>
      (recast_mergeRelation blind debug unit relation).symm).symm
  have clauses (unit : TranslationUnit) (clauses : List InternedClause) :
      (clauses.foldl mergeClause unit).recast change debug =
        clauses.foldl mergeClause (unit.recast change debug) := by
    refine (List.foldl_hom _ fun unit clause => ?_).symm
    rfl
  rw [merge, clauses, relations]
  rfl

end Merge

/-- A line leaves the same session under any preferences. -/
theorem enter_session_eq (preferences preferences' : Preferences) (session : Session)
    (line : List Char) :
    (session.enter preferences' line).session = (session.enter preferences line).session := by
  rw [enter, enter]
  cases Request.ofLine line with
  | print => rfl
  | clear => rfl
  | read code =>
      have plain (preferences : Preferences) :
          (session.answer preferences (.read code)).session =
            (session.answer { quiet := true } (.read code)).session := by
        have merged := recast_merge ErrorReport.hushed_add
          (Preferences.unitOf { quiet := true } code session.symbols).debug session.program
          (preferences.unitOf code session.symbols)
        rw [← preferences.unitOf_plain] at merged
        exact congrArg (fun unit => Session.mk unit.symbols unit.program) merged
      rw [plain, ← plain preferences]

/-- **Lines leave the same session under any preferences.** -/
theorem enterAll_eq (preferences preferences' : Preferences) (session : Session)
    (lines : List (List Char)) :
    session.enterAll preferences' lines = session.enterAll preferences lines := by
  induction lines generalizing session with
  | nil => rfl
  | cons line rest ih =>
      rw [enterAll, enterAll, enter_session_eq preferences preferences', ih]

end Session

/-! ## Runs on a file -/

namespace CommandLine

/-- What a run on a text prints, and its code, do not depend on preferences. -/
theorem formatText_agrees {options options' : Options} (filter filter' : LogFilter)
    (path text : String) (alike : options'.has .check = options.has .check) :
    (formatText options' filter' path text).code = (formatText options filter path text).code ∧
      (formatText options' filter' path text).output =
        (formatText options filter path text).output := by
  obtain ⟨program, errors⟩ :=
    options.preferences.unitOf_agree options'.preferences text.toList (.empty 0)
  rw [formatText, formatText, program, errors, alike]
  split <;> exact ⟨rfl, rfl⟩

/-- What a run on a file prints, and its code, do not depend on preferences. -/
theorem run_agrees {arguments arguments' : List String} {options options' : Options}
    {path : String} (asks : AsksFor arguments options path)
    (asks' : AsksFor arguments' options' path) (alike : options'.has .check = options.has .check)
    (directives? : Option String) (readFile : String → Except ReadError ByteArray)
    (input : ByteArray) :
    (run arguments' directives? readFile input).code =
        (run arguments directives? readFile input).code ∧
      (run arguments' directives? readFile input).output =
        (run arguments directives? readFile input).output := by
  rw [asks.run_eq, asks'.run_eq, formatFile, formatFile]
  cases (readFile path).bind decode with
  | ok text => exact formatText_agrees _ _ path text alike
  | error error => exact ⟨rfl, rfl⟩

end CommandLine

open CommandLine

/-- **Preferences do not interfere.**  On any text, a reader who wants no warnings gets
the same unit without them, and a reader who wants a debug report the same unit with it.
Lines leave the same session under any preferences, and runs on a file that differ in
preferences only print the same with the same code. -/
theorem preferences_do_not_interfere :
    (∀ (code : List Char) (symbols : SymbolTable) (debug : DebugReport),
      let told := TranslationUnit.ofText code symbols { quiet := false } debug
      let hushed := TranslationUnit.ofText code symbols { quiet := true } debug
      hushed.program = told.program ∧ hushed.symbols = told.symbols ∧
        hushed.debug = told.debug ∧ hushed.events = told.events ∧
        hushed.report.diagnostics =
          told.report.diagnostics.filter fun diagnostic => diagnostic.severity == .error) ∧
    (∀ (code : List Char) (symbols : SymbolTable) (report : ErrorReport)
        (debug debug' : DebugReport),
      let unit := TranslationUnit.ofText code symbols report debug
      let unit' := TranslationUnit.ofText code symbols report debug'
      unit'.program = unit.program ∧ unit'.symbols = unit.symbols ∧
        unit'.report = unit.report ∧ unit'.events = unit.events) ∧
    (∀ (preferences preferences' : Preferences) (session : Session) (lines : List (List Char)),
      session.enterAll preferences' lines = session.enterAll preferences lines) ∧
    (∀ (arguments arguments' : List String) (options options' : Options) (path : String)
        (directives? : Option String) (readFile : String → Except ReadError ByteArray)
        (input : ByteArray),
      AsksFor arguments options path → AsksFor arguments' options' path →
      options'.has .check = options.has .check →
      (run arguments' directives? readFile input).code =
          (run arguments directives? readFile input).code ∧
        (run arguments' directives? readFile input).output =
          (run arguments directives? readFile input).output) := by
  refine ⟨fun code symbols debug => ?_, fun code symbols report debug debug' => ?_,
    Session.enterAll_eq, ?_⟩
  · intro told hushed
    have same : hushed = told.recast ErrorReport.hushed told.debug :=
      TranslationUnit.ofText_hushed code symbols { quiet := false } debug
    rw [same]
    exact ⟨rfl, rfl, rfl, rfl, rfl⟩
  · intro unit unit'
    have same : unit' = unit.recast id unit'.debug :=
      TranslationUnit.ofText_recast_debug code symbols report debug debug'
    rw [same]
    exact ⟨rfl, rfl, rfl, rfl⟩
  · intro arguments arguments' options options' path directives? readFile input asks asks' alike
    exact run_agrees asks asks' alike directives? readFile input

/-- A name that is listed twice is a warning, and does not keep the program from being
printed. -/
theorem preferences_do_not_interfere_listed :
    (run ["--no-warn", "twice.dl", "--debug-report"] none
        (fun _ => .ok ".decl A,B,A()".toUTF8) .empty).output = ".decl A,B()\n" ∧
      (run ["--no-warn", "twice.dl", "--debug-report"] none
        (fun _ => .ok ".decl A,B,A()".toUTF8) .empty).code = 0 ∧
      (run ["twice.dl"] none (fun _ => .ok ".decl A,B,A()".toUTF8) .empty).errors =
        "Warning: Relation A listed twice in declaration in line 1:1\n" := by
  have plain : run ["twice.dl"] none (fun _ => .ok ".decl A,B,A()".toUTF8) .empty =
      { output := ".decl A,B()\n"
        errors := "Warning: Relation A listed twice in declaration in line 1:1\n" } := by
    decide +kernel
  obtain ⟨code, output⟩ := preferences_do_not_interfere.2.2.2 ["twice.dl"]
    ["--no-warn", "twice.dl", "--debug-report"] { input? := some "twice.dl" }
    { flags := [.noWarn, .debugReport], input? := some "twice.dl" } "twice.dl" none
    (fun _ => .ok ".decl A,B,A()".toUTF8) .empty
    ⟨by decide, rfl⟩ ⟨by decide, rfl⟩ (by decide)
  rw [plain] at code output ⊢
  exact ⟨output, code, rfl⟩

end Datalog
