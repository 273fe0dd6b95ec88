import Datalog.CommandLine.Run
import Datalog.Proofs.Printer.Derived
import Datalog.Proofs.RoundTrip

/-!
# The canonical text is a fixed point

The program of any text at all is well formed, so it is read back from its
canonical text: whatever was dropped, passed over or written in an unusual way is
gone after one step, and a second step changes nothing
(`canonical_text_fixed_point`).  The same holds for runs of the command line that
format a file.  What such a run prints, if it succeeds, is printed again by a run
on that output, which has nothing to report.
-/

set_option autoImplicit false

namespace Datalog

/-! ## Texts -/

/-- The program of any text is read back from its text. -/
theorem Preferences.unitOf_readsBack (preferences preferences' : Preferences) (code : List Char)
    (symbols : SymbolTable) {table : Nat} (new : table ≠ symbols.key) :
    ReadsBackAs
      (preferences'.unitOf (preferences.unitOf code symbols).program.print.toList (.empty table))
      (preferences.unitOf code symbols).program := by
  have wellFormed := TranslationUnit.ofText_wellFormed code symbols { quiet := preferences.quiet }
    { enabled := preferences.debug }
  have owned := (preferences.unitOf_holds code symbols).owned
  exact Program.readsBack_of_owned wellFormed owned new preferences'

/-! ## Runs -/

namespace CommandLine

/-- The arguments ask for the file with the given path to be formatted. -/
structure AsksFor (arguments : List String) (options : Options) (path : String) : Prop where
  taken : Options.ofArguments arguments = .ok options
  input : options.input? = some path

/-- What such a run does is decided by the file. -/
theorem AsksFor.run_eq {arguments : List String} {options : Options} {path : String}
    (asks : AsksFor arguments options path) (directives? : Option String)
    (readFile : String → Except ReadError ByteArray) (input : ByteArray) :
    run arguments directives? readFile input =
      formatFile options (options.filter directives?) path (readFile path) := by
  rw [run, asks.taken]
  simp only [asks.input]

theorem decode_toUTF8 (text : String) : decode text.toUTF8 = .ok text := by
  have valid : text.toUTF8.IsValidUTF8 := text.isValidUTF8
  have decoded : String.fromUTF8? text.toUTF8 = some text := by
    rw [String.fromUTF8?, dif_pos valid]
    rfl
  rw [decode, decoded]

theorem formatFile_of_text (options : Options) (filter : LogFilter) (path text : String) :
    formatFile options filter path (.ok text.toUTF8) = formatText options filter path text := by
  have read : (Except.ok text.toUTF8 : Except ReadError ByteArray).bind decode = .ok text :=
    decode_toUTF8 text
  rw [formatFile, read]

/-- The unit of a file's text. -/
def unitOf (options : Options) (text : String) : TranslationUnit :=
  options.preferences.unitOf text.toList (.empty 0)

/-- What a run on a file writes besides the program, if it finds no error. -/
def reportOf (options : Options) (filter : LogFilter) (path text : String) : String :=
  filter.log (.inputRead path text.utf8ByteSize :: (unitOf options text).events) ++
    (unitOf options text).report.render ++
      if options.has .debugReport then (unitOf options text).debug.render ++ "\n" else ""

theorem formatText_of_clean {options : Options} {filter : LogFilter} {path text : String}
    (clean : (unitOf options text).report.errors = 0) :
    formatText options filter path text =
      { output := if options.has .check then "" else (unitOf options text).program.print
        errors := reportOf options filter path text } :=
  if_pos clean

theorem formatText_code_ne {options : Options} {filter : LogFilter} {path text : String}
    (errors : (unitOf options text).report.errors ≠ 0) :
    (formatText options filter path text).code = 1 := by
  rw [formatText]
  exact congrArg Outcome.code (if_neg errors)

/-- What a run prints that succeeds is the text of a well-formed program.  A run
that only checks prints the text of the program without statements. -/
theorem output_of_success {options : Options} {filter : LogFilter} {path : String}
    {contents : Except ReadError ByteArray}
    (success : (formatFile options filter path contents).code = 0) :
    ∃ program : Program, program.wellFormed = true ∧
      (formatFile options filter path contents).output = program.print := by
  unfold formatFile at success ⊢
  split at success
  · next text read =>
    by_cases clean : (unitOf options text).report.errors = 0
    · rw [formatText_of_clean clean]
      by_cases checking : options.has .check = true
      · exact ⟨.empty, by decide, if_pos checking⟩
      · exact ⟨_, TranslationUnit.ofText_wellFormed _ _ _ _, if_neg checking⟩
    · rw [formatText_code_ne clean] at success
      cases success
  · cases success

/-- A run on the text of a well-formed program prints it, and has nothing to report
on it. -/
theorem formatText_print {program : Program} (wellFormed : program.wellFormed = true)
    {options : Options} (printing : options.has .check = false) (filter : LogFilter)
    (path : String) :
    (unitOf options program.print).report.diagnostics = [] ∧
      formatText options filter path program.print =
        { output := program.print, errors := reportOf options filter path program.print } := by
  obtain ⟨unremarked, holds⟩ := Program.unitOf_print wellFormed options.preferences (.empty 0)
  have clean : (unitOf options program.print).report.errors = 0 := by
    rw [ErrorReport.errors, ErrorReport.count, unitOf, unremarked, List.countP_nil]
  have same : (unitOf options program.print).program.print = program.print :=
    Program.print_eq_of_same holds.relations holds.contents
  refine ⟨unremarked, ?_⟩
  rw [formatText_of_clean clean, same, printing]
  rfl

/-- No event is important enough for a log that nobody asked for. -/
theorem log_ofVerbosity_zero (events : List Event) :
    LogFilter.log (.ofVerbosity 0) events = "" := by
  have none : events.filter (LogFilter.admits (.ofVerbosity 0)) = [] := by
    rw [List.filter_eq_nil_iff]
    rintro event -
    cases event <;> simp [LogFilter.admits, LogFilter.decisive?, LogFilter.ofVerbosity,
      Directive.concerns, passes, Event.level, Level.rank]
  rw [LogFilter.log, none]
  rfl

/-- A run that only reads and prints says nothing besides the program when it has
nothing to report. -/
theorem reportOf_of_plain {options : Options} {path text : String}
    (quiet : options.verbosity = 0) (plain : options.has .debugReport = false)
    (unremarked : (unitOf options text).report.diagnostics = []) :
    reportOf options (options.filter none) path text = "" := by
  have filter : options.filter none = .ofVerbosity 0 := congrArg LogFilter.ofVerbosity quiet
  have silent : (unitOf options text).report.render = "" := by
    rw [ErrorReport.render, unremarked]
    rfl
  rw [reportOf, filter, log_ofVerbosity_zero, silent, plain]
  rfl

/-- An outcome that prints a text and reports nothing about it: the log that the
options and the directives ask for and the debug report are all there is. -/
structure Outcome.Prints (outcome : Outcome) (options : Options) (directives? : Option String)
    (path text : String) : Prop where
  output : outcome.output = text
  code : outcome.code = 0
  unremarked : (unitOf options text).report.diagnostics = []
  errors : outcome.errors = reportOf options (options.filter directives?) path text
  silent : directives? = none → options.verbosity = 0 → options.has .debugReport = false →
    outcome.errors = ""

/-- A run on what a successful run printed prints it again. -/
theorem run_prints {arguments arguments' : List String} {options options' : Options}
    {path path' : String} (asks : AsksFor arguments options path)
    (asks' : AsksFor arguments' options' path') (printing : options'.has .check = false)
    {directives? : Option String} (directives'? : Option String)
    {readFile readFile' : String → Except ReadError ByteArray} {input : ByteArray}
    (input' : ByteArray) (success : (run arguments directives? readFile input).code = 0)
    (kept : readFile' path' = .ok (run arguments directives? readFile input).output.toUTF8) :
    (run arguments' directives'? readFile' input').Prints options' directives'? path'
      (run arguments directives? readFile input).output := by
  rw [asks.run_eq] at success kept ⊢
  rw [asks'.run_eq, kept]
  obtain ⟨program, wellFormed, output⟩ := output_of_success success
  rw [output, formatFile_of_text]
  obtain ⟨unremarked, outcome⟩ :=
    formatText_print wellFormed printing (options'.filter directives'?) path'
  rw [outcome]
  refine ⟨rfl, rfl, unremarked, rfl, ?_⟩
  rintro rfl quiet plain
  exact reportOf_of_plain quiet plain unremarked

end CommandLine

open CommandLine

/-- **The canonical text is a fixed point.**  Whatever a text is and whatever table
it is read with, its program is well formed and is read back from its text.  And a
run of the command line on what a successful run printed prints it again, with
nothing to report. -/
theorem canonical_text_fixed_point :
    (∀ (preferences preferences' : Preferences) (code : List Char) (symbols : SymbolTable)
        (table : Nat), table ≠ symbols.key →
      (preferences.unitOf code symbols).program.wellFormed = true ∧
        ReadsBackAs
          (preferences'.unitOf (preferences.unitOf code symbols).program.print.toList
            (.empty table))
          (preferences.unitOf code symbols).program) ∧
    (∀ (arguments arguments' : List String) (options options' : Options) (path path' : String)
        (directives? directives'? : Option String)
        (readFile readFile' : String → Except ReadError ByteArray) (input input' : ByteArray),
      AsksFor arguments options path → AsksFor arguments' options' path' →
      options'.has .check = false → (run arguments directives? readFile input).code = 0 →
      readFile' path' = .ok (run arguments directives? readFile input).output.toUTF8 →
        (run arguments' directives'? readFile' input').Prints options' directives'? path'
          (run arguments directives? readFile input).output) := by
  constructor
  · intro preferences preferences' code symbols table new
    exact ⟨TranslationUnit.ofText_wellFormed _ _ _ _,
      preferences.unitOf_readsBack preferences' code symbols new⟩
  · intro arguments arguments' options options' path path' directives? directives'?
      readFile readFile' input input' asks asks' printing success kept
    exact run_prints asks asks' printing directives'? input' success kept

/-- What is no statement is gone after one step, and so are leading zeros and the
sign of zero. -/
theorem canonical_text_fixed_point_kept :
    (({} : Preferences).unitOf "a(max x : b(x, 007)) :- b(_, -00). c(.".toList
        (.empty 0)).program.wellFormed = true ∧
      (run ["kept.dl"] none (fun _ => .ok "a(max x : b(x,7)) :- b(_,0).\n".toUTF8) .empty).Prints
        { input? := some "kept.dl" } none "kept.dl" "a(max x : b(x,7)) :- b(_,0).\n" := by
  have success : (run ["file.dl"] none (fun _ => .ok "a(max x : b(x, 007)) :- b(_, -00).".toUTF8)
      .empty).code = 0 := by decide +kernel
  have output : (run ["file.dl"] none (fun _ => .ok "a(max x : b(x, 007)) :- b(_, -00).".toUTF8)
      .empty).output = "a(max x : b(x,7)) :- b(_,0).\n" := by decide +kernel
  refine ⟨(canonical_text_fixed_point.1 {} {} _ (.empty 0) 1 (by decide)).1, ?_⟩
  rw [← output]
  exact canonical_text_fixed_point.2 ["file.dl"] ["kept.dl"] { input? := some "file.dl" } _
    "file.dl" _ none none (fun _ => .ok "a(max x : b(x, 007)) :- b(_, -00).".toUTF8) _ .empty .empty
    ⟨by decide, rfl⟩ ⟨by decide, rfl⟩ rfl success rfl

end Datalog
