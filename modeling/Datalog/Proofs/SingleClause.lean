import Datalog.Proofs.Acceptance
import Datalog.Proofs.Accounting
import Datalog.Proofs.Isolation.Places
import Datalog.Proofs.Text.Place

/-!
# A single clause and a text with one statement

A clause can be read by itself, or as the only statement of a text.  Both ways of
reading agree (`single_clause_agrees_with_unit`).  A text is a single clause exactly if
it falls into one segment, which is that clause (`Grammar.read_singleClause_iff`): the
layout at its two ends is passed over alike, and where a clause can be read no
declaration can.  The unit of such a text is told by the interning of the clause.  The
other way round, a unit without a remark, without relations and with one clause comes
from a text with one segment, because a declaration would have left a relation, and
everything else that leaves no clause is an error.
-/

set_option autoImplicit false

namespace Datalog

/-! ## One segment -/

namespace Grammar

open Phrase

/-- Where a clause is read, no declaration is. -/
theorem read_statement_clause_iff (text : List Char) (spelled : SpelledClause)
    (rest : List Char) :
    statement.read text = some (.clause spelled, rest) ↔
      clause.read text = some (spelled, rest) := by
  rw [statement, read_named, read_orElse_iff, read_map_iff, read_map_iff]
  constructor
  · rintro (⟨declared, -, same⟩ | ⟨-, spelled', read, same⟩)
    · cases same
    · cases same
      exact read
  · intro read
    obtain ⟨tree, derives, -⟩ := clause_sound read
    obtain ⟨name, mark, word, -⟩ := derives.opens
    exact .inr ⟨by rw [read_map, declaration_refuses word]; rfl, spelled, read, rfl⟩

/-- A single clause has layout around it. -/
theorem read_singleClause (text : List Char) (spelled : SpelledClause) :
    (∃ rest, singleClause.read text = some (spelled, rest)) ↔
      ∃ stop, nextStatement.read text = some (.clause spelled, stop) ∧ skip stop = [] := by
  have whole (rest : List Char) : singleClause.read text = some (spelled, rest) ↔
      ∃ stop ends, clause.read (skip text) = some (spelled, stop) ∧
        Phrase.endOfInput.read (skip stop) = some (ends, rest) :=
    read_seqLeft_iff clause .endOfInput (skip text) spelled rest
  have finished (stop : List Char) : Phrase.endOfInput.read stop =
      if stop.isEmpty then some ((), stop) else none := rfl
  simp only [whole, finished, read_nextStatement, read_statement_clause_iff]
  constructor
  · rintro ⟨rest, stop, ends, read, ended⟩
    split at ended
    next empty => exact ⟨stop, read, List.isEmpty_iff.mp empty⟩
    next => cases ended
  · rintro ⟨stop, read, ended⟩
    exact ⟨[], stop, (), read, by rw [ended]; rfl⟩

/-- **A single clause is a text with one segment.** -/
theorem read_singleClause_iff (text : List Char) (spelled : SpelledClause) :
    (∃ rest, singleClause.read text = some (spelled, rest)) ↔
      (Segment.all text).map Segment.statement? = [some (.clause spelled)] := by
  rw [read_singleClause]
  constructor
  · rintro ⟨stop, read, ended⟩
    rw [Segment.all_eq_cons (Segment.skip_ne_nil_of_read read), Segment.next_of_read read,
      Segment.all_of_skip_eq_nil ended]
    rfl
  · intro held
    by_cases done : skip text = []
    · rw [Segment.all_of_skip_eq_nil done] at held
      cases held
    rw [Segment.all_eq_cons done, List.map_cons, List.cons.injEq, List.map_eq_nil_iff] at held
    obtain ⟨first, others⟩ := held
    have ended : skip (Segment.next text).2 = [] := by
      by_contra more
      rw [Segment.all_eq_cons more] at others
      cases others
    cases read : nextStatement.read text with
    | none =>
        rw [Segment.next_of_refused read] at first
        cases first
    | some found =>
        obtain ⟨stated, stop⟩ := found
        rw [Segment.next_of_read read] at first ended
        obtain rfl := Option.some.inj first
        exact ⟨stop, rfl, ended⟩

end Grammar

open Grammar

/-! ## The unit of a text with one segment -/

/-- What is read as a single clause is interned. -/
theorem parseClause_of_read {code rest : List Char} {spelled : SpelledClause}
    (read : singleClause.read code = some (spelled, rest)) (table : SymbolTable) :
    parseClause code table =
      ((spelled.intern.runFrom table).1.mapError .outOfRange,
        (spelled.intern.runFrom table).2) := by
  rw [parseClause, Phrase.parse, read]

/-- What is not read as a single clause is malformed. -/
theorem parseClause_of_refused {code : List Char} (refused : singleClause.read code = none)
    (table : SymbolTable) :
    parseClause code table = (.error (.malformed (singleClause.fault code)), table) := by
  rw [parseClause, Phrase.parse, refused]

/-- A text with one segment that is a clause comes to what the clause comes to. -/
theorem Preferences.unitOf_of_clause (preferences : Preferences) {code : List Char}
    {spelled : SpelledClause}
    (held : (Segment.all code).map Segment.statement? = [some (.clause spelled)])
    (table : SymbolTable) :
    preferences.unitOf code table =
      (TranslationUnit.addClause code spelled
        { symbols := table, report := { quiet := preferences.quiet },
          debug := { enabled := preferences.debug } }).close := by
  obtain ⟨segment, rest, all, first, others⟩ := List.map_eq_cons_iff.mp held
  obtain rfl := List.map_eq_nil_iff.mp others
  rw [unitOf, TranslationUnit.ofText, all, List.foldl_cons, List.foldl_nil]
  obtain ⟨begins, ends, reading⟩ := segment
  cases reading with
  | malformed fault => cases first
  | statement start stated =>
      obtain rfl := Option.some.inj first
      rfl

section OneSegment

variable (preferences : Preferences) {code : List Char} {spelled : SpelledClause}
  {table final : SymbolTable}

/-- The unit of a clause that is interned holds that clause, and nothing is reported. -/
theorem Preferences.unitOf_of_interned {clause : InternedClause}
    (held : (Segment.all code).map Segment.statement? = [some (.clause spelled)])
    (run : spelled.intern.runFrom table = (.ok clause, final)) :
    (preferences.unitOf code table).program = (Program.empty.appendClause clause).2 ∧
      (preferences.unitOf code table).symbols = final ∧
      (preferences.unitOf code table).report.diagnostics = [] := by
  rw [preferences.unitOf_of_clause held, TranslationUnit.addClause, run]
  exact ⟨rfl, rfl, rfl⟩

/-- The unit of a clause with a numeral out of range is empty, and the numeral is all
that is reported. -/
theorem Preferences.unitOf_of_rejected {numeral : Numeral}
    (held : (Segment.all code).map Segment.statement? = [some (.clause spelled)])
    (run : spelled.intern.runFrom table = (.error numeral, final)) :
    (preferences.unitOf code table).program = .empty ∧
      (preferences.unitOf code table).symbols = final ∧
      (preferences.unitOf code table).report.diagnostics =
        [⟨.error, (ParseError.outOfRange numeral).message,
          some (.ofPlace code numeral.remaining)⟩] := by
  rw [preferences.unitOf_of_clause held, TranslationUnit.addClause, run]
  exact ⟨rfl, rfl, ErrorReport.diagnostics_addError _ _ _⟩

end OneSegment

/-- The numerals of a single clause stand in its text. -/
theorem Grammar.remaining_le_of_singleClause {code rest : List Char} {spelled : SpelledClause}
    (read : singleClause.read code = some (spelled, rest)) {numeral : Numeral}
    (member : .inl numeral ∈ spelled.constants) : numeral.remaining ≤ code.length := by
  obtain ⟨stop, stated, -⟩ := (read_singleClause code spelled).mp ⟨rest, read⟩
  rw [read_nextStatement, read_statement_clause_iff] at stated
  obtain ⟨tree, derives, rfl⟩ := clause_sound stated
  exact (derives.placedBetween numeral member).2.trans (length_skip_le code)

/-! ## Texts with one clause -/

/-- A declaration lists a name at least. -/
theorem Segment.names_ne_nil {code : List Char} {declared : Declaration}
    (stated : .declaration declared ∈ Segment.statements code) : declared.names ≠ [] := by
  obtain ⟨start, tree, rest, derives, same⟩ := Segment.derives_of_mem_statements code _ stated
  have listed {text stop : List Char} {names : List String} {columns : List Attribute}
      (signature : DerivesSignature text names columns stop) : names ≠ [] := by
    cases signature with
    | declared keyword ends front written =>
        cases written with
        | single | more => exact List.cons_ne_nil _ _
  cases derives with
  | clause contents => cases same
  | declaration contents =>
      cases same
      cases contents with
      | unqualified signature => exact listed signature
      | qualified signature => exact listed signature

/-- A text without a relation declares nothing. -/
theorem Segment.not_declaration_of_no_relations {code : List Char}
    (none : denotedRelations (Segment.statements code) = []) (declared : Declaration) :
    .declaration declared ∉ Segment.statements code := by
  intro stated
  obtain ⟨name, listed⟩ := List.exists_mem_of_ne_nil _ (Segment.names_ne_nil stated)
  have known :
      name ∈ ((Segment.statements code).flatMap Statement.relations).map Relation.name := by
    rw [List.map_flatMap]
    refine List.mem_flatMap.mpr ⟨_, stated, ?_⟩
    rwa [Statement.relations, declared.names_relations]
  have entered := (Relation.mem_names_foldl_enter [] _ name).mpr (.inr known)
  rw [← denotedRelations, none] at entered
  cases entered

/-- A unit without an error comes from sound statements alone. -/
theorem Preferences.sound_of_no_errors {preferences : Preferences} {code : List Char}
    {table : SymbolTable} (clean : (preferences.unitOf code table).report.errors = 0) :
    (∀ segment ∈ Segment.all code, segment.isMalformed = false) ∧
      ∀ stated ∈ Segment.statements code, stated.inRange = true := by
  have counted := congrArg Tally.errors (preferences.unitOf_tally code table)
  rw [Tally.errors_foldl_take] at counted
  have none : refusals [] (Segment.all code) = 0 := by
    have zero := counted.symm.trans clean
    exact Nat.eq_zero_of_add_eq_zero_left zero
  rw [refusals, Nat.add_eq_zero_iff, Nat.add_eq_zero_iff, List.countP_eq_zero,
    List.countP_eq_zero] at none
  obtain ⟨⟨malformed, range⟩, -⟩ := none
  exact ⟨fun segment member => by simpa using malformed segment member,
    fun stated member => by simpa using range stated member⟩

/-- Segments that are all sound hold the statements of the text. -/
theorem Segment.map_statement?_of_sound {segments : List Segment}
    (sound : ∀ segment ∈ segments, segment.isMalformed = false) :
    segments.map Segment.statement? = (segments.filterMap Segment.statement?).map some := by
  induction segments with
  | nil => rfl
  | cons segment rest ih =>
      have others := ih fun other member => sound other (List.mem_cons_of_mem _ member)
      have first := sound segment List.mem_cons_self
      cases held : segment.statement? with
      | none => simp [Segment.isMalformed, held] at first
      | some stated =>
          rw [List.map_cons, List.filterMap_cons_some held, List.map_cons, held, others]

/-- **A unit without a remark, without a relation and with one clause comes from one
segment**, which is a clause in range. -/
theorem Preferences.statement_of_one_clause {preferences : Preferences} {code : List Char}
    {table : SymbolTable} {clause : InternedClause}
    (clean : (preferences.unitOf code table).report.diagnostics = [])
    (relations : (preferences.unitOf code table).program.relations = [])
    (clauses : (preferences.unitOf code table).program.clauseList = [clause]) :
    ∃ spelled, (Segment.all code).map Segment.statement? = [some (.clause spelled)] := by
  have errors : (preferences.unitOf code table).report.errors = 0 := by
    rw [ErrorReport.errors, ErrorReport.count, clean, List.countP_nil]
  obtain ⟨sound, range⟩ := preferences.sound_of_no_errors errors
  have holds := preferences.unitOf_holds code table
  have declares := Segment.not_declaration_of_no_relations (holds.relations.symm.trans relations)
  have stated := holds.contents
  rw [clauses, denotedClauses] at stated
  -- Each statement is a clause that is kept, so there cannot be two of them.
  have kept : ∀ stated ∈ Segment.statements code, ∃ spelled : SpelledClause,
      stated = .clause spelled ∧ stated.contents = [spelled.denoted] := by
    intro stated member
    cases stated with
    | declaration declared => exact absurd member (declares declared)
    | clause spelled => exact ⟨spelled, rfl, if_pos (range _ member)⟩
  have held := Segment.map_statement?_of_sound sound
  rw [← Segment.statements] at held
  rw [held]
  cases all : Segment.statements code with
  | nil =>
      rw [all] at stated
      cases stated
  | cons first rest =>
      rw [all] at stated kept
      obtain ⟨spelled, rfl, contents⟩ := kept _ List.mem_cons_self
      rw [List.flatMap_cons, contents] at stated
      have none : [] = rest.flatMap Statement.contents := (List.cons.inj stated).2
      cases rest with
      | nil => exact ⟨spelled, rfl⟩
      | cons second others =>
          obtain ⟨spelled', -, contents'⟩ := kept second (by simp)
          rw [List.flatMap_cons, contents'] at none
          cases none

/-! ## Agreement -/

/-- **A clause that is read by itself and a text with one statement agree.**  A text is
read as a clause exactly if nothing is reported about its unit, and the unit holds no
relation and one clause.  It is the same clause, with the same symbols, and the table
behind it is the same.  If the clause has a numeral out of range the unit holds nothing,
and all it reports is that numeral, at the location of the same offset. -/
theorem single_clause_agrees_with_unit (preferences : Preferences) (code : List Char)
    (table : SymbolTable) :
    let unit := preferences.unitOf code table
    (∀ clause, (parseClause code table).1 = .ok clause ↔
      unit.report.diagnostics = [] ∧ unit.program.relations = [] ∧
        unit.program.clauseList = [clause]) ∧
    (∀ clause, (parseClause code table).1 = .ok clause →
      (parseClause code table).2 = unit.symbols) ∧
    ∀ numeral, (parseClause code table).1 = .error (.outOfRange numeral) →
      unit.program = .empty ∧ (parseClause code table).2 = unit.symbols ∧
        ∃ location, Location.at? code ((ParseError.outOfRange numeral).offset code) =
            some location ∧
          unit.report.diagnostics =
            [⟨.error, (ParseError.outOfRange numeral).message, some location⟩] := by
  intro unit
  cases read : singleClause.read code with
  | none =>
      rw [parseClause_of_refused read]
      refine ⟨fun clause => ⟨fun accepted => (nomatch accepted), ?_⟩,
        fun clause accepted => (nomatch accepted), fun numeral stopped => (nomatch stopped)⟩
      rintro ⟨clean, relations, clauses⟩
      obtain ⟨spelled, held⟩ := preferences.statement_of_one_clause clean relations clauses
      obtain ⟨rest, found⟩ := (read_singleClause_iff code spelled).mpr held
      rw [read] at found
      cases found
  | some found =>
      obtain ⟨spelled, rest⟩ := found
      have held := (read_singleClause_iff code spelled).mp ⟨rest, read⟩
      rw [parseClause_of_read read]
      rcases run : spelled.intern.runFrom table with ⟨numeral | interned, final⟩
      · obtain ⟨program, symbols, diagnostics⟩ := preferences.unitOf_of_rejected held run
        refine ⟨fun clause => ⟨fun accepted => (nomatch accepted), ?_⟩,
          fun clause accepted => (nomatch accepted), fun numeral' stopped => ?_⟩
        · rintro ⟨clean, -⟩
          rw [diagnostics] at clean
          cases clean
        · cases stopped
          exact ⟨program, symbols.symm, _, Location.at?_offset
            (remaining_le_of_singleClause read (Clause.mem_of_intern_error run)), diagnostics⟩
      · obtain ⟨program, symbols, diagnostics⟩ := preferences.unitOf_of_interned held run
        have clauses : unit.program.clauseList = [interned] := by rw [program]; rfl
        refine ⟨fun clause => ⟨fun accepted => ?_, ?_⟩, fun _ _ => symbols.symm,
          fun numeral stopped => (nomatch stopped)⟩
        · cases accepted
          exact ⟨diagnostics, by rw [program]; rfl, clauses⟩
        · rintro ⟨-, -, same⟩
          rw [clauses] at same
          rw [(List.cons.inj same).1]
          rfl

/-- A clause with comments around it, and one with a numeral too large in its second line. -/
theorem single_clause_agrees_with_unit_commented :
    (∃ clause, clause.print = "A(\"s\") :- B(_)." ∧
      (({} : Preferences).unitOf "// x\n A(\"s\") :- B(_). /**/".toList
        (.empty 0)).program.clauseList = [clause]) ∧
      (({} : Preferences).unitOf "A(\"s\",\n 9223372036854775808, \"t\").".toList
        (.empty 0)).report.diagnostics =
        [⟨.error, "number constant 9223372036854775808 is out of range", some ⟨2, 2⟩⟩] := by
  obtain ⟨agree, -⟩ := single_clause_agrees_with_unit {}
    "// x\n A(\"s\") :- B(_). /**/".toList (.empty 0)
  obtain ⟨-, -, rejects⟩ := single_clause_agrees_with_unit {}
    "A(\"s\",\n 9223372036854775808, \"t\").".toList (.empty 0)
  have read : (parseClause "// x\n A(\"s\") :- B(_). /**/".toList (.empty 0)).1.map
      Clause.print = .ok "A(\"s\") :- B(_)." := by decide +kernel
  have refused : (parseClause "A(\"s\",\n 9223372036854775808, \"t\").".toList (.empty 0)).1.map
      Clause.print = .error (.outOfRange ⟨"9223372036854775808".toList, 26⟩) := by decide +kernel
  constructor
  · generalize (parseClause _ _).1 = answer at agree read
    cases answer with
    | error error => cases read
    | ok clause => exact ⟨clause, Except.ok.inj read, ((agree clause).mp rfl).2.2⟩
  · generalize (parseClause _ _).1 = answer at rejects refused
    cases answer with
    | ok clause => cases refused
    | error error =>
        obtain rfl := Except.error.inj refused
        obtain ⟨-, -, location, placed, diagnostics⟩ := rejects _ rfl
        have place : some ⟨2, 2⟩ = some location := Eq.trans (by decide +kernel) placed
        obtain rfl := Option.some.inj place
        rw [diagnostics]
        decide +kernel

end Datalog
