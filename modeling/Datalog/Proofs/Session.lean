import Datalog.Proofs.Acceptance
import Datalog.Proofs.Seam.Lines
import Datalog.Proofs.TranslationUnit.Tally
import Mathlib.Algebra.Ring.Nat

/-!
# Sessions and texts

A session that takes lines one by one comes to what the joined lines come to when
they are read as one text (`Session.lines_as_one_text`).  The reason is that appending
the unit of a line to the program of a session is reading on from that program: the
tally of what is merged (`Tally.merge`) takes in statements as the unit alone does
(`Tally.take_merge`).
-/

set_option autoImplicit false

namespace Datalog

open Grammar

/-! ## Merged tallies -/

namespace Tally

/-- A tally with another one behind it, which was begun with the symbols of the first
one.  A name that was there in front of both is an error. -/
def merge (base tally : Tally) : Tally where
  relations := tally.relations.foldl Relation.enter base.relations
  clauses := base.clauses ++ tally.clauses
  symbols := tally.symbols
  quiet := tally.quiet
  errors := base.errors + tally.errors + tally.relations.countP (Relation.namedIn base.relations)
  warnings := base.warnings + tally.warnings

/-- **Taking in a statement behind a tally is taking it in and merging.** -/
theorem take_merge (base tally : Tally) (stated? : Option Statement) :
    (base.merge tally).take stated? = base.merge (tally.take stated?) := by
  rcases stated? with _ | declared | spelled
  · simp only [take, merge]
    congr 1
    omega
  · simp only [take, declare, merge]
    have names := Relation.countP_foldl_enter base.relations tally.relations declared.relations
    congr 1
    · exact (Relation.foldl_enter_foldl _ _ _).symm
    · omega
    · exact Nat.add_assoc _ _ _
  · simp only [take, state, merge, List.append_assoc]
    congr 1
    omega

theorem foldl_take_merge (base tally : Tally) (statements : List (Option Statement)) :
    statements.foldl take (base.merge tally) = base.merge (statements.foldl take tally) := by
  induction statements generalizing tally with
  | nil => rfl
  | cons stated? rest ih => rw [List.foldl_cons, take_merge, ih, List.foldl_cons]

theorem foldl_take_quiet (tally : Tally) (statements : List (Option Statement)) :
    (statements.foldl take tally).quiet = tally.quiet := by
  induction statements generalizing tally with
  | nil => rfl
  | cons stated? rest ih => rcases stated? with _ | declared | spelled <;> exact ih _

end Tally

/-! ## Units that are merged -/

namespace Session

theorem mergeRelation_tally (unit : TranslationUnit) (relation : Relation) :
    (mergeRelation unit relation).tally =
      { unit.tally with
        relations := Relation.enter unit.tally.relations relation
        errors := unit.tally.errors +
          if Relation.namedIn unit.tally.relations relation then 1 else 0 } := by
  by_cases named : Relation.namedIn unit.tally.relations relation = true
  · have present : relation.name ∈ unit.tally.relations.map Relation.name :=
      Relation.namedIn_iff.mp named
    rw [mergeRelation, Program.appendRelation_of_present present, if_pos named, Relation.enter,
      if_pos present]
    exact unit.tally_addError _ none
  · have absent : relation.name ∉ unit.tally.relations.map Relation.name :=
      mt Relation.namedIn_iff.mpr named
    obtain ⟨grown, appended, relations, clauses⟩ := Program.appendRelation_of_absent absent
    rw [mergeRelation, appended, if_neg named, Relation.enter, if_neg absent]
    dsimp only
    rw [TranslationUnit.tally_note, TranslationUnit.tally, relations, Program.clauseList, clauses]
    rfl

/-- Relations with distinct names are entered, or are errors if they were there before. -/
theorem foldl_mergeRelation_tally (unit : TranslationUnit) {relations : List Relation}
    (distinct : (relations.map Relation.name).Nodup) :
    (relations.foldl mergeRelation unit).tally =
      { unit.tally with
        relations := relations.foldl Relation.enter unit.tally.relations
        errors := unit.tally.errors +
          relations.countP (Relation.namedIn unit.tally.relations) } := by
  induction relations generalizing unit with
  | nil => rfl
  | cons relation rest ih =>
      rw [List.map_cons, List.nodup_cons] at distinct
      have others : rest.countP (Relation.namedIn (Relation.enter unit.tally.relations relation)) =
          rest.countP (Relation.namedIn unit.tally.relations) := by
        refine List.countP_congr fun other member => ?_
        have apart : other.name ≠ relation.name := fun same =>
          distinct.1 (same ▸ List.mem_map_of_mem member)
        have entered := Relation.mem_names_foldl_enter unit.tally.relations [relation] other.name
        rw [List.map_singleton, List.mem_singleton, or_iff_left apart] at entered
        rw [Relation.namedIn_iff, Relation.namedIn_iff]
        exact entered
      rw [List.foldl_cons, ih _ distinct.2, mergeRelation_tally, others, List.countP_cons,
        Nat.add_comm (rest.countP _), ← Nat.add_assoc]
      rfl

theorem foldl_mergeClause_tally (unit : TranslationUnit) (clauses : List InternedClause) :
    (clauses.foldl mergeClause unit).tally =
      { unit.tally with clauses := unit.tally.clauses ++ clauses } := by
  induction clauses generalizing unit with
  | nil => rw [List.append_nil]; rfl
  | cons clause rest ih =>
      have first : (mergeClause unit clause).tally =
          { unit.tally with clauses := unit.tally.clauses ++ [clause] } :=
        congrArg (fun clauses => { unit.tally with clauses := clauses })
          (Program.clauseList_appendClause unit.program clause)
      rw [List.foldl_cons, ih, first, List.append_assoc]
      rfl

/-- **The unit of a line is merged as its tally is.** -/
theorem merge_tally (program : Program) (unit : TranslationUnit) :
    (merge program unit).tally =
      Tally.merge
        { relations := program.relations, clauses := program.clauseList, symbols := unit.symbols }
        unit.tally := by
  rw [merge, foldl_mergeClause_tally, foldl_mergeRelation_tally _ unit.program.distinct]
  simp only [Tally.merge, TranslationUnit.tally, Nat.zero_add]

/-! ## Lines that are entered -/

/-- The unit of a line, with the program of the session in front of it. -/
def unitOf (preferences : Preferences) (session : Session) (line : List Char) : TranslationUnit :=
  merge session.program (preferences.unitOf (Text.trim line) session.symbols)

/-- A line that is no command leaves the program and the table of its unit, and its
report is printed. -/
theorem enter_of_read (preferences : Preferences) (session : Session) {line : List Char}
    (read : Text.trim line ∉ [".print".toList, ".clear".toList]) :
    (session.enter preferences line).session =
        ⟨(session.unitOf preferences line).symbols, (session.unitOf preferences line).program⟩ ∧
      ∃ debug, (session.enter preferences line).output =
        (session.unitOf preferences line).report.render ++ debug := by
  have request : Request.ofLine line = .read (Text.trim line) := by
    rw [List.mem_cons, List.mem_singleton, not_or] at read
    rw [Request.ofLine, if_neg read.1, if_neg read.2]
  rw [enter, request]
  exact ⟨rfl, _, rfl⟩

/-- The session behind lines that are entered one after the other. -/
def enterAll (preferences : Preferences) (session : Session) : List (List Char) → Session
  | [] => session
  | line :: rest => (session.enter preferences line).session.enterAll preferences rest

/-- The units of lines that are entered one after the other. -/
def unitsOf (preferences : Preferences) (session : Session) :
    List (List Char) → List TranslationUnit
  | [] => []
  | line :: rest =>
    session.unitOf preferences line ::
      (session.enter preferences line).session.unitsOf preferences rest

/-- What a session holds, with numbers of errors and warnings. -/
def tally (preferences : Preferences) (session : Session) (errors warnings : Nat) : Tally where
  relations := session.program.relations
  clauses := session.program.clauseList
  symbols := session.symbols
  quiet := preferences.quiet
  errors := errors
  warnings := warnings

/-- A session holds behind a line what its tally comes to with the segments of the
line taken in. -/
theorem enter_tally (preferences : Preferences) (session : Session) {line : List Char}
    (read : Text.trim line ∉ [".print".toList, ".clear".toList]) (errors warnings : Nat) :
    ((Segment.all (Text.trim line)).map Segment.statement?).foldl Tally.take
        (session.tally preferences errors warnings) =
      (session.enter preferences line).session.tally preferences
        (errors + (session.unitOf preferences line).report.errors)
        (warnings + (session.unitOf preferences line).report.warnings) := by
  let fresh : Tally := { symbols := session.symbols, quiet := preferences.quiet }
  have alone : (preferences.unitOf (Text.trim line) session.symbols).tally =
      ((Segment.all (Text.trim line)).map Segment.statement?).foldl Tally.take fresh :=
    preferences.unitOf_tally _ _
  have quiet : (preferences.unitOf (Text.trim line) session.symbols).tally.quiet =
      preferences.quiet := by
    rw [alone, Tally.foldl_take_quiet]
  have start : (session.tally preferences errors warnings).merge fresh =
      session.tally preferences errors warnings := by
    simp [tally, Tally.merge, fresh]
  have merged : (session.unitOf preferences line).tally = _ :=
    merge_tally session.program (preferences.unitOf (Text.trim line) session.symbols)
  have behind : (session.tally preferences errors warnings).merge
        (preferences.unitOf (Text.trim line) session.symbols).tally =
      (session.enter preferences line).session.tally preferences
        (errors + (session.unitOf preferences line).report.errors)
        (warnings + (session.unitOf preferences line).report.warnings) := by
    rw [(enter_of_read preferences session read).1]
    change _ = Tally.mk (session.unitOf preferences line).tally.relations
      (session.unitOf preferences line).tally.clauses
      (session.unitOf preferences line).tally.symbols _
      (errors + (session.unitOf preferences line).tally.errors)
      (warnings + (session.unitOf preferences line).tally.warnings)
    rw [merged, Tally.merge, Tally.merge, quiet]
    simp only [tally, Nat.add_assoc, Nat.zero_add]
  rw [← behind, alone, ← Tally.foldl_take_merge, start]

/-- **A session holds behind lines what their segments come to.** -/
theorem enterAll_tally (preferences : Preferences) (session : Session) {lines : List (List Char)}
    (read : ∀ line ∈ lines, Text.trim line ∉ [".print".toList, ".clear".toList])
    (errors warnings : Nat) :
    ((lines.flatMap fun line => Segment.all (Text.trim line)).map Segment.statement?).foldl
        Tally.take (session.tally preferences errors warnings) =
      (session.enterAll preferences lines).tally preferences
        (errors + ((session.unitsOf preferences lines).map (·.report.errors)).sum)
        (warnings + ((session.unitsOf preferences lines).map (·.report.warnings)).sum) := by
  induction lines generalizing session errors warnings with
  | nil => rfl
  | cons line rest ih =>
      have first := session.enter_tally preferences (read line List.mem_cons_self) errors warnings
      have others := ih (session.enter preferences line).session
        (fun line member => read line (List.mem_cons_of_mem _ member))
        (errors + (session.unitOf preferences line).report.errors)
        (warnings + (session.unitOf preferences line).report.warnings)
      rw [List.flatMap_cons, List.map_append, List.foldl_append, first, others, unitsOf,
        List.map_cons, List.sum_cons, List.map_cons, List.sum_cons, Nat.add_assoc, Nat.add_assoc]
      rfl

/-- **A session takes lines as their text is taken.**  Lines none of which is a command
or has a syntax error leave the relations, the clauses and the symbols of the text that
they make when they are joined; and there are as many errors and as many warnings about
them as there are about that text. -/
theorem lines_as_one_text (preferences : Preferences) (key : Nat) {lines : List (List Char)}
    (read : ∀ line ∈ lines, Text.trim line ∉ [".print".toList, ".clear".toList])
    (accepted : ∀ line ∈ lines,
      ∀ diagnostic ∈ (preferences.unitOf (Text.trim line) (.empty key)).report.diagnostics,
        diagnostic.isSyntaxError = false) :
    let start : Session := { symbols := .empty key }
    let session := start.enterAll preferences lines
    let units := start.unitsOf preferences lines
    let unit := preferences.unitOf (['\n'].intercalate (lines.map Text.trim)) (.empty key)
    session.program.relations = unit.program.relations ∧
      session.program.clauseList = unit.program.clauseList ∧
      session.symbols = unit.symbols ∧
      (units.map fun unit => unit.report.errors).sum = unit.report.errors ∧
      (units.map fun unit => unit.report.warnings).sum = unit.report.warnings := by
  intro start session units unit
  have entered := start.enterAll_tally preferences read 0 0
  rw [Nat.zero_add, Nat.zero_add] at entered
  have derived : ∀ line ∈ lines.map Text.trim, ∃ trees, DerivesStatements line trees := by
    intro line member
    obtain ⟨line, listed, rfl⟩ := List.mem_map.mp member
    exact preferences.derives_of_accepted (accepted line listed)
  have joined : (Segment.all (['\n'].intercalate (lines.map Text.trim))).map Segment.meaning? =
      (lines.flatMap fun line => Segment.all (Text.trim line)).map Segment.meaning? := by
    rw [List.map_flatMap]
    exact (meanings_joined derived).trans (List.flatMap_map _ _ _)
  have together : unit.tally = session.tally preferences
      (units.map (·.report.errors)).sum (units.map (·.report.warnings)).sum := by
    rw [preferences.unitOf_tally, Tally.foldl_take_congr _ joined]
    exact entered
  refine ⟨?_, ?_, ?_, ?_, ?_⟩
  · exact (congrArg Tally.relations together).symm
  · exact (congrArg Tally.clauses together).symm
  · exact (congrArg Tally.symbols together).symm
  · exact (congrArg Tally.errors together).symm
  · exact (congrArg Tally.warnings together).symm

/-- A relation that is listed twice and declared again, a clause whose head is named
as a representation is, and a numeral out of range. -/
def redeclaringLines : List (List Char) :=
  [" .decl A, A(x: number)".toList, "btree(1, \"s\"). // .decl A()".toList,
    ".decl B, A() brie\t".toList, "A(9223372036854775808). B(\"t\").".toList]

/-- The units of these lines. -/
def redeclaringUnits : List TranslationUnit :=
  unitsOf {} { symbols := .empty 0 } redeclaringLines

theorem lines_as_one_text_redeclaring :
    redeclaringUnits.map (fun unit => unit.report.errors) = [0, 0, 1, 1] ∧
      redeclaringUnits.map (fun unit => unit.report.warnings) = [1, 0, 0, 0] ∧
      let text := ['\n'].intercalate (redeclaringLines.map Text.trim)
      let unit := Preferences.unitOf {} text (.empty 0)
      unit.report.errors = 2 ∧ unit.report.warnings = 1 ∧
        unit.program.clauseList =
          (enterAll {} { symbols := .empty 0 } redeclaringLines).program.clauseList := by
  have errors : redeclaringUnits.map (fun unit => unit.report.errors) = [0, 0, 1, 1] := by
    decide +kernel
  have warnings : redeclaringUnits.map (fun unit => unit.report.warnings) = [1, 0, 0, 0] := by
    decide +kernel
  obtain ⟨-, clauses, -, errors', warnings'⟩ :=
    @lines_as_one_text {} 0 redeclaringLines (by decide +kernel) (by decide +kernel)
  rw [← redeclaringUnits, errors] at errors'
  rw [← redeclaringUnits, warnings] at warnings'
  exact ⟨errors, warnings, errors'.symm, warnings'.symm, clauses.symm⟩

end Session

end Datalog
