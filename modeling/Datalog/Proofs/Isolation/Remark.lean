import Datalog.Proofs.Isolation.Places
import Datalog.TranslationUnit

/-!
# The same remarks about two texts

A segment names its places by the characters that remain there, so it can be taken
in as a segment of any text that ends in the same way.  Taken in as segments of two
texts, the same segments lead to the same program and the same symbols, and to the
same remarks at the same places (`Alike.takeAll`); only the locations of the places
are those in the one text and in the other.
-/

set_option autoImplicit false

namespace Datalog

/-- What is said about a place in a text, which is named by the number of characters
that remain there. -/
structure Remark where
  severity : Severity
  message : String
  remaining : Nat

/-- A remark as it is reported about a text. -/
def Remark.diagnostic (code : List Char) (remark : Remark) : Diagnostic :=
  ⟨remark.severity, remark.message, some (.ofPlace code remark.remaining)⟩

/-- Two units that were read from two texts hold the same program and the same
symbols, and the same remarks have been added to what was reported before.  The
remarks are about the last characters of the texts, of which there are as many as
the limit says. -/
structure Alike (limit : Nat) (code code' : List Char) (before before' : List Diagnostic)
    (unit unit' : TranslationUnit) : Prop where
  program : unit'.program = unit.program
  symbols : unit'.symbols = unit.symbols
  quiet : unit'.report.quiet = unit.report.quiet
  remarks : ∃ remarks : List Remark, (∀ remark ∈ remarks, remark.remaining ≤ limit) ∧
    unit.report.diagnostics = before ++ remarks.map (Remark.diagnostic code) ∧
    unit'.report.diagnostics = before' ++ remarks.map (Remark.diagnostic code')

namespace Alike

variable {limit : Nat} {code code' : List Char} {before before' : List Diagnostic}
  {unit unit' : TranslationUnit}

/-- The same remark about both texts. -/
theorem say (alike : Alike limit code code' before before' unit unit') (remark : Remark)
    (placed : remark.remaining ≤ limit) :
    Alike limit code code' before before'
      { unit with report := unit.report.add (remark.diagnostic code) }
      { unit' with report := unit'.report.add (remark.diagnostic code') } := by
  obtain ⟨program, symbols, quiet, remarks, within, first, second⟩ := alike
  have dropped : (unit'.report.quiet && (remark.diagnostic code').severity == .warning) =
      (unit.report.quiet && (remark.diagnostic code).severity == .warning) := by rw [quiet]; rfl
  by_cases unwanted :
      (unit.report.quiet && (remark.diagnostic code).severity == .warning) = true
  · have same : unit.report.add (remark.diagnostic code) = unit.report := if_pos unwanted
    have same' : unit'.report.add (remark.diagnostic code') = unit'.report :=
      if_pos (dropped.trans unwanted)
    rw [same, same']
    exact ⟨program, symbols, quiet, remarks, within, first, second⟩
  · have kept : unit.report.add (remark.diagnostic code) =
        { unit.report with diagnostics := unit.report.diagnostics ++ [remark.diagnostic code] } :=
      if_neg unwanted
    have kept' : unit'.report.add (remark.diagnostic code') =
        { unit'.report with
          diagnostics := unit'.report.diagnostics ++ [remark.diagnostic code'] } :=
      if_neg (dropped ▸ unwanted)
    rw [kept, kept']
    refine ⟨program, symbols, quiet, remarks ++ [remark], ?_, ?_, ?_⟩
    · intro other member
      rcases List.mem_append.mp member with member | member
      · exact within other member
      · rwa [List.mem_singleton.mp member]
    · simp [first]
    · simp [second]

theorem declare (alike : Alike limit code code' before before' unit unit') {start : Nat}
    (placed : start ≤ limit) (relation : Relation) :
    Alike limit code code' before before' (unit.declare (.ofPlace code start) relation)
      (unit'.declare (.ofPlace code' start) relation) := by
  rw [TranslationUnit.declare, TranslationUnit.declare, alike.program]
  cases unit.program.appendRelation relation with
  | ok program => exact ⟨rfl, alike.symbols, alike.quiet, alike.remarks⟩
  | error error =>
      obtain ⟨program, symbols, quiet, remarks⟩ := alike.say ⟨.error, error.message, start⟩ placed
      exact ⟨program, symbols, quiet, remarks⟩

theorem declareAll (alike : Alike limit code code' before before' unit unit') {start : Nat}
    (placed : start ≤ limit) (listed : List String) (relations : List Relation) :
    Alike limit code code' before before'
      (unit.declareAll (.ofPlace code start) listed relations)
      (unit'.declareAll (.ofPlace code' start) listed relations) := by
  induction relations generalizing unit unit' listed with
  | nil => exact alike
  | cons relation rest ih =>
      rw [TranslationUnit.declareAll, TranslationUnit.declareAll]
      by_cases again : relation.name ∈ listed
      · rw [if_pos again, if_pos again]
        exact ih (alike.say ⟨.warning, _, start⟩ placed) listed
      · rw [if_neg again, if_neg again]
        exact ih (alike.declare placed relation) _

theorem addClause (alike : Alike limit code code' before before' unit unit')
    {spelled : SpelledClause} (placed : PlacedIn limit spelled.constants) :
    Alike limit code code' before before' (unit.addClause code spelled)
      (unit'.addClause code' spelled) := by
  rw [TranslationUnit.addClause, TranslationUnit.addClause, alike.symbols]
  cases run : spelled.intern.runFrom unit.symbols with
  | mk answer final =>
      cases answer with
      | ok clause =>
          refine ⟨?_, rfl, alike.quiet, alike.remarks⟩
          exact congrArg (fun program => (program.appendClause clause).2) alike.program
      | error numeral =>
          have within := placed numeral (Clause.mem_of_intern_error run)
          obtain ⟨program, -, quiet, remarks⟩ :=
            alike.say ⟨.error, (ParseError.outOfRange numeral).message, numeral.remaining⟩ within
          exact ⟨program, rfl, quiet, remarks⟩

/-- Taking in the same segment. -/
theorem take (alike : Alike limit code code' before before' unit unit') {segment : Segment}
    (placed : segment.PlacedIn limit) :
    Alike limit code code' before before' (unit.add code segment) (unit'.add code' segment) := by
  obtain ⟨begins, ends, reading⟩ := segment
  cases reading with
  | malformed fault =>
      obtain ⟨program, symbols, quiet, remarks⟩ :=
        alike.say ⟨.error, fault.message, fault.remaining⟩ placed
      exact ⟨program, symbols, quiet, remarks⟩
  | statement start stated =>
      cases stated with
      | declaration declared => exact alike.declareAll placed [] declared.relations
      | clause spelled => exact alike.addClause placed

/-- **The same segments are taken in alike.** -/
theorem takeAll (alike : Alike limit code code' before before' unit unit')
    {segments : List Segment} (placed : ∀ segment ∈ segments, segment.PlacedIn limit) :
    Alike limit code code' before before' (segments.foldl (TranslationUnit.add code) unit)
      (segments.foldl (TranslationUnit.add code') unit') := by
  induction segments generalizing unit unit' with
  | nil => exact alike
  | cons segment rest ih =>
      refine ih (alike.take (placed segment List.mem_cons_self)) ?_
      exact fun other member => placed other (List.mem_cons_of_mem _ member)

theorem close (alike : Alike limit code code' before before' unit unit') :
    Alike limit code code' before before' unit.close unit'.close :=
  ⟨alike.program, alike.symbols, alike.quiet, alike.remarks⟩

end Alike

end Datalog
