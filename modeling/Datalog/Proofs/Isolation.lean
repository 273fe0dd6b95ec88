import Datalog.Proofs.Isolation.Remark
import Datalog.Proofs.Isolation.Statement
import Datalog.Proofs.Segment.Order
import Datalog.Proofs.Text.Place
import Datalog.Proofs.TranslationUnit.Report

/-!
# A malformed statement is isolated

One malformed statement in front of a text has no effect on what is read from the
text, and is reported once (`malformed_statement_isolated`).  The statement ends with
the only full stop that stands outside its string constants and comments.  Whether it
is refused is decided in front of that full stop, what is reported about it lies in
front of the full stop too, and recovery ends right behind it; so the segments that
follow are the segments of the text.
-/

set_option autoImplicit false

namespace Datalog

open Grammar

/-! ## Malformed statements -/

/-- A text that ends with the only full stop outside its string constants and
comments, apart from the word that opens a declaration where this comes first. -/
inductive OneStop : List Char → Prop
  | unstopped {front : List Char} (unstopped : Unstopped front) : OneStop (front ++ ['.'])
  | declaration {text front : List Char} (before : Layout text (".decl".toList ++ front))
      (ends : beginsInName front = false) (unstopped : Unstopped front) : OneStop (text ++ ['.'])

/-- One malformed statement: nothing at its start is a statement, and it ends with
its only full stop. -/
structure MalformedStatement (text : List Char) : Prop where
  refused : nextStatement.read text = none
  stop : OneStop text

theorem OneStop.ne_nil {text : List Char} (stop : OneStop text) : text ≠ [] := by
  cases stop <;> simp

/-- Behind the layout in front of it, a text with one full stop is a text up to a
full stop, whatever follows. -/
theorem OneStop.skip_eq {text : List Char} (stop : OneStop text) :
    ∃ front, UpToStop front ∧ ∀ tail, skip (text ++ tail) = front ++ '.' :: tail := by
  cases stop with
  | unstopped unstopped =>
      obtain ⟨front', unstopped', -, skipped⟩ := unstopped.skip_eq
      exact ⟨front', .unstopped unstopped', fun tail => by simpa using skipped tail⟩
  | declaration before ends unstopped =>
      refine ⟨_, .declaration ends unstopped, fun tail => ?_⟩
      have layout := before.append ('.' :: tail) (by simp)
      rw [List.append_assoc, List.singleton_append]
      exact layout.skip_eq_of_solid ⟨'.', _, rfl, by simp⟩

/-- Recovery leaves what follows the full stop. -/
theorem OneStop.resume_append {text tail : List Char} (stop : OneStop text)
    (starts : StartsLine tail) : Recovery.resume (text ++ tail) = tail := by
  have ends : "decl".toList.isPrefixOf tail = false := by
    cases tail with
    | nil => rfl
    | cons c tail =>
        have other : c ≠ 'd' := by
          rintro rfl
          exact absurd (starts 'd' rfl) (by decide)
        simp [List.isPrefixOf, other.symm]
  cases stop with
  | unstopped unstopped =>
      rw [List.append_assoc, List.singleton_append]
      exact Recovery.passCode_append false unstopped ends
  | @declaration text front before _ unstopped =>
      have layout := before.append ('.' :: tail) (by simp)
      have opened : Unstopped ("decl".toList ++ front) :=
        .plain (by decide) (.plain (by decide) (.plain (by decide) (.plain (by decide) unstopped)))
      have keyword : ".decl".toList ++ front ++ '.' :: tail =
          ".decl".toList ++ (front ++ '.' :: tail) := List.append_assoc _ _ _
      have behind : "decl".toList ++ (front ++ '.' :: tail) =
          "decl".toList ++ front ++ '.' :: tail := (List.append_assoc _ _ _).symm
      rw [List.append_assoc, List.singleton_append, Recovery.resume,
        Recovery.passCode_of_layout layout, keyword, Recovery.passCode_of_keyword, behind]
      exact Recovery.passCode_append true opened ends

/-! ## The segment of a malformed statement -/

namespace MalformedStatement

variable {bad tail : List Char}

/-- **A malformed statement is refused in front of every text**, and nothing is missed
in the text. -/
theorem refused_append (malformed : MalformedStatement bad) (starts : StartsLine tail) :
    nextStatement.read (bad ++ tail) = none ∧
      tail.length < (nextStatement.fault (bad ++ tail)).remaining := by
  obtain ⟨front, upTo, skipped⟩ := malformed.stop.skip_eq
  have settled := settledAt_statement upTo
  have alone : statement.read (front ++ '.' :: []) = none := by
    rw [← skipped [], List.append_nil]
    exact malformed.refused
  constructor
  · rw [read_nextStatement, skipped]
    rcases settled.read with refused | taken
    · exact refused tail starts
    · exact absurd alone (taken [] startsLine_nil)
  · have within := settled.attempt tail (.start (bad ++ tail)) starts ?_
    · rw [← skipped tail] at within
      exact within
    · have positive := List.length_pos_iff.mpr malformed.stop.ne_nil
      simp [Trail.start, positive]

theorem skip_append_ne_nil (malformed : MalformedStatement bad) (tail : List Char) :
    skip (bad ++ tail) ≠ [] := by
  obtain ⟨front, -, skipped⟩ := malformed.stop.skip_eq
  rw [skipped]
  simp

/-- **A malformed statement is a segment of its own.** -/
theorem all_append (malformed : MalformedStatement bad) (starts : StartsLine tail) :
    ∃ fault : Fault, tail.length < fault.remaining ∧
      Segment.all (bad ++ tail) =
        ⟨(bad ++ tail).length, tail.length, .malformed fault⟩ :: Segment.all tail := by
  obtain ⟨refused, missed⟩ := malformed.refused_append starts
  refine ⟨_, missed, ?_⟩
  rw [Segment.all_eq_cons (malformed.skip_append_ne_nil tail), Segment.next_of_refused refused,
    malformed.stop.resume_append starts]

end MalformedStatement

/-! ## Isolation -/

/-- What is read behind a malformed statement is what is read without it, and what is
reported is one error inside the malformed statement and, at the same places, what is
reported without it.  A place behind the malformed statement is moved by its length. -/
structure IsolatedIn (bad tail : List Char) (before : List Diagnostic)
    (unit unit' : TranslationUnit) : Prop where
  program : unit'.program = unit.program
  symbols : unit'.symbols = unit.symbols
  report : ∃ (error : Remark) (remarks : List Remark), error.severity = .error ∧
    Text.offset (bad ++ tail) error.remaining < Text.byteLength bad ∧
    (∀ remark ∈ remarks, Text.offset (bad ++ tail) remark.remaining =
      Text.offset tail remark.remaining + Text.byteLength bad) ∧
    unit.report.diagnostics = before ++ remarks.map (Remark.diagnostic tail) ∧
    unit'.report.diagnostics =
      before ++ (error :: remarks).map (Remark.diagnostic (bad ++ tail))

/-- A unit that has taken in a malformed segment in front of a text goes on like one
that has taken in nothing. -/
theorem TranslationUnit.alike_add_malformed (limit : Nat) (code code' : List Char)
    (unit : TranslationUnit) (begins ends : Nat) (fault : Fault) :
    Alike limit code code' unit.report.diagnostics
      (unit.report.diagnostics ++
        [Remark.diagnostic code' ⟨.error, fault.message, fault.remaining⟩])
      unit (unit.add code' ⟨begins, ends, .malformed fault⟩) where
  program := rfl
  symbols := rfl
  quiet := ErrorReport.quiet_add _ _
  remarks := by
    refine ⟨[], by simp, (List.append_nil _).symm, ?_⟩
    rw [List.map_nil, List.append_nil]
    exact ErrorReport.diagnostics_addError _ _ _

/-- **A malformed statement is isolated.** -/
theorem malformed_statement_isolated {bad tail : List Char} (malformed : MalformedStatement bad)
    (starts : StartsLine tail) (symbols : SymbolTable) (report : ErrorReport)
    (debug : DebugReport) :
    IsolatedIn bad tail report.diagnostics (.ofText tail symbols report debug)
      (.ofText (bad ++ tail) symbols report debug) := by
  obtain ⟨fault, missed, segments⟩ := malformed.all_append starts
  have alike : Alike tail.length tail (bad ++ tail) report.diagnostics
      (report.diagnostics ++
        [Remark.diagnostic (bad ++ tail) ⟨.error, fault.message, fault.remaining⟩])
      (.ofText tail symbols report debug) (.ofText (bad ++ tail) symbols report debug) := by
    rw [TranslationUnit.ofText, TranslationUnit.ofText, segments, List.foldl_cons]
    refine Alike.close (Alike.takeAll ?_ (Segment.placedIn_of_mem_all (Nat.le_refl _)))
    exact TranslationUnit.alike_add_malformed _ _ _ { symbols, report, debug } _ _ fault
  obtain ⟨program, symbols, -, remarks, placed, first, second⟩ := alike
  refine ⟨program, symbols, ⟨.error, fault.message, fault.remaining⟩, remarks, rfl, ?_, ?_,
    first, ?_⟩
  · exact Text.offset_append_lt missed malformed.stop.ne_nil
  · intro remark member
    exact Text.offset_append bad (placed remark member)
  · rw [second, List.map_cons, List.append_assoc]
    rfl

/-- The atom in front of the line end is not closed, and the full stop in its string
constant does not end it. -/
theorem malformed_statement_isolated_unclosed :
    IsolatedIn "a(\".\".".toList "\nb().".toList []
      (.ofText "\nb().".toList (.empty 0) {} {})
      (.ofText ("a(\".\".".toList ++ "\nb().".toList) (.empty 0) {} {}) := by
  have constant : Interior ['.'] := .plain (by decide) (by decide) .nil
  have front : Unstopped ('a' :: '(' :: '"' :: (['.'] ++ '"' :: [])) :=
    .plain (by decide) (.plain (by decide) (.string constant .nothing))
  have malformed : MalformedStatement "a(\".\".".toList :=
    ⟨by decide +kernel, .unstopped front⟩
  refine malformed_statement_isolated malformed ?_ (.empty 0) {} {}
  intro c head
  obtain rfl : '\n' = c := by simpa using head
  rfl

end Datalog
