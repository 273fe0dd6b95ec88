import Datalog.Grammar.Fault
import Datalog.Proofs.Rules.Recorded
import Datalog.Proofs.Rules.Statement
import Mathlib.Data.List.Induction

/-!
# Refusals say what was expected

A text that is refused has a fault, and the fault is told from the rules that were tried in
vain at the furthest place.  Whatever has been tried and given up on the way there, one rule
is named at least, and no rule is named that has no description of its own, so the message
lists what a writer would have to put there (`fault_says_what_was_expected`).  The rules are
those of the grammar as it is written, and the record is the one with which the only run of
the entry ends: the names that a fault knows are all the names there are.
-/

set_option autoImplicit false

namespace Datalog.Grammar

open Phrase

variable {code : List Char} {record : Record}

/-! ## The wording of a refusal -/

namespace Record

/-- The rules that have been tried in vain at the furthest place, each of them once and in the
order in which rules are listed. -/
def expected (record : Record) : List Rule := Rule.all.filter record.tried.contains

/-- What a writer is told about these rules, each name once. -/
def names (record : Record) : List String := (record.expected.map Rule.name).eraseDups

theorem mem_expected (record : Record) (rule : Rule) :
    rule ∈ record.expected ↔ rule ∈ record.tried := by
  simp [expected, Rule.mem_all]

theorem expected_ne_nil (named : record.tried ≠ []) : record.expected ≠ [] := by
  obtain ⟨rule, member⟩ := List.exists_mem_of_ne_nil _ named
  exact List.ne_nil_of_mem ((record.mem_expected rule).mpr member)

theorem mem_names (record : Record) (name : String) :
    name ∈ record.names ↔ ∃ rule ∈ record.tried, rule.name = name := by
  simp [names, mem_expected]

theorem names_ne_nil (named : record.tried ≠ []) : record.names ≠ [] := by
  obtain ⟨rule, member⟩ := List.exists_mem_of_ne_nil _ named
  exact List.ne_nil_of_mem ((record.mem_names _).mpr ⟨rule, member, rfl⟩)

end Record

/-- Nothing is left twice where repetitions are erased. -/
theorem nodup_eraseDups {α : Type} [DecidableEq α] (listed : List α) :
    listed.eraseDups.Nodup := by
  induction listed using List.reverseRecOn with
  | nil => exact List.nodup_nil
  | append_singleton listed a ih =>
      rw [List.eraseDups_append]
      by_cases known : a ∈ listed
      · simpa [List.removeAll, known] using ih
      · have single : [a].eraseDups = [a] := rfl
        have apart : ∀ b ∈ listed, b ≠ a := fun b member same => known (same ▸ member)
        simpa [List.removeAll, known, single, List.nodup_append, ih] using apart

/-- **A rule that may be named has a description of its own.** -/
theorem Rule.name_of_listable (rule : Rule) (listable : rule.listable = true) :
    rule.name ≠ "input" ∧ rule.name ≠ "keyword" := by
  cases rule with
  | production named => cases named <;> decide
  | reservedWord | blank | comment | nameCharacter | nextStatement | singleClause =>
      cases listable
  | interior | layoutOnly => decide

/-! ## Faults as records -/

/-- The production of a rule. -/
def Rule.production? : Rule → Option Production
  | .production named => some named
  | _ => none

/-- The rules of missed productions are found among the productions alone. -/
theorem filter_production (missed : List Production) (rules : List Rule) :
    rules.filter (missed.map Rule.production).contains =
      ((rules.filterMap Rule.production?).filter missed.contains).map .production := by
  induction rules with
  | nil => rfl
  | cons rule rules ih =>
      cases rule with
      | production named =>
          have same : (missed.map Rule.production).contains (.production named) =
              missed.contains named := by simp
          rw [List.filter_cons, same, ih]
          change _ = ((named :: rules.filterMap Rule.production?).filter missed.contains).map _
          rw [List.filter_cons]
          cases missed.contains named <;> rfl
      | _ =>
          rw [List.filterMap_cons_none rfl, List.filter_cons_of_neg (by simp), ih]

/-- **A fault expects the productions that the record names.** -/
theorem expected_ofTrail (trail : Trail) :
    trail.record.expected = (Fault.ofTrail trail).expected.map .production := by
  have productions : Rule.all.filterMap Rule.production? = Production.all := rfl
  rw [Record.expected, Trail.record, filter_production, productions]
  rfl

/-! ## Refused texts -/

/-- Nothing is recorded at the start of the text and in the layout there. -/
theorem Run.exists_begun {expression : Expression}
    (run : Run code .spaced (.start >> expression) code (.start code) none record) :
    ∃ text, text.length ≤ code.length ∧
      Run code .spaced expression text (.start code) none record := by
  cases run with
  | both taken gap further =>
      cases taken with
      | start =>
          obtain rfl := gap.record_eq_of_closed
          exact ⟨_, gap.suffix.length_le, further⟩
  | noFirst missed =>
      cases missed with
      | noStart inside => exact absurd rfl inside

theorem remembers_start (code : List Char) : (Record.start code).Remembers code.length :=
  fun _ => rfl

/-- **Where no statement is found, some rule is named.** -/
theorem tried_of_nextStatement
    (run : Run code .spaced (.rule .nextStatement) code (.start code) none record) :
    record.tried ≠ [] := by
  cases run with
  | noRule _ recorded => cases recorded.1
  | noRuleUnrecorded contents =>
      obtain ⟨text, within, statement⟩ := Run.exists_begun contents
      exact statement.tried_ne_nil rfl (by decide) (remembers_start code) within

/-- **Where no single clause is found, some rule is named**, be it the end of the text. -/
theorem tried_of_singleClause
    (run : Run code .spaced (.rule .singleClause) code (.start code) none record) :
    record.tried ≠ [] := by
  cases run with
  | noRule _ recorded => cases recorded.1
  | noRuleUnrecorded contents =>
      obtain ⟨text, within, whole⟩ := Run.exists_begun contents
      have remembers := remembers_start code
      -- either the clause is missed, or something else than the end of the text is behind it
      cases whole with
      | noFirst clause => exact clause.tried_ne_nil rfl (by decide) remembers within
      | both clause gap ends =>
          have left := (gap.suffix.trans clause.suffix).length_le
          obtain rfl := gap.record_eq_of_closed
          exact ends.tried_ne_nil rfl (by decide) (clause.remembers remembers) (left.trans within)

/-- A text is refused by the rule of an entry, and the fault is told from the rules that were
tried in vain. -/
structure Explained (entry : Rule) (code : List Char) (fault : Fault) (record : Record) :
    Prop where
  /-- There is one run of the entry on the text, and it ends with the record. -/
  run : ∀ answer record', Run code .spaced (.rule entry) code (.start code) answer record' ↔
    answer = none ∧ record' = record
  place : fault.remaining = record.remaining
  tried : record.tried ≠ []
  named : record.names ≠ []
  distinct : record.names.Nodup
  described : "input" ∉ record.names ∧ "keyword" ∉ record.names
  /-- Whatever was found where it must not stand, the message tells what was expected. -/
  wording : ∀ unexpected,
    describe record.expected unexpected = "expected " ++ " or ".intercalate record.names
  message : fault.message = "syntax error, expected " ++ " or ".intercalate record.names

/-- **A record that names a rule explains the fault.** -/
theorem explained {entry : Rule} {trail : Trail} (reserved : entry ≠ .reservedWord)
    (refused : Run code .spaced (.rule entry) code (.start code) none trail.record)
    (tried : trail.record.tried ≠ []) :
    Explained entry code (.ofTrail trail) trail.record where
  run answer record' := by
    constructor
    · intro run
      obtain ⟨rfl, rfl⟩ := run.unique refused
      exact ⟨rfl, rfl⟩
    · rintro ⟨rfl, rfl⟩
      exact refused
  place := rfl
  tried := tried
  named := Record.names_ne_nil tried
  distinct := nodup_eraseDups _
  described := by
    have unreserved : (Expression.rule entry).unreserved = true := bne_iff_ne.mpr reserved
    have lists := refused.lists (fun _ => unreserved) (fun rule member => nomatch member)
    simp only [Record.mem_names, not_exists, not_and]
    exact ⟨fun rule member => (rule.name_of_listable (lists rule member)).1,
      fun rule member => (rule.name_of_listable (lists rule member)).2⟩
  wording unexpected := by
    have some := Record.expected_ne_nil tried
    rw [describe, if_pos (by simpa using some)]
    rfl
  message := by
    have some := Record.expected_ne_nil tried
    rw [expected_ofTrail] at some
    have names : trail.record.names =
        ((Fault.ofTrail trail).expected.map Production.description).eraseDups := by
      rw [Record.names, expected_ofTrail, List.map_map]
      rfl
    rw [Fault.message, names, if_neg (by simpa using some), ← String.append_assoc]
    rfl

/-- If attempting a phrase is a run of the entry, refusals of the phrase are explained. -/
theorem exists_explained {α : Type} {phrase : Phrase α} {entry : Rule} {fault : Fault}
    (reserved : entry ≠ .reservedWord)
    (run : Run code .spaced (.rule entry) code (.start code)
      ((phrase.attempt code (.start code)).1.map Prod.snd)
      (phrase.attempt code (.start code)).2.record)
    (tried : ∀ record, Run code .spaced (.rule entry) code (.start code) none record →
      record.tried ≠ []) (refused : phrase.parse code = .error fault) :
    ∃ record, Explained entry code fault record := by
  have answer := phrase.attempt_fst code (.start code)
  unfold Phrase.parse at refused
  cases read : phrase.read code with
  | some found => rw [read] at refused; cases refused
  | none =>
      rw [read] at refused answer
      cases refused
      rw [answer] at run
      exact ⟨_, explained reserved run (tried _ run)⟩

/-- **A refusal says what was expected.**  The message lists names that are distinct, one at
least, and each of them is the description of a rule that was tried in vain at the furthest
place. -/
theorem fault_says_what_was_expected (code : List Char) (fault : Fault) :
    (nextStatement.parse code = .error fault →
      ∃ record, Explained .nextStatement code fault record) ∧
    (singleClause.parse code = .error fault →
      ∃ record, Explained .singleClause code fault record) :=
  ⟨exists_explained (by decide) (run_nextStatement code) fun _ => tried_of_nextStatement,
    exists_explained (by decide) (run_singleClause code) fun _ => tried_of_singleClause⟩

/-- A constant condition is found in the end, but negations, atoms and arguments have been
tried in its place before, and behind it no rule is missed. -/
theorem fault_says_what_was_expected_at_truth :
    (∃ record, Explained .nextStatement "p(x) :- true x".toList
      ⟨[.argument, .atom, .negation], 6⟩ record) ∧
    ∃ record, Explained .singleClause "p(x) :- true x".toList
      ⟨[.argument, .atom, .negation], 6⟩ record := by
  have statement : nextStatement.read "p(x) :- true x".toList = none :=
    Option.isNone_iff_eq_none.mp (by decide +kernel)
  have clause : singleClause.read "p(x) :- true x".toList = none :=
    Option.isNone_iff_eq_none.mp (by decide +kernel)
  have fault : nextStatement.fault "p(x) :- true x".toList =
      ⟨[.argument, .atom, .negation], 6⟩ := by decide +kernel
  have fault' : singleClause.fault "p(x) :- true x".toList =
      ⟨[.argument, .atom, .negation], 6⟩ := by decide +kernel
  have explained := fault_says_what_was_expected "p(x) :- true x".toList
    ⟨[.argument, .atom, .negation], 6⟩
  exact ⟨explained.1 (by rw [Phrase.parse, statement, fault]),
    explained.2 (by rw [Phrase.parse, clause, fault'])⟩

end Datalog.Grammar
