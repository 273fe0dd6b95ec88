import Datalog.Proofs.Segment.Statements

/-!
# How a text is split

Reading a text splits it into statements, each with the layout in front of it, into
malformed pieces, which end where recovery says, and into layout at the end.
`Segment.Splits` says this without a bound on the number of pieces, one rule for
each way in which reading can go on.  There is exactly one such splitting of a text
(`Segment.splits_iff`), so each character belongs to one piece.
-/

set_option autoImplicit false

namespace Datalog

open Grammar

namespace Segment

/-- A text is split into segments and layout behind them. -/
inductive Splits : List Char → List Segment → Prop where
  /-- Only layout is left. -/
  | layout {text : List Char} (done : skip text = []) : Splits text []
  /-- A statement is read, and what is left behind it is split. -/
  | statement {text rest : List Char} {stated : Statement} {segments : List Segment}
      (read : nextStatement.read text = some (stated, rest)) (behind : Splits rest segments) :
      Splits text
        (⟨text.length, rest.length, .statement (skip text).length stated⟩ :: segments)
  /-- There is more than layout, but no statement: what recovery leaves is split. -/
  | malformed {text : List Char} {segments : List Segment} (more : skip text ≠ [])
      (refused : nextStatement.read text = none) (behind : Splits (Recovery.resume text) segments) :
      Splits text
        (⟨text.length, (Recovery.resume text).length, .malformed (nextStatement.fault text)⟩ ::
          segments)

/-- Where a statement is read, there is more than layout. -/
theorem skip_ne_nil_of_read {text rest : List Char} {stated : Statement}
    (read : nextStatement.read text = some (stated, rest)) : skip text ≠ [] := by
  intro done
  rw [read_nextStatement, done] at read
  exact absurd (length_lt_of_read_statement read) (Nat.not_lt_zero _)

/-- The segments of a text are a splitting of it. -/
theorem splits_all (text : List Char) : Splits text (all text) := by
  induction text using Segment.induction with
  | done text ends =>
      rw [all_of_skip_eq_nil ends]
      exact .layout ends
  | step text more ih =>
      rw [all_eq_cons more]
      cases read : nextStatement.read text with
      | none =>
          rw [next_of_refused read] at ih ⊢
          exact .malformed more read ih
      | some found =>
          obtain ⟨stated, rest⟩ := found
          rw [next_of_read read] at ih ⊢
          exact .statement read ih

/-- **A text is split in one way.** -/
theorem splits_iff {text : List Char} {segments : List Segment} :
    Splits text segments ↔ segments = all text := by
  constructor
  · intro splits
    induction splits with
    | layout done => exact (all_of_skip_eq_nil done).symm
    | statement read _ ih =>
        rw [all_eq_cons (skip_ne_nil_of_read read), next_of_read read, ih]
    | malformed more refused _ ih => rw [all_eq_cons more, next_of_refused refused, ih]
  · rintro rfl
    exact splits_all text

end Segment

end Datalog
