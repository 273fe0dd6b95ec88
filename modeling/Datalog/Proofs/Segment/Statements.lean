import Datalog.Proofs.Segment.Progress

/-!
# Segments and derivations

A text in which no segment is malformed is a sequence of statements, and of a
sequence of statements every segment is a statement.  This is where the grammar
without a reader meets the reader of whole texts: `derives_of_all` and
`all_of_derives` are the two directions.
-/

set_option autoImplicit false

namespace Datalog

open Grammar

namespace Segment

/-- The statement that a segment holds. -/
def statement? (segment : Segment) : Option Statement :=
  match segment.reading with
  | .statement _ stated => some stated
  | .malformed _ => none

/-- The statements among the segments of a text. -/
def statements (text : List Char) : List Statement := (all text).filterMap statement?

theorem statements_of_skip_eq_nil {text : List Char} (done : skip text = []) :
    statements text = [] := by
  rw [statements, all_of_skip_eq_nil done, List.filterMap_nil]

end Segment

/-! ## Layout in front of statements -/

theorem Grammar.DerivesStatements.behind {text rest : List Char} {trees : List StatementTree}
    (layout : Layout text rest) (derives : DerivesStatements rest trees) :
    DerivesStatements text trees := by
  cases derives with
  | done before => exact .done (layout.trans before)
  | next before first others => exact .next (layout.trans before) first others

/-! ## The two directions -/

/-- **Of a sequence of statements every segment is a statement.** -/
theorem Segment.all_of_derives {text : List Char} {trees : List StatementTree}
    (derives : DerivesStatements text trees) :
    (Segment.all text).map Segment.statement? = trees.map fun tree => some tree.spelled := by
  suffices general : ∀ text', skip text' = skip text →
      (Segment.all text').map Segment.statement? = trees.map fun tree => some tree.spelled from
    general text rfl
  induction derives with
  | done before =>
      intro text' same
      rw [before.skip_eq] at same
      rw [Segment.all_of_skip_eq_nil (same.trans (by simp [skip]))]
      rfl
  | @next text start rest tree trees before first others ih =>
      intro text' same
      rw [before.skip_eq_of_solid first.solid] at same
      obtain ⟨stop, read, layout⟩ :=
        statement_complete first (StatementTree.complete_of_statements others tree)
      rw [← same] at read
      have next := Segment.next_of_read read
      obtain ⟨c, behind, nonempty, -⟩ := first.solid
      rw [Segment.all_eq_cons (by rw [same, nonempty]; exact List.cons_ne_nil c behind), next,
        List.map_cons, List.map_cons, ih stop layout.skip_eq.symm]
      rfl

/-- **A text in which every segment is a statement is a sequence of statements.** -/
theorem Segment.derives_of_all (text : List Char)
    (sound : ∀ segment ∈ Segment.all text, segment.statement? ≠ none) :
    ∃ trees, DerivesStatements text trees := by
  induction text using Segment.induction with
  | done text ends =>
      have layout := layout_skip text
      rw [ends] at layout
      exact ⟨[], .done layout⟩
  | step text more ih =>
      rw [Segment.all_eq_cons more] at sound
      cases read : nextStatement.read text with
      | none =>
          refine absurd ?_ (sound _ List.mem_cons_self)
          rw [Segment.next_of_refused read]
          rfl
      | some found =>
          obtain ⟨stated, rest⟩ := found
          rw [Segment.next_of_read read] at ih sound
          obtain ⟨trees, others⟩ := ih fun segment member =>
            sound segment (List.mem_cons_of_mem _ member)
          rw [read_nextStatement] at read
          obtain ⟨tree, stop, first, layout, -⟩ := statement_sound read
          exact ⟨tree :: trees, .next (layout_skip text) first (others.behind layout)⟩

/-- What derivations stand for are the statements of the text. -/
theorem Segment.statements_of_derives {text : List Char} {trees : List StatementTree}
    (derives : DerivesStatements text trees) :
    Segment.statements text = trees.map StatementTree.spelled := by
  have same := congrArg (List.filterMap id) (Segment.all_of_derives derives)
  rw [List.filterMap_map, List.filterMap_map, Function.id_comp] at same
  exact same.trans (congrFun List.filterMap_eq_map trees)

/-- Every statement among the segments of a text has a derivation. -/
theorem Segment.derives_of_mem_statements (text : List Char) (stated : Statement)
    (member : stated ∈ Segment.statements text) :
    ∃ start tree rest, DerivesStatement start tree rest ∧ tree.spelled = stated := by
  induction text using Segment.induction with
  | done text ends =>
      rw [Segment.statements_of_skip_eq_nil ends] at member
      exact absurd member List.not_mem_nil
  | step text more ih =>
      rw [Segment.statements, Segment.all_eq_cons more] at member
      obtain ⟨segment, listed, held⟩ := List.mem_filterMap.mp member
      rcases List.mem_cons.mp listed with rfl | listed
      · cases read : nextStatement.read text with
        | none =>
            rw [Segment.next_of_refused read] at held
            cases held
        | some found =>
            obtain ⟨stated', rest⟩ := found
            rw [Segment.next_of_read read] at held
            obtain rfl := Option.some.inj held
            rw [read_nextStatement] at read
            obtain ⟨tree, stop, derives, -, spelled⟩ := statement_sound read
            exact ⟨skip text, tree, stop, derives, spelled⟩
      · exact ih (List.mem_filterMap.mpr ⟨segment, listed, held⟩)

end Datalog
