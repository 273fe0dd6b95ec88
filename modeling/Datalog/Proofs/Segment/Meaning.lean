import Datalog.Proofs.Seam.Statement
import Datalog.Proofs.Segment.Statements

/-!
# What the segments of a text say

What a text says is what its segments say, in order; a malformed segment says
nothing.  It depends only on the text behind the layout at the start
(`Segment.meanings_of_skip_eq`).
-/

set_option autoImplicit false

namespace Datalog

open Grammar

namespace Segment

/-- What a segment says, if it holds a statement. -/
def meaning? (segment : Segment) : Option (Declaration ⊕ Clause Int String) :=
  segment.statement?.map Statement.meaning

/-- What the segments of a text say. -/
def meanings (text : List Char) : List (Option (Declaration ⊕ Clause Int String)) :=
  (all text).map meaning?

theorem meanings_of_skip_eq_nil {text : List Char} (done : skip text = []) :
    meanings text = [] := by
  rw [meanings, all_of_skip_eq_nil done, List.map_nil]

theorem meanings_eq_cons {text : List Char} (more : skip text ≠ []) :
    meanings text = (next text).1.meaning? :: meanings (next text).2 := by
  rw [meanings, all_eq_cons more, List.map_cons, meanings]

theorem meanings_of_derives {text : List Char} {trees : List StatementTree}
    (derives : DerivesStatements text trees) :
    meanings text = trees.map fun tree => some tree.meaning := by
  have held := congrArg (List.map (Option.map Statement.meaning)) (all_of_derives derives)
  rw [List.map_map, List.map_map] at held
  exact held

/-- What the first segment says and where reading goes on are told by the text behind
the layout. -/
theorem next_of_skip_eq {text text' : List Char} (same : skip text = skip text') :
    (next text).1.meaning? = (next text').1.meaning? ∧ (next text).2 = (next text').2 := by
  have recovers : Recovery.resume text = Recovery.resume text' := by
    rw [Recovery.resume, Recovery.passCode_of_layout (layout_skip text), same,
      ← Recovery.passCode_of_layout (layout_skip text'), Recovery.resume]
  have reads : nextStatement.read text = nextStatement.read text' := by
    rw [read_nextStatement, same, read_nextStatement]
  cases read : nextStatement.read text' with
  | none =>
      rw [next_of_refused (reads.trans read), next_of_refused read, recovers]
      exact ⟨rfl, rfl⟩
  | some found =>
      rw [next_of_read (reads.trans read), next_of_read read]
      exact ⟨rfl, rfl⟩

/-- **What a text says is told by the text behind the layout.** -/
theorem meanings_of_skip_eq {text text' : List Char} (same : skip text = skip text') :
    meanings text = meanings text' := by
  by_cases done : skip text = []
  · rw [meanings_of_skip_eq_nil done, meanings_of_skip_eq_nil (same.symm.trans done)]
  · obtain ⟨first, rest⟩ := next_of_skip_eq same
    have done' : skip text' ≠ [] := fun ends => done (same.trans ends)
    rw [meanings_eq_cons done, meanings_eq_cons done', first, rest]

end Segment

end Datalog
