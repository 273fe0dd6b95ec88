import Datalog.Proofs.Seam.Reading
import Datalog.Proofs.Segment.Meaning

/-!
# Lines that are joined

Texts without a malformed segment are put together, each on lines of its own.  The
whole is a text without a malformed segment, and it says what the pieces say, one
after the other (`meanings_joined`).
-/

set_option autoImplicit false

namespace Datalog

open Grammar

/-- **A sequence of statements goes on behind the end of its line.** -/
theorem Grammar.DerivesStatements.append {front behind : List Char}
    {trees others : List StatementTree} (derives : DerivesStatements front trees)
    (starts : StartsLine behind) (more : DerivesStatements behind others) :
    ∃ trees', DerivesStatements (front ++ behind) (trees' ++ others) ∧
      trees'.map StatementTree.meaning = trees.map StatementTree.meaning := by
  induction derives with
  | done before => exact ⟨[], more.behind (before.append_line starts).2, rfl⟩
  | @next text start rest tree trees before first _ ih =>
      obtain ⟨trees', further, meant⟩ := ih
      have before' := (before.append_line starts).2
      rw [← List.append_nil start] at first
      rcases (Seam.last start).statement first with ⟨left, same, -, moved⟩ | ⟨absurd, -⟩
      · rw [List.append_nil] at same
        subst same
        obtain ⟨tree', meant', -, first'⟩ := moved behind starts fun opens =>
          absurd opens further.not_opens
        exact ⟨tree' :: trees', .next before' first' further,
          by rw [List.map_cons, List.map_cons, meant, meant']⟩
      · cases absurd

/-- **Joined lines say what the lines say.** -/
theorem meanings_joined {lines : List (List Char)}
    (derived : ∀ line ∈ lines, ∃ trees, DerivesStatements line trees) :
    Segment.meanings (['\n'].intercalate lines) = lines.flatMap Segment.meanings := by
  suffices joined : ∃ trees, DerivesStatements (['\n'].intercalate lines) trees ∧
      (trees.map fun tree => some tree.meaning) = lines.flatMap Segment.meanings by
    obtain ⟨trees, derives, meant⟩ := joined
    exact (Segment.meanings_of_derives derives).trans meant
  induction lines with
  | nil => exact ⟨[], .done (.nothing _), rfl⟩
  | cons line rest ih =>
      obtain ⟨trees, derives⟩ := derived line List.mem_cons_self
      obtain ⟨others, further, meant⟩ := ih fun line member =>
        derived line (List.mem_cons_of_mem _ member)
      have first := Segment.meanings_of_derives derives
      cases rest with
      | nil =>
          refine ⟨trees, ?_, by rw [List.flatMap_singleton, first]⟩
          rwa [List.intercalate_singleton]
      | cons next rest =>
          have feeds : StartsLine ('\n' :: ['\n'].intercalate (next :: rest)) := by
            simp [StartsLine, endsLine]
          obtain ⟨trees', derives', meant'⟩ := derives.append feeds
            (further.behind (.blank (by decide) (.nothing _)))
          have kept := congrArg (List.map some) meant'
          rw [List.map_map, List.map_map] at kept
          refine ⟨trees' ++ others, ?_, ?_⟩
          · rwa [List.intercalate_cons_cons, List.append_assoc]
          · rw [List.map_append, meant]
            exact congrArg (· ++ _) (kept.trans first.symm)

end Datalog
