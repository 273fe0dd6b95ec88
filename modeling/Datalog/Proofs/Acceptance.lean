import Datalog.Proofs.TranslationUnit.Report
import Datalog.Session

/-!
# The texts without syntax errors

A text is read without a syntax error exactly if the grammar derives it, as
layout around a sequence of statements, and then in one way only.  Its program is
the one that these statements denote: of each name the first relation that is
declared, and every clause whose numerals are machine integers, in the order in
which they are written.
-/

set_option autoImplicit false

namespace Datalog

open Grammar

theorem Preferences.unitOf_holds (preferences : Preferences) (code : List Char)
    (symbols : SymbolTable) :
    (preferences.unitOf code symbols).Holds symbols.key
      (denotedRelations (Segment.statements code)) (denotedClauses (Segment.statements code)) :=
  TranslationUnit.ofText_holds code symbols _ _

/-- A text has no syntax error exactly if all its segments are statements. -/
theorem Preferences.unitOf_syntax_iff (preferences : Preferences) (code : List Char)
    (symbols : SymbolTable) :
    (∀ diagnostic ∈ (preferences.unitOf code symbols).report.diagnostics,
        diagnostic.isSyntaxError = false) ↔
      ∀ segment ∈ Segment.all code, segment.statement? ≠ none := by
  have found := TranslationUnit.ofText_syntax_iff code symbols preferences.quiet
    { enabled := preferences.debug }
  have unfounded := not_congr found
  simp only [not_exists, not_and, Bool.not_eq_true] at unfounded
  exact unfounded

/-- What is read without a syntax error is derived. -/
theorem Preferences.derives_of_accepted (preferences : Preferences) {code : List Char}
    {symbols : SymbolTable}
    (accepted : ∀ diagnostic ∈ (preferences.unitOf code symbols).report.diagnostics,
      diagnostic.isSyntaxError = false) : ∃ trees, DerivesStatements code trees := by
  rw [preferences.unitOf_syntax_iff] at accepted
  exact Segment.derives_of_all code accepted

/-- **The reader accepts what the grammar derives.**  A text is read without a
syntax error exactly if it is layout around a sequence of statements that can be
derived.  The derivation is unique, and the program is what it denotes. -/
theorem unitOf_accepts_iff_derives (preferences : Preferences) (code : List Char)
    (symbols : SymbolTable) :
    ((∀ diagnostic ∈ (preferences.unitOf code symbols).report.diagnostics,
        diagnostic.isSyntaxError = false) ↔ ∃ trees, DerivesStatements code trees) ∧
      ∀ trees, DerivesStatements code trees →
        (∀ trees', DerivesStatements code trees' → trees' = trees) ∧
          (preferences.unitOf code symbols).program.relations =
            denotedRelations (trees.map StatementTree.spelled) ∧
          (preferences.unitOf code symbols).program.clauseList.map Clause.content =
            denotedClauses (trees.map StatementTree.spelled) := by
  refine ⟨⟨preferences.derives_of_accepted, ?_⟩, ?_⟩
  · rintro ⟨trees, derives⟩
    rw [preferences.unitOf_syntax_iff]
    intro segment member refused
    have held := List.mem_map_of_mem (f := Segment.statement?) member
    rw [Segment.all_of_derives derives, refused] at held
    obtain ⟨tree, -, same⟩ := List.mem_map.mp held
    cases same
  · intro trees derives
    have holds := preferences.unitOf_holds code symbols
    rw [Segment.statements_of_derives derives] at holds
    exact ⟨fun trees' derives' => derives'.unique derives, holds.relations, holds.contents⟩

end Datalog
