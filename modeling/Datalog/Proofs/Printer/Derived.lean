import Datalog.Proofs.Printer.WellFormed
import Datalog.Proofs.Segment.Statements
import Datalog.Proofs.TranslationUnit.Contents

/-!
# What is read is well formed

Whatever the grammar derives has only names that can be written: a word is a name
wherever it stands, and a word that is read as the name of a variable is neither
reserved nor the sign for a variable without a name.  So the program of any text
at all is well formed (`TranslationUnit.ofText_wellFormed`), whichever statements
were dropped or passed over.
-/

set_option autoImplicit false

namespace Datalog

open Grammar

/-! ## Clauses -/

theorem Argument.wellFormedAll_iff {ν σ : Type} (arguments : List (Argument ν σ)) :
    Argument.wellFormedAll arguments = true ↔
      ∀ argument ∈ arguments, argument.wellFormed = true := by
  induction arguments with
  | nil => simp [Argument.wellFormedAll]
  | cons argument rest ih => simp [Argument.wellFormedAll, ih]

theorem Literal.wellFormedAll_iff {ν σ : Type} (body : List (Literal ν σ)) :
    Literal.wellFormedAll body = true ↔ ∀ literal ∈ body, literal.wellFormed = true := by
  induction body with
  | nil => simp [Literal.wellFormedAll]
  | cons literal rest ih => simp [Literal.wellFormedAll, ih]

theorem Grammar.ArgumentTree.wellFormedAll_spelledAll {trees : List ArgumentTree}
    (all : ∀ tree ∈ trees, tree.spelled.wellFormed = true) :
    Argument.wellFormedAll (ArgumentTree.spelledAll trees) = true := by
  rw [ArgumentTree.spelledAll_eq_map, Argument.wellFormedAll_iff]
  simpa using all

theorem Grammar.LiteralTree.wellFormedAll_spelledAll {trees : List LiteralTree}
    (all : ∀ tree ∈ trees, tree.spelled.wellFormed = true) :
    Literal.wellFormedAll (LiteralTree.spelledAll trees) = true := by
  rw [LiteralTree.spelledAll_eq_map, Literal.wellFormedAll_iff]
  simpa using all

mutual
/-- **A derived argument is well formed.** -/
theorem Grammar.DerivesArgument.wellFormed {text rest : List Char} {tree : ArgumentTree}
    (derives : DerivesArgument text tree rest) : tree.spelled.wellFormed = true := by
  cases derives with
  | untargeted word before behind contents =>
      have first := word.length_lt
      have second := before.length_le
      have third := behind.length_le
      exact contents.wellFormed
  | targeted word front reduced before behind contents =>
      have first := word.length_lt
      have second := front.length_le
      have third := reduced.length_lt
      have fourth := before.length_le
      have fifth := behind.length_le
      rw [ArgumentTree.spelled, Argument.wellFormed, reduced.wellFormed, contents.wellFormed]
      rfl
  | nil | counter | number | string | unnamed => rfl
  | free word unreserved named =>
      simp [ArgumentTree.spelled, Argument.wellFormed, isVariableName, word.isName, unreserved,
        named]
termination_by 2 * text.length
decreasing_by all_goals (subst_vars; simp only [List.length_cons] at *; omega)

theorem Grammar.DerivesBody.wellFormed {text rest : List Char} {tree : BodyTree}
    (derives : DerivesBody text tree rest) : Literal.wellFormedAll tree.spelled = true := by
  cases derives with
  | braced contents =>
      exact LiteralTree.wellFormedAll_spelledAll
        (contents.forall (fun item => item.length_lt) fun _ _ item => item.wellFormed)
  | bare contents =>
      have whole := contents.wellFormed
      simpa [BodyTree.spelled, Literal.wellFormedAll, Atom.holds, Literal.wellFormed,
        Atom.wellFormed] using whole
termination_by 2 * text.length + 1
decreasing_by all_goals (subst_vars; omega)

theorem Grammar.DerivesAtom.wellFormed {text rest : List Char} {tree : AtomTree}
    (derives : DerivesAtom text tree rest) : tree.spelled.wellFormed = true := by
  cases derives with
  | applied word before contents =>
      have first := word.length_lt
      have second := before.length_le
      have arguments := ArgumentTree.wellFormedAll_spelledAll
        (contents.forall (fun item => item.length_lt) fun _ _ item => item.wellFormed)
      rw [AtomTree.spelled, Atom.wellFormed, word.isName, arguments]
      rfl
termination_by 2 * text.length
decreasing_by all_goals (subst_vars; omega)

theorem Grammar.DerivesLiteral.wellFormed {text rest : List Char} {tree : LiteralTree}
    (derives : DerivesLiteral text tree rest) : tree.spelled.wellFormed = true := by
  cases derives with
  | negation behind contents =>
      have first := behind.length_le
      exact contents.wellFormed
  | atom contents => exact contents.wellFormed
  | comparison left before sign behind right =>
      have first := left.length_lt
      have second := before.length_le
      have third := sign.length_lt
      have fourth := behind.length_le
      rw [LiteralTree.spelled, Literal.wellFormed, left.wellFormed, right.wellFormed]
      rfl
  | truth => rfl
termination_by 2 * text.length + 1
decreasing_by all_goals (subst_vars; simp only [List.length_cons] at *; omega)
end

theorem Grammar.DerivesClause.wellFormed {text rest : List Char} {tree : ClauseTree}
    (derives : DerivesClause text tree rest) : tree.spelled.wellFormed = true := by
  cases derives with
  | fact head =>
      rw [ClauseTree.spelled, Clause.wellFormed, head.wellFormed]
      rfl
  | rule head before front contents =>
      have body := LiteralTree.wellFormedAll_spelledAll
        (contents.forall (fun item => item.length_lt) fun _ _ item => item.wellFormed)
      rw [ClauseTree.spelled, Clause.wellFormed, head.wellFormed, body]
      rfl

/-! ## Statements -/

theorem Grammar.DerivesAttribute.wellFormed {text rest : List Char} {column : Attribute}
    (derives : DerivesAttribute text column rest) : column.wellFormed = true := by
  cases derives with
  | typed word before behind second =>
      rw [Attribute.wellFormed, word.isName, second.isName]
      rfl

theorem Grammar.DerivesSignature.wellFormed {text rest : List Char} {names : List String}
    {attributes : List Attribute} (derives : DerivesSignature text names attributes rest) :
    (∀ name ∈ names, isName name = true) ∧
      ∀ column ∈ attributes, column.wellFormed = true := by
  cases derives with
  | declared keyword ends front listed before contents =>
      exact ⟨listed.forall (fun word => word.length_lt) fun _ _ word => word.isName,
        contents.forall (fun item => item.length_lt) fun _ _ item => item.wellFormed⟩

/-- The relations that a derived statement declares are well formed. -/
theorem Grammar.DerivesStatement.relations_wellFormed {text rest : List Char}
    {tree : StatementTree} (derives : DerivesStatement text tree rest) :
    ∀ relation ∈ tree.spelled.relations, relation.wellFormed = true := by
  have ofSignature {stop : List Char} {names : List String} {attributes : List Attribute}
      (signature : DerivesSignature text names attributes stop) (representation : Representation) :
      ∀ relation ∈ Declaration.relations ⟨names, attributes, representation⟩,
        relation.wellFormed = true := by
    intro relation member
    obtain ⟨name, listed, rfl⟩ := List.mem_map.mp member
    obtain ⟨named, columns⟩ := signature.wellFormed
    rw [Relation.wellFormed, named name listed, Bool.true_and, List.all_eq_true]
    exact columns
  cases derives with
  | clause => intro relation member; cases member
  | declaration contents =>
      cases contents with
      | unqualified signature => exact ofSignature signature _
      | qualified signature => exact ofSignature signature _

/-- The clause that a derived statement states is well formed. -/
theorem Grammar.DerivesStatement.contents_wellFormed {text rest : List Char}
    {tree : StatementTree} (derives : DerivesStatement text tree rest) :
    ∀ clause ∈ tree.spelled.contents, clause.wellFormed = true := by
  cases derives with
  | declaration => intro clause member; cases member
  | clause contents =>
      intro clause member
      rw [StatementTree.spelled, Statement.contents] at member
      split at member
      · obtain rfl := List.mem_singleton.mp member
        rw [Clause.denoted, Clause.wellFormed_map]
        exact contents.wellFormed
      · cases member

/-! ## Programs -/

/-- **The program of any text is well formed.** -/
theorem TranslationUnit.ofText_wellFormed (code : List Char) (symbols : SymbolTable)
    (report : ErrorReport) (debug : DebugReport) :
    (ofText code symbols report debug).program.wellFormed = true := by
  obtain ⟨-, relations, contents, -⟩ := ofText_holds code symbols report debug
  rw [Program.wellFormed, Bool.and_eq_true, List.all_eq_true, List.all_eq_true, relations]
  constructor
  · intro relation member
    rcases Relation.mem_of_mem_foldl_enter member with none | member
    · cases none
    · obtain ⟨stated, listed, member⟩ := List.mem_flatMap.mp member
      obtain ⟨start, tree, rest, derives, rfl⟩ :=
        Segment.derives_of_mem_statements code stated listed
      exact derives.relations_wellFormed relation member
  · intro clause member
    have content : clause.content ∈ denotedClauses (Segment.statements code) :=
      contents ▸ List.mem_map_of_mem member
    obtain ⟨stated, listed, member⟩ := List.mem_flatMap.mp content
    obtain ⟨start, tree, rest, derives, rfl⟩ :=
      Segment.derives_of_mem_statements code stated listed
    have whole := derives.contents_wellFormed clause.content member
    rwa [Clause.content, Clause.wellFormed_map] at whole

end Datalog
