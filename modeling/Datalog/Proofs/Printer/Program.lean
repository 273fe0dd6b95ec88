import Datalog.Program.Printer
import Datalog.Proofs.Printer.Clause
import Datalog.Proofs.TranslationUnit.Report

/-!
# The text of a program can be derived

The canonical text of a well-formed program is a sequence of statements that
declare its relations and state its clauses (`Program.states_text`).  A line for
a declaration may end without a word for a representation, and the next line may
start with such a word, as the name of a relation.  The grammar tells the two
apart by the parenthesis that follows the name.
-/

set_option autoImplicit false

namespace Datalog

open Grammar

/-! ## Declarations -/

/-- Whether a declaration lists names at all, and all its names can be written. -/
structure Declaration.WellFormed (declaration : Declaration) : Prop where
  some : declaration.names ≠ []
  names : ∀ name ∈ declaration.names, isName name = true
  attributes : ∀ column ∈ declaration.attributes, column.wellFormed = true

theorem attribute_written {column : Attribute} (wellFormed : column.wellFormed = true) :
    Written DerivesAttribute id column.text column := by
  intro rest free
  rw [Attribute.wellFormed, Bool.and_eq_true] at wellFormed
  have word := Word.of_isName wellFormed.1 (beginsInName_cons (c := ':') (by decide)
    (column.typeName.toList ++ rest))
  refine ⟨column, ?_, rfl⟩
  simpa [Attribute.text] using
    DerivesAttribute.typed word (.nothing _) (.nothing _) (Word.of_isName wellFormed.2 free)

/-- The text of a declaration up to the end of its attributes. -/
def Declaration.signatureText (declaration : Declaration) : List Char :=
  ".decl ".toList ++ separate [','] (declaration.names.map String.toList) ++
    '(' :: separate [','] (declaration.attributes.map Attribute.text) ++ [')']

/-- The text of a declaration behind its attributes. -/
def Declaration.qualifierText (declaration : Declaration) : List Char :=
  match declaration.representation.qualifier? with
  | none => []
  | some qualifier => ' ' :: qualifier.toList

theorem Declaration.text_eq (declaration : Declaration) :
    declaration.text = declaration.signatureText ++ declaration.qualifierText := rfl

/-- The keyword and the space behind it, apart from the rest. -/
theorem keyword_append (names columns rest : List Char) :
    ".decl ".toList ++ names ++ '(' :: columns ++ [')'] ++ rest =
      ".decl".toList ++ (' ' :: (names ++ '(' :: (columns ++ ')' :: rest))) := by
  have spelled : ".decl ".toList = ".decl".toList ++ [' '] := by decide
  rw [spelled]
  simp

theorem signature_written {declaration : Declaration} (wellFormed : declaration.WellFormed)
    (rest : List Char) :
    DerivesSignature (declaration.signatureText ++ rest) declaration.names declaration.attributes
      rest := by
  obtain ⟨columns, contents, same⟩ :
      ∃ columns, Enclosed DerivesAttribute '(' ')'
          ('(' :: (separate [','] (declaration.attributes.map Attribute.text) ++ ')' :: rest))
          columns rest ∧ columns.map id = declaration.attributes.map id :=
    enclosed_written (by decide)
      (listed_written fun column member => attribute_written (wellFormed.attributes column member))
      rest
  obtain ⟨names, listed, same'⟩ :
      ∃ names, Separated Word (separate [','] (declaration.names.map String.toList) ++
          '(' :: (separate [','] (declaration.attributes.map Attribute.text) ++ ')' :: rest)) names
          ('(' :: (separate [','] (declaration.attributes.map Attribute.text) ++ ')' :: rest)) ∧
        names.map id = declaration.names.map id :=
    listed_written
      (fun name member _ free => ⟨name, Word.of_isName (wellFormed.names name member) free, rfl⟩)
      wellFormed.some _ (beginsInName_cons (by decide) _)
  rw [List.map_id, List.map_id] at same same'
  subst same same'
  exact .declared (keyword_append _ _ _) (beginsInName_cons (by decide) _) (layout_space _) listed
    (.nothing _) contents

/-- **The text of a declaration is derived in front of anything that is no
parenthesis and does not go on with a name.** -/
theorem Declaration.derives_text {declaration : Declaration} (wellFormed : declaration.WellFormed)
    {rest : List Char} (free : beginsInName rest = false) (closed : ¬ Opens rest) :
    ∃ tree, DerivesDeclaration (declaration.text ++ rest) tree rest ∧
      tree.spelled = declaration := by
  cases asked : declaration.representation.qualifier? with
  | none =>
      have default : declaration.representation = .default := by
        cases kind : declaration.representation <;> simp_all [Representation.qualifier?]
      refine ⟨⟨declaration.names, declaration.attributes, none⟩, ?_, ?_⟩
      · have nothing : declaration.qualifierText = [] := by rw [Declaration.qualifierText, asked]
        rw [Declaration.text_eq, nothing, List.append_nil]
        exact .unqualified (signature_written wellFormed rest)
      · rw [DeclarationTree.spelled, Option.getD_none, ← default]
  | some word =>
      have named : isName word = true := by
        cases kind : declaration.representation <;> rw [kind] at asked <;> cases asked <;> decide
      refine ⟨⟨declaration.names, declaration.attributes, declaration.representation⟩, ?_, rfl⟩
      have qualifier : DerivesQualifier (word.toList ++ rest) declaration.representation rest :=
        ⟨⟨word, asked, Word.of_isName named free⟩, closed⟩
      have written : declaration.qualifierText = ' ' :: word.toList := by
        rw [Declaration.qualifierText, asked]
      rw [Declaration.text_eq, written, List.append_assoc]
      exact .qualified (signature_written wellFormed (' ' :: (word.toList ++ rest)))
        (layout_space _) qualifier

/-! ## Texts that state a program -/

/-- The text is a sequence of statements that declare the relations and state the
clauses, and no numeral in it is out of range. -/
def States (text : List Char) (relations : List Relation)
    (contents : List (Clause Int64 String)) : Prop :=
  ∃ trees, DerivesStatements text trees ∧
    (∀ stated ∈ trees.map StatementTree.spelled, stated.inRange = true) ∧
    (trees.map StatementTree.spelled).flatMap Statement.relations = relations ∧
    (trees.map StatementTree.spelled).flatMap Statement.contents = contents

/-- No statement starts with a parenthesis. -/
theorem Grammar.DerivesStatements.not_opens {text : List Char} {trees : List StatementTree}
    (derives : DerivesStatements text trees) : ¬ Opens text := by
  rintro ⟨inner, opens⟩
  have stands := opens.skip_eq_of_solid ⟨'(', inner, rfl, by decide⟩
  cases derives with
  | done before =>
      rw [before.skip_eq] at stands
      simp [skip] at stands
  | next before first =>
      rw [before.skip_eq_of_solid first.solid] at stands
      subst stands
      cases first with
      | declaration contents =>
          obtain ⟨behind, same⟩ := contents.starts
          exact absurd (List.cons.inj same).1 (by decide)
      | clause contents =>
          obtain ⟨name, mark, word, -⟩ := contents.opens
          exact word.head_ne (by decide)

theorem opens_of_layout {text rest : List Char} (layout : Layout text rest)
    (opens : Opens text) : Opens rest := by
  obtain ⟨inner, before⟩ := opens
  refine ⟨inner, ?_⟩
  have behind := layout_skip rest
  rwa [← layout.skip_eq, before.skip_eq_of_solid ⟨'(', inner, rfl, by decide⟩] at behind

theorem layout_feed (text : List Char) : Layout ('\n' :: text) text :=
  .blank (by decide) (.nothing text)

theorem states_nil : States [] [] [] :=
  ⟨[], .done (.nothing []), by simp, rfl, rfl⟩

/-- A clause in front of what states a program, with layout between. -/
theorem States.clause {gap text : List Char} {relations : List Relation}
    {contents : List (Clause Int64 String)} (states : States text relations contents)
    (blank : Layout gap text) {clause : Clause Int64 String}
    (wellFormed : clause.wellFormed = true) :
    States (clause.text ++ gap) relations (clause :: contents) := by
  obtain ⟨trees, derives, range, rfl, rfl⟩ := states
  obtain ⟨tree, first, inRange, denoted⟩ := Clause.derives_text wellFormed gap
  refine ⟨.clause tree :: trees,
    .next (.nothing _) (.clause first) (derives.behind blank), ?_, rfl, ?_⟩
  · intro stated member
    rcases List.mem_cons.mp member with rfl | member
    · exact inRange
    · exact range stated member
  · rw [List.map_cons, List.flatMap_cons, StatementTree.spelled, Statement.contents,
      if_pos inRange, denoted]
    rfl

/-- A declaration in front of what states a program, with layout between. -/
theorem States.declaration {gap text : List Char} {relations : List Relation}
    {contents : List (Clause Int64 String)} (states : States text relations contents)
    (blank : Layout gap text) (free : beginsInName gap = false) {declaration : Declaration}
    (wellFormed : declaration.WellFormed) :
    States (declaration.text ++ gap) (declaration.relations ++ relations) contents := by
  obtain ⟨trees, derives, range, rfl, rfl⟩ := states
  have closed : ¬ Opens gap := fun opens => derives.not_opens (opens_of_layout blank opens)
  obtain ⟨tree, first, spelled⟩ := Declaration.derives_text wellFormed free closed
  refine ⟨.declaration tree :: trees,
    .next (.nothing _) (.declaration first) (derives.behind blank), ?_, ?_, rfl⟩
  · intro stated member
    rcases List.mem_cons.mp member with rfl | member
    · rfl
    · exact range stated member
  · rw [List.map_cons, List.flatMap_cons, StatementTree.spelled, Statement.relations, spelled]

/-! ## Programs -/

theorem Declaration.names_ne_nil_of_mem_ofRelations (relations : List Relation) :
    ∀ declaration ∈ Declaration.ofRelations relations, declaration.names ≠ [] := by
  induction relations with
  | nil => intro declaration member; cases member
  | cons relation rest ih =>
      unfold Declaration.ofRelations
      split
      next declaration others written =>
        rw [written] at ih
        split
        · intro other member
          rcases List.mem_cons.mp member with rfl | member
          · exact List.cons_ne_nil _ _
          · exact ih other (List.mem_cons_of_mem _ member)
        · intro other member
          rcases List.mem_cons.mp member with rfl | member
          · exact List.cons_ne_nil _ _
          · exact ih other member
      next =>
        intro other member
        obtain rfl := List.mem_singleton.mp member
        exact List.cons_ne_nil _ _

/-- The declarations of well-formed relations are well formed. -/
theorem Declaration.wellFormed_of_mem_ofRelations {relations : List Relation}
    (wellFormed : ∀ relation ∈ relations, relation.wellFormed = true) :
    ∀ declaration ∈ Declaration.ofRelations relations, declaration.WellFormed := by
  intro declaration member
  have some := Declaration.names_ne_nil_of_mem_ofRelations relations declaration member
  have each : ∀ name ∈ declaration.names, Relation.wellFormed
      ⟨name, declaration.attributes, declaration.representation⟩ = true := by
    intro name listed
    refine wellFormed _ ?_
    rw [← Declaration.flatMap_relations_ofRelations relations]
    exact List.mem_flatMap.mpr ⟨declaration, member, List.mem_map.mpr ⟨name, listed, rfl⟩⟩
  refine ⟨some, fun name listed => ?_, ?_⟩
  · have whole := each name listed
    rw [Relation.wellFormed, Bool.and_eq_true] at whole
    exact whole.1
  · obtain ⟨name, listed⟩ := List.exists_mem_of_ne_nil _ some
    have whole := each name listed
    rw [Relation.wellFormed, Bool.and_eq_true, List.all_eq_true] at whole
    exact whole.2

theorem states_clauses {clauses : List InternedClause}
    (wellFormed : ∀ clause ∈ clauses, clause.wellFormed = true) :
    States ((clauses.map fun clause => clause.content.text).flatMap fun line => line ++ ['\n']) []
      (clauses.map Clause.content) := by
  induction clauses with
  | nil => exact states_nil
  | cons clause rest ih =>
      have further := ih fun other member => wellFormed other (List.mem_cons_of_mem _ member)
      have first : clause.content.wellFormed = true := by
        rw [Clause.content, Clause.wellFormed_map]
        exact wellFormed clause List.mem_cons_self
      simpa using further.clause (layout_feed _) first

theorem States.declarations {text : List Char} {contents : List (Clause Int64 String)}
    (states : States text [] contents) {declarations : List Declaration}
    (wellFormed : ∀ declaration ∈ declarations, declaration.WellFormed) :
    States (((declarations.map Declaration.text).flatMap fun line => line ++ ['\n']) ++ text)
      (declarations.flatMap Declaration.relations) contents := by
  induction declarations with
  | nil => exact states
  | cons declaration rest ih =>
      have further := ih fun other member => wellFormed other (List.mem_cons_of_mem _ member)
      have first := further.declaration (layout_feed _) (beginsInName_cons (by decide) _)
        (wellFormed declaration List.mem_cons_self)
      simpa using first

/-- **The text of a well-formed program states it.** -/
theorem Program.states_text {program : Program} (wellFormed : program.wellFormed = true) :
    States program.text program.relations (program.clauseList.map Clause.content) := by
  rw [Program.wellFormed, Bool.and_eq_true, List.all_eq_true, List.all_eq_true] at wellFormed
  obtain ⟨relations, clauses⟩ := wellFormed
  have stated := (states_clauses clauses).declarations
    (Declaration.wellFormed_of_mem_ofRelations relations)
  rwa [Declaration.flatMap_relations_ofRelations, ← List.flatMap_append] at stated

end Datalog
