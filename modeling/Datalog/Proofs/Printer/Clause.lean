import Datalog.Proofs.Grammar.Derivation
import Datalog.Proofs.Interning
import Datalog.Proofs.Printer.WellFormed
import Datalog.Proofs.Text.Decimal
import Datalog.Proofs.Text.Quoted
import Datalog.Tree.Printer

/-!
# The text of a clause can be derived

The canonical text of an argument or a literal is derived in front of anything
that does not go on with a name, and the tree stands for what was written: with
every numeral replaced by the integer that it denotes, the tree's meaning is the
argument or the literal itself.  This is shown for all arguments and literals at
once, by recursion on what is written (`Argument.derives_text` and
`Literal.derives_text`).

The body of an aggregate is written in braces unless it is a single atom.  A bare
body of any other kind could not be read back: the literals behind the first one
would be taken for literals of the enclosing body.
-/

set_option autoImplicit false

namespace Datalog

open Grammar

/-! ## Meanings -/

/-- The argument that a tree stands for, with integers in place of numerals. -/
def Grammar.ArgumentTree.meaning (tree : ArgumentTree) : Argument Int String :=
  tree.spelled.map Numeral.value id

/-- The literal that a tree stands for, with integers in place of numerals. -/
def Grammar.LiteralTree.meaning (tree : LiteralTree) : Literal Int String :=
  tree.spelled.map Numeral.value id

/-- The atom that a tree stands for, with integers in place of numerals. -/
def Grammar.AtomTree.meaning (tree : AtomTree) : Atom Int String :=
  tree.spelled.map Numeral.value id

/-- The body that a tree stands for, with integers in place of numerals. -/
def Grammar.BodyTree.meaning (tree : BodyTree) : List (Literal Int String) :=
  Literal.mapAll Numeral.value id tree.spelled

theorem Grammar.LiteralTree.meaning_atom (tree : AtomTree) :
    (LiteralTree.atom tree).meaning = tree.meaning.holds := rfl

theorem Grammar.LiteralTree.meaning_negation (tree : AtomTree) :
    (LiteralTree.negation tree).meaning = tree.meaning.fails := rfl

theorem Grammar.BodyTree.meaning_bare (tree : AtomTree) :
    (BodyTree.bare tree).meaning = [tree.meaning.holds] := rfl

/-- An argument with integers in place of machine integers. -/
def Argument.widen (argument : Argument Int64 String) : Argument Int String :=
  argument.map Int64.toInt id

/-- A literal with integers in place of machine integers. -/
def Literal.widen (literal : Literal Int64 String) : Literal Int String :=
  literal.map Int64.toInt id

theorem Grammar.ArgumentTree.mapAll_spelledAll (trees : List ArgumentTree) :
    Argument.mapAll Numeral.value id (ArgumentTree.spelledAll trees) =
      trees.map ArgumentTree.meaning := by
  rw [Argument.mapAll_eq_map, ArgumentTree.spelledAll_eq_map, List.map_map]
  rfl

theorem Grammar.LiteralTree.mapAll_spelledAll (trees : List LiteralTree) :
    Literal.mapAll Numeral.value id (LiteralTree.spelledAll trees) =
      trees.map LiteralTree.meaning := by
  rw [Literal.mapAll_eq_map, LiteralTree.spelledAll_eq_map, List.map_map]
  rfl

/-! ## Sequences -/

theorem beginsInName_cons {c : Char} (other : continuesName c = false) (rest : List Char) :
    beginsInName (c :: rest) = false := by
  rw [beginsInName_eq_false_iff]
  intro d head
  obtain rfl : c = d := by simpa using head
  exact other

/-- A piece that is written and derived, whatever does not go on with a name
comes behind it. -/
def Written {τ γ : Type} (Derives : List Char → τ → List Char → Prop) (meaning : τ → γ)
    (text : List Char) (value : γ) : Prop :=
  ∀ rest, beginsInName rest = false →
    ∃ tree, Derives (text ++ rest) tree rest ∧ meaning tree = value

section Sequences

variable {α τ γ : Type} {Derives : List Char → τ → List Char → Prop} {meaning : τ → γ}
  {text : α → List Char} {value : α → γ} {gap : List Char}

theorem separate_cons_cons (separator : List Char) (first second : List Char)
    (others : List (List Char)) :
    separate separator (first :: second :: others) =
      first ++ separator ++ separate separator (second :: others) := by
  rw [separate, List.intercalate_cons_cons, separate]

/-- A sequence is written item by item, with a comma and a gap between them. -/
theorem separated_written (blank : ∀ text : List Char, Layout (gap ++ text) text) {item : α}
    {others : List α} (first : Written Derives meaning (text item) (value item))
    (later : others ≠ [] → Written (Separated Derives) (List.map meaning)
      (separate (',' :: gap) (others.map text)) (others.map value)) :
    Written (Separated Derives) (List.map meaning)
      (separate (',' :: gap) ((item :: others).map text)) ((item :: others).map value) := by
  intro rest free
  cases others with
  | nil =>
      obtain ⟨tree, derives, same⟩ := first rest free
      refine ⟨[tree], ?_, by rw [List.map_singleton, same]; rfl⟩
      rw [List.map_singleton, separate, List.intercalate_singleton]
      exact .single derives
  | cons next others =>
      obtain ⟨trees, separated, same⟩ := later (List.cons_ne_nil _ _) rest free
      obtain ⟨tree, derives, same'⟩ := first
        (',' :: (gap ++ (separate (',' :: gap) ((next :: others).map text) ++ rest)))
        (beginsInName_cons (by decide) _)
      refine ⟨tree :: trees, ?_, by rw [List.map_cons, List.map_cons, same, same']⟩
      rw [List.map_cons, List.map_cons, separate_cons_cons, ← List.map_cons, List.append_assoc,
        List.append_assoc, List.cons_append]
      exact .more derives (.nothing _) (blank _) separated

/-- Items that are written one by one are written with commas between them. -/
theorem listed_written {items : List α}
    (all : ∀ item ∈ items, Written Derives meaning (text item) (value item))
    (nonempty : items ≠ []) :
    Written (Separated Derives) (List.map meaning) (separate [','] (items.map text))
      (items.map value) := by
  induction items with
  | nil => exact absurd rfl nonempty
  | cons item others ih =>
      refine separated_written (fun text => ?_) (all item List.mem_cons_self)
        (ih fun other member => all other (List.mem_cons_of_mem _ member))
      exact .nothing text

/-- A sequence is written between signs, also when it is empty. -/
theorem enclosed_written {opening closing : Char} (closes : continuesName closing = false)
    {items : List α}
    (listed : items ≠ [] → Written (Separated Derives) (List.map meaning)
      (separate [','] (items.map text)) (items.map value)) (rest : List Char) :
    ∃ trees, Enclosed Derives opening closing
        (opening :: (separate [','] (items.map text) ++ closing :: rest)) trees rest ∧
      trees.map meaning = items.map value := by
  cases items with
  | nil => exact ⟨[], .empty (.nothing _), rfl⟩
  | cons first others =>
      obtain ⟨trees, separated, same⟩ := listed (List.cons_ne_nil _ _) (closing :: rest)
        (beginsInName_cons closes rest)
      exact ⟨trees, .filled (.nothing _) separated (.nothing _), same⟩

end Sequences

theorem layout_space (text : List Char) : Layout ([' '] ++ text) text :=
  .blank (by decide) (.nothing text)

/-! ## Atoms -/

theorem Word.of_isName {name : String} (named : isName name = true) {rest : List Char}
    (free : beginsInName rest = false) : Word (name.toList ++ rest) name rest :=
  ⟨rfl, named, free⟩

/-- A name that is applied to arguments. -/
theorem atom_written {name : String} {arguments : List (Argument Int64 String)}
    (named : isName name = true)
    (listed : arguments ≠ [] → Written (Separated DerivesArgument) (List.map ArgumentTree.meaning)
      (separate [','] (arguments.map Argument.text)) (arguments.map Argument.widen))
    (rest : List Char) :
    ∃ tree, DerivesAtom
        (name.toList ++ '(' :: separate [','] (Argument.texts arguments) ++ [')'] ++ rest)
        tree rest ∧
      tree.meaning = ⟨name, arguments.map Argument.widen⟩ := by
  rw [Argument.texts_eq_map]
  obtain ⟨trees, contents, same⟩ :
      ∃ trees, Enclosed DerivesArgument '(' ')'
          ('(' :: (separate [','] (arguments.map Argument.text) ++ ')' :: rest)) trees rest ∧
        trees.map ArgumentTree.meaning = arguments.map Argument.widen :=
    enclosed_written (by decide) listed rest
  refine ⟨.applied name trees, ?_, ?_⟩
  · have word := Word.of_isName named (beginsInName_cons (c := '(') (by decide)
      (separate [','] (arguments.map Argument.text) ++ ')' :: rest))
    simpa using DerivesAtom.applied word (.nothing _) contents
  · rw [AtomTree.meaning, AtomTree.spelled, Atom.map, ArgumentTree.mapAll_spelledAll, same]

/-! ## Arguments and literals -/

/-- Brackets of an aggregate around literals that are not a lone atom. -/
theorem braces_written {literal : Literal Int64 String} {others : List (Literal Int64 String)}
    (listed : Written (Separated DerivesLiteral) (List.map LiteralTree.meaning)
      (separate [',', ' '] ((literal :: others).map Literal.text))
      ((literal :: others).map Literal.widen)) (rest : List Char) :
    ∃ tree, DerivesBody
        (['\x7b', ' '] ++ separate [',', ' '] (Literal.texts (literal :: others)) ++
          [' ', '\x7d'] ++ rest) tree rest ∧
      tree.meaning = (literal :: others).map Literal.widen := by
  obtain ⟨trees, separated, same⟩ := listed (' ' :: '\x7d' :: rest)
    (beginsInName_cons (by decide) _)
  refine ⟨.braced trees, ?_, ?_⟩
  · have enclosed : Enclosed DerivesLiteral '\x7b' '\x7d' _ trees rest :=
      .filled (layout_space _) separated (layout_space _)
    simpa [Literal.texts_eq_map] using DerivesBody.braced enclosed
  · rw [BodyTree.meaning, BodyTree.spelled, LiteralTree.mapAll_spelledAll, same]

mutual
/-- **The text of an argument is derived wherever no name goes on.** -/
theorem Argument.derives_text : ∀ argument : Argument Int64 String, argument.wellFormed = true →
    Written DerivesArgument ArgumentTree.meaning argument.text argument.widen
  | .nil, _, rest, free => ⟨.nil, .nil (Word.of_isName (by decide) free), rfl⟩
  | .number value, _, rest, free => by
      refine ⟨_, .number (Text.numberText_decimal value.toInt free), ?_⟩
      rw [ArgumentTree.meaning, ArgumentTree.spelled, Argument.map, Numeral.value,
        Text.ofDecimal_decimal]
      rfl
  | .string value, _, rest, _ => by
      refine ⟨.string (Text.escape value.toList), ?_, ?_⟩
      · exact .string (Text.interior_escape value.toList) (by simp)
      · rw [ArgumentTree.meaning, ArgumentTree.spelled, Text.unescape_escape, String.ofList_toList]
        rfl
  | .variable name, wellFormed, rest, free => by
      simp only [Argument.wellFormed, isVariableName, Bool.and_eq_true, Bool.not_eq_true',
        bne_iff_ne, List.contains_eq_mem, decide_eq_false_iff_not] at wellFormed
      obtain ⟨⟨named, unreserved⟩, notUnnamed⟩ := wellFormed
      exact ⟨.variable name, .free (Word.of_isName named free) unreserved notUnnamed, rfl⟩
  | .unnamed, _, _, free => ⟨.unnamed, .unnamed ⟨rfl, by decide, free⟩, rfl⟩
  | .counter, _, rest, _ => ⟨.counter, .counter, rfl⟩
  | .aggregate kind none body, wellFormed, rest, _ => by
      obtain ⟨tree, contents, same⟩ := Literal.derives_enclose body wellFormed rest
      have named : isName kind.keyword = true := by cases kind <;> decide
      have word := Word.of_isName named (beginsInName_cons (c := ' ') (by decide)
        (':' :: ' ' :: (Literal.enclose body (Literal.texts body) ++ rest)))
      refine ⟨.aggregate kind none tree, ?_, ?_⟩
      · simpa [Argument.text] using DerivesArgument.untargeted word
          (layout_space _) (layout_space _) contents
      · rw [ArgumentTree.meaning, ArgumentTree.spelled, Argument.map, ← BodyTree.meaning, same,
          Argument.widen, Argument.map, Literal.mapAll_eq_map]
        rfl
  | .aggregate kind (some target) body, wellFormed, rest, _ => by
      rw [Argument.wellFormed, Bool.and_eq_true] at wellFormed
      obtain ⟨wellFormedTarget, wellFormedBody⟩ := wellFormed
      obtain ⟨tree, contents, same⟩ := Literal.derives_enclose body wellFormedBody rest
      obtain ⟨targetTree, reduced, same'⟩ := Argument.derives_text target wellFormedTarget
        (' ' :: ':' :: ' ' :: (Literal.enclose body (Literal.texts body) ++ rest))
        (beginsInName_cons (by decide) _)
      have named : isName kind.keyword = true := by cases kind <;> decide
      have word := Word.of_isName named (beginsInName_cons (c := ' ') (by decide)
        (target.text ++ (' ' :: ':' :: ' ' :: (Literal.enclose body (Literal.texts body) ++ rest))))
      refine ⟨.aggregate kind (some targetTree) tree, ?_, ?_⟩
      · simpa [Argument.text] using DerivesArgument.targeted word
          (layout_space _) reduced (layout_space _) (layout_space _) contents
      · rw [ArgumentTree.meaning, ArgumentTree.spelled, Argument.map, ← BodyTree.meaning, same,
          ← ArgumentTree.meaning, same', Argument.widen, Argument.widen, Argument.map,
          Literal.mapAll_eq_map]
        rfl

theorem Argument.derives_texts : ∀ arguments : List (Argument Int64 String),
    Argument.wellFormedAll arguments = true → arguments ≠ [] →
    Written (Separated DerivesArgument) (List.map ArgumentTree.meaning)
      (separate [','] (arguments.map Argument.text)) (arguments.map Argument.widen)
  | [], _, nonempty => absurd rfl nonempty
  | argument :: rest, wellFormed, _ => by
      rw [Argument.wellFormedAll, Bool.and_eq_true] at wellFormed
      refine separated_written (fun text => ?_)
        (Argument.derives_text argument wellFormed.1) (Argument.derives_texts rest wellFormed.2)
      exact .nothing text

/-- **The text of a literal is derived wherever no name goes on.** -/
theorem Literal.derives_text : ∀ literal : Literal Int64 String, literal.wellFormed = true →
    Written DerivesLiteral LiteralTree.meaning literal.text literal.widen
  | .positive name arguments, wellFormed, rest, _ => by
      rw [Literal.wellFormed, Bool.and_eq_true] at wellFormed
      obtain ⟨tree, contents, same⟩ := atom_written wellFormed.1
        (Argument.derives_texts arguments wellFormed.2) rest
      refine ⟨.atom tree, .atom contents, ?_⟩
      rw [LiteralTree.meaning_atom, same, Literal.widen, Literal.map, Argument.mapAll_eq_map]
      rfl
  | .negative name arguments, wellFormed, rest, _ => by
      rw [Literal.wellFormed, Bool.and_eq_true] at wellFormed
      obtain ⟨tree, contents, same⟩ := atom_written wellFormed.1
        (Argument.derives_texts arguments wellFormed.2) rest
      refine ⟨.negation tree, ?_, ?_⟩
      · simpa [Literal.text] using DerivesLiteral.negation (.nothing _) contents
      · rw [LiteralTree.meaning_negation, same, Literal.widen, Literal.map, Argument.mapAll_eq_map]
        rfl
  | .comparison operator left right, wellFormed, rest, free => by
      rw [Literal.wellFormed, Bool.and_eq_true] at wellFormed
      obtain ⟨rightTree, second, same⟩ := Argument.derives_text right wellFormed.2 rest free
      obtain ⟨leftTree, first, same'⟩ := Argument.derives_text left wellFormed.1
        (' ' :: (operator.operator.toList ++ ' ' :: (right.text ++ rest)))
        (beginsInName_cons (by decide) _)
      have sign : OperatorText (operator.operator.toList ++ ' ' :: (right.text ++ rest)) operator
          (' ' :: (right.text ++ rest)) := ⟨rfl, fun _ => by simp⟩
      refine ⟨.comparison leftTree operator rightTree, ?_, ?_⟩
      · simpa [Literal.text] using DerivesLiteral.comparison first (layout_space _) sign
          (layout_space _) second
      · rw [LiteralTree.meaning, LiteralTree.spelled, Literal.map, ← ArgumentTree.meaning,
          ← ArgumentTree.meaning, same, same']
        rfl
  | .truth value, _, rest, free => by
      have named : isName (truthWord value) = true := by cases value <;> decide
      exact ⟨.truth value, .truth (Word.of_isName named free), rfl⟩

theorem Literal.derives_texts : ∀ body : List (Literal Int64 String),
    Literal.wellFormedAll body = true → body ≠ [] →
    Written (Separated DerivesLiteral) (List.map LiteralTree.meaning)
      (separate [',', ' '] (body.map Literal.text)) (body.map Literal.widen)
  | [], _, nonempty => absurd rfl nonempty
  | literal :: rest, wellFormed, _ => by
      rw [Literal.wellFormedAll, Bool.and_eq_true] at wellFormed
      exact separated_written layout_space
        (Literal.derives_text literal wellFormed.1) (Literal.derives_texts rest wellFormed.2)

/-- The body of an aggregate, in braces or bare, is derived in front of anything. -/
theorem Literal.derives_enclose : ∀ body : List (Literal Int64 String),
    Literal.wellFormedAll body = true → ∀ rest,
    ∃ tree, DerivesBody (Literal.enclose body (Literal.texts body) ++ rest) tree rest ∧
      tree.meaning = body.map Literal.widen
  | [], _, rest => ⟨.braced [], .braced (.empty (.nothing _)), rfl⟩
  | [.positive name arguments], wellFormed, rest => by
      simp only [Literal.wellFormedAll, Literal.wellFormed, Bool.and_true, Bool.and_eq_true]
        at wellFormed
      obtain ⟨tree, contents, same⟩ := atom_written wellFormed.1
        (Argument.derives_texts arguments wellFormed.2) rest
      have alone : Literal.enclose [.positive name arguments]
          (Literal.texts [.positive name arguments]) = (Literal.positive name arguments).text := by
        rw [Literal.enclose, Literal.texts, Literal.texts, separate, List.intercalate_singleton]
      rw [alone]
      refine ⟨.bare tree, .bare contents, ?_⟩
      rw [BodyTree.meaning_bare, same, List.map_singleton, Literal.widen, Literal.map,
        Argument.mapAll_eq_map]
      rfl
  | .positive name arguments :: next :: others, wellFormed, rest => by
      rw [Literal.wellFormedAll, Bool.and_eq_true] at wellFormed
      exact braces_written (separated_written layout_space
        (Literal.derives_text (.positive name arguments) wellFormed.1)
        (Literal.derives_texts (next :: others) wellFormed.2)) rest
  | .negative name arguments :: others, wellFormed, rest => by
      rw [Literal.wellFormedAll, Bool.and_eq_true] at wellFormed
      exact braces_written (separated_written layout_space
        (Literal.derives_text (.negative name arguments) wellFormed.1)
        (Literal.derives_texts others wellFormed.2)) rest
  | .comparison operator left right :: others, wellFormed, rest => by
      rw [Literal.wellFormedAll, Bool.and_eq_true] at wellFormed
      exact braces_written (separated_written layout_space
        (Literal.derives_text (.comparison operator left right) wellFormed.1)
        (Literal.derives_texts others wellFormed.2)) rest
  | .truth value :: others, wellFormed, rest => by
      rw [Literal.wellFormedAll, Bool.and_eq_true] at wellFormed
      exact braces_written (separated_written layout_space
        (Literal.derives_text (.truth value) wellFormed.1)
        (Literal.derives_texts others wellFormed.2)) rest
end

/-! ## Clauses -/

/-- A clause that means what another one says has its numerals in range, and denotes it. -/
theorem Clause.denoted_of_meaning {spelled : SpelledClause} {clause : Clause Int64 String}
    (same : spelled.map Numeral.value id = clause.map Int64.toInt id) :
    spelled.inRange = true ∧ spelled.denoted = clause := by
  constructor
  · have taken : rejected? spelled.constants = none := by
      refine (rejected?_eq_none_iff _).mpr fun numeral member => ?_
      have valued := List.mem_map_of_mem (f := Sum.map Numeral.value id) member
      rw [← Clause.constants_map, same, Clause.constants_map, List.mem_map] at valued
      obtain ⟨constant, -, equal⟩ := valued
      cases constant with
      | inr text => cases equal
      | inl number =>
          have value : number.toInt = numeral.value := Sum.inl.inj equal
          simp only [Numeral.inRange, ← value, Bool.and_eq_true, decide_eq_true_eq]
          exact ⟨number.minValue_le_toInt, number.toInt_le⟩
    rw [Clause.inRange, taken]
    rfl
  · calc spelled.denoted
      _ = (spelled.map Numeral.value id).map Int64.ofInt id := by rw [Clause.map_map]; rfl
      _ = (clause.map Int64.toInt id).map Int64.ofInt id := by rw [same]
      _ = clause.map id id := by
        rw [Clause.map_map]
        congr 1
        funext number
        exact Int64.ofInt_toInt number
      _ = clause := clause.map_id

theorem Grammar.ClauseTree.map_spelled (tree : ClauseTree) :
    tree.spelled.map Numeral.value id =
      ⟨tree.head.meaning, tree.body.map LiteralTree.meaning⟩ := by
  rw [ClauseTree.spelled, Clause.map, LiteralTree.mapAll_spelledAll]
  rfl

theorem Clause.map_toInt (clause : Clause Int64 String) :
    clause.map Int64.toInt id =
      ⟨⟨clause.head.name, clause.head.arguments.map Argument.widen⟩,
        clause.body.map Literal.widen⟩ := by
  rw [Clause.map, Atom.map, Argument.mapAll_eq_map, Literal.mapAll_eq_map]
  rfl

/-- **The text of a clause is derived, and denotes the clause.** -/
theorem Clause.derives_text {clause : Clause Int64 String} (wellFormed : clause.wellFormed = true)
    (rest : List Char) :
    ∃ tree, DerivesClause (clause.text ++ rest) tree rest ∧ tree.spelled.inRange = true ∧
      tree.spelled.denoted = clause := by
  suffices written : ∃ tree, DerivesClause (clause.text ++ rest) tree rest ∧
      tree.spelled.map Numeral.value id = clause.map Int64.toInt id by
    obtain ⟨tree, derives, same⟩ := written
    exact ⟨tree, derives, Clause.denoted_of_meaning same⟩
  obtain ⟨head, body⟩ := clause
  rw [Clause.wellFormed, Atom.wellFormed, Bool.and_eq_true, Bool.and_eq_true] at wellFormed
  obtain ⟨⟨named, arguments⟩, literals⟩ := wellFormed
  have headWritten := atom_written named (Argument.derives_texts head.arguments arguments)
  cases body with
  | nil =>
      obtain ⟨tree, first, same⟩ := headWritten ('.' :: rest)
      refine ⟨⟨tree, []⟩, ?_, ?_⟩
      · simpa [Clause.text, Clause.isFact, Atom.text, Atom.holds, Literal.text] using
          DerivesClause.fact first (.nothing _)
      · rw [ClauseTree.map_spelled, Clause.map_toInt, same]
        rfl
  | cons literal others =>
      obtain ⟨trees, contents, same⟩ := Literal.derives_texts (literal :: others) literals
        (List.cons_ne_nil _ _) ('.' :: rest) (beginsInName_cons (by decide) rest)
      obtain ⟨tree, first, same'⟩ := headWritten (' ' :: ':' :: '-' :: ' ' ::
        (separate [',', ' '] ((literal :: others).map Literal.text) ++ '.' :: rest))
      refine ⟨⟨tree, trees⟩, ?_, ?_⟩
      · simpa [Clause.text, Clause.isFact, Atom.text, Atom.holds, Literal.text,
          Literal.texts_eq_map] using
          DerivesClause.rule first (layout_space _) (layout_space _) contents (.nothing _)
      · rw [ClauseTree.map_spelled, Clause.map_toInt, same, same']

end Datalog
