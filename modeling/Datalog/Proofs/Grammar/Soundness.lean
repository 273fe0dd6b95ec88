import Datalog.Proofs.Grammar.Derivation
import Datalog.Proofs.Grammar.Reading

/-!
# What is read can be derived

Whatever a phrase of the language reads, the grammar derives: there is a tree
that stands for the value, from the same text and with the same rest.  The
arguments inside a phrase are read by a phrase of their own, which is only
assumed to be sound; the levels of nesting are then counted off one by one.

A declaration may have passed layout that no qualifier follows, so its rest is
known up to layout (`declaration_sound`).
-/

set_option autoImplicit false

namespace Datalog.Grammar

open Phrase

/-- Whatever the phrase reads can be derived. -/
def Sound {α τ : Type} (phrase : Phrase α) (Derives : List Char → τ → List Char → Prop)
    (spelled : τ → α) : Prop :=
  ∀ {text : List Char} {a : α} {rest : List Char}, phrase.read text = some (a, rest) →
    ∃ tree, Derives text tree rest ∧ spelled tree = a

/-! ## Sequences with commas -/

section Sequences

variable {α τ : Type} {phrase : Phrase α} {Derives : List Char → τ → List Char → Prop}
  {spelled : τ → α}

theorem readMany_sound (sound : Sound phrase Derives spelled) (limit : Nat) {text : List Char}
    {as : List α} {rest : List Char}
    (read : readMany (token "," *> phrase) limit text = (as, rest)) :
    as = [] ∧ rest = text ∨
      ∃ comma next trees, Layout text (',' :: comma) ∧ Layout comma next ∧
        Separated Derives next trees rest ∧ trees.map spelled = as := by
  induction limit generalizing text as with
  | zero =>
      obtain ⟨rfl, rfl⟩ := Prod.mk.inj read
      exact .inl ⟨rfl, rfl⟩
  | succ limit ih =>
      rw [readMany] at read
      split at read
      next =>
        obtain ⟨rfl, rfl⟩ := Prod.mk.inj read
        exact .inl ⟨rfl, rfl⟩
      next a stop found =>
        obtain ⟨comma, nothing, mark, item⟩ := (read_seqRight_iff _ _ _ _ _).mp found
        have before := layout_skip text
        rw [(read_token_iff _ _ _ _).mp mark] at before
        obtain ⟨tree, derives, rfl⟩ := sound item
        rcases others : readMany (token "," *> phrase) limit stop with ⟨values, left⟩
        rw [others] at read
        obtain ⟨rfl, rfl⟩ := Prod.mk.inj read
        refine .inr ⟨comma, skip comma, ?_⟩
        rcases ih others with
          ⟨rfl, rfl⟩ | ⟨comma', next', trees, before', behind', separated, rfl⟩
        · exact ⟨[tree], before, layout_skip comma, .single derives, rfl⟩
        · exact ⟨tree :: trees, before, layout_skip comma,
            .more derives before' behind' separated, rfl⟩

theorem commaSeparated_sound (sound : Sound phrase Derives spelled) {text : List Char}
    {as : List α} {rest : List Char} (read : (commaSeparated phrase).read text = some (as, rest)) :
    ∃ trees stop, Separated Derives text trees stop ∧ Layout stop rest ∧
      trees.map spelled = as := by
  obtain ⟨a, middle, others, item, found, rfl⟩ := (read_commaSeparated_iff _ _ _ _).mp read
  obtain ⟨tree, derives, rfl⟩ := sound item
  rcases readMany_sound sound _ found with
    ⟨rfl, rfl⟩ | ⟨comma, next, trees, before, behind, separated, rfl⟩
  · exact ⟨[tree], middle, .single derives, layout_skip middle, rfl⟩
  · exact ⟨tree :: trees, rest,
      .more derives ((layout_skip middle).trans before) behind separated, .nothing rest, rfl⟩

theorem enclosed_sound (sound : Sound phrase Derives spelled) {opening closing : String}
    {first last : Char} (opens : opening.toList = [first]) (closes : closing.toList = [last]) :
    Sound (token opening *> listOf phrase <* token closing) (Enclosed Derives first last)
      (List.map spelled) := by
  intro text as rest read
  obtain ⟨inner, stop, rfl, listed, ends⟩ := (read_enclosed_iff _ _ _ _ _ _).mp read
  rw [opens, List.singleton_append]
  rw [closes, List.singleton_append] at ends
  have behind := layout_skip stop
  rw [ends] at behind
  rcases (read_listOf_iff _ _ _ _).mp listed with found | ⟨-, rfl, rfl⟩
  · obtain ⟨trees, stop', separated, layout, rfl⟩ := commaSeparated_sound sound found
    exact ⟨trees, .filled (layout_skip inner) separated (layout.trans behind), rfl⟩
  · exact ⟨[], .empty ((layout_skip inner).trans behind), rfl⟩

end Sequences

/-! ## Clauses -/

section Contents

variable {inside : Phrase SpelledArgument}
  (sound : Sound inside DerivesArgument ArgumentTree.spelled)
include sound

theorem atomOver_sound : Sound (atomOver inside) DerivesAtom AtomTree.spelled := by
  intro text atom rest read
  rw [atomOver, read_named] at read
  obtain ⟨f, middle, arguments, named, contents, rfl⟩ := (read_seq_iff _ _ _ _ _).mp read
  obtain ⟨name, word, rfl⟩ := (read_map_iff _ _ _ _ _).mp named
  obtain ⟨trees, enclosed, rfl⟩ := enclosed_sound sound (by rfl) (by rfl) contents
  refine ⟨.applied name trees,
    .applied ((readName_eq_some_iff _ _ _).mp word) (layout_skip middle) enclosed, ?_⟩
  rw [AtomTree.spelled, ArgumentTree.spelledAll_eq_map]

theorem negationOver_sound {text : List Char} {literal : SpelledLiteral} {rest : List Char}
    (read : (negationOver inside).read text = some (literal, rest)) :
    ∃ tree, DerivesLiteral text tree rest ∧ tree.spelled = literal := by
  rw [negationOver, read_named] at read
  obtain ⟨atom, found, rfl⟩ := (read_map_iff _ _ _ _ _).mp read
  obtain ⟨inner, nothing, mark, contents⟩ := (read_seqRight_iff _ _ _ _ _).mp found
  obtain ⟨tree, derives, rfl⟩ := atomOver_sound sound contents
  rw [(read_token_iff _ _ _ _).mp mark]
  exact ⟨.negation tree, .negation (layout_skip inner) derives, rfl⟩

theorem comparisonOver_sound {text : List Char} {literal : SpelledLiteral} {rest : List Char}
    (read : (comparisonOver inside).read text = some (literal, rest)) :
    ∃ tree, DerivesLiteral text tree rest ∧ tree.spelled = literal := by
  rw [comparisonOver, read_named] at read
  obtain ⟨f, last, right, front, second, rfl⟩ := (read_seq_iff _ _ _ _ _).mp read
  obtain ⟨g, stop, sign, mapped, spelled, rfl⟩ := (read_seq_iff _ _ _ _ _).mp front
  obtain ⟨left, first, rfl⟩ := (read_map_iff _ _ _ _ _).mp mapped
  obtain ⟨leftTree, derives, rfl⟩ := sound first
  obtain ⟨rightTree, derives', rfl⟩ := sound second
  have isSign := (readOperator_eq_some_iff _ _ _).mp spelled
  exact ⟨.comparison leftTree sign rightTree,
    .comparison derives (layout_skip stop) isSign (layout_skip last) derives', rfl⟩

theorem literalOver_sound : Sound (literalOver inside) DerivesLiteral LiteralTree.spelled := by
  intro text literal rest read
  rw [literalOver, read_named] at read
  rcases (read_orElse_iff _ _ _ _ _).mp read with found | ⟨-, others⟩
  · exact negationOver_sound sound found
  rcases (read_orElse_iff _ _ _ _ _).mp others with found | ⟨-, others⟩
  · obtain ⟨atom, contents, rfl⟩ := (read_map_iff _ _ _ _ _).mp found
    obtain ⟨tree, derives, rfl⟩ := atomOver_sound sound contents
    exact ⟨.atom tree, .atom derives, rfl⟩
  rcases (read_orElse_iff _ _ _ _ _).mp others with found | ⟨-, found⟩
  · exact comparisonOver_sound sound found
  · obtain ⟨value, word, rfl⟩ := (read_map_iff _ _ _ _ _).mp found
    exact ⟨.truth value, .truth ((read_truth_iff _ _ _).mp word), rfl⟩

theorem aggregateBodyOver_sound :
    Sound (aggregateBodyOver inside) DerivesBody BodyTree.spelled := by
  intro text body rest read
  rw [aggregateBodyOver, read_named] at read
  rcases (read_orElse_iff _ _ _ _ _).mp read with found | ⟨-, found⟩
  · obtain ⟨trees, enclosed, rfl⟩ :=
      enclosed_sound (literalOver_sound sound) (by rfl) (by rfl) found
    exact ⟨.braced trees, .braced enclosed, LiteralTree.spelledAll_eq_map trees⟩
  · obtain ⟨atom, contents, rfl⟩ := (read_map_iff _ _ _ _ _).mp found
    obtain ⟨tree, derives, rfl⟩ := atomOver_sound sound contents
    exact ⟨.bare tree, .bare derives, rfl⟩

theorem aggregateOver_sound :
    Sound (aggregateOver inside) DerivesArgument ArgumentTree.spelled := by
  intro text argument rest read
  rw [aggregateOver, read_named] at read
  obtain ⟨f, stop, body, front, contents, rfl⟩ := (read_seq_iff _ _ _ _ _).mp read
  obtain ⟨g, mark, target?, mapped, target, rfl⟩ := (read_seq_iff _ _ _ _ _).mp front
  obtain ⟨kind, announced, rfl⟩ := (read_map_iff _ _ _ _ _).mp mapped
  obtain ⟨name, word, meant⟩ := (readWord_eq_some_iff _ _ _ _).mp announced
  obtain rfl := (ofKeyword?_eq_some_iff name kind).mp meant
  obtain ⟨inner, nothing, colon, inside⟩ := (read_seqRight_iff _ _ _ _ _).mp contents
  obtain ⟨tree, derives, rfl⟩ := aggregateBodyOver_sound sound inside
  have before := layout_skip stop
  rw [(read_token_iff _ _ _ _).mp colon] at before
  rcases (read_maybe_iff _ _ _ _).mp target with ⟨reduced, found, rfl⟩ | ⟨-, rfl, rfl⟩
  · obtain ⟨targetTree, derives', rfl⟩ := sound found
    exact ⟨.aggregate kind (some targetTree) tree,
      .targeted word (layout_skip mark) derives' before (layout_skip inner) derives, rfl⟩
  · exact ⟨.aggregate kind none tree,
      .untargeted word ((layout_skip mark).trans before) (layout_skip inner) derives, rfl⟩

theorem argumentOver_sound : Sound (argumentOver inside) DerivesArgument ArgumentTree.spelled := by
  intro text argument rest read
  rw [argumentOver, read_named] at read
  rcases (read_orElse_iff _ _ _ _ _).mp read with found | ⟨-, others⟩
  · exact aggregateOver_sound sound found
  rcases (read_orElse_iff _ _ _ _ _).mp others with found | ⟨-, others⟩
  · obtain ⟨nothing, read', rfl⟩ := (read_map_iff _ _ _ _ _).mp found
    exact ⟨.nil, .nil ((readLiteralWord_iff _ _ _ _).mp read'), rfl⟩
  rcases (read_orElse_iff _ _ _ _ _).mp others with found | ⟨-, others⟩
  · obtain ⟨nothing, read', rfl⟩ := (read_map_iff _ _ _ _ _).mp found
    rw [(read_token_iff _ _ _ _).mp read']
    exact ⟨.counter, .counter, rfl⟩
  rcases (read_orElse_iff _ _ _ _ _).mp others with found | ⟨-, others⟩
  · obtain ⟨⟨spelling, remaining⟩, read', rfl⟩ := (read_map_iff _ _ _ _ _).mp found
    obtain ⟨digits, place⟩ := (readNumeral_eq_some_iff _ _ _).mp read'
    obtain rfl : remaining = text.length := place
    exact ⟨.number ⟨spelling, text.length⟩, .number digits, rfl⟩
  rcases (read_orElse_iff _ _ _ _ _).mp others with found | ⟨-, others⟩
  · obtain ⟨value, read', rfl⟩ := (read_map_iff _ _ _ _ _).mp found
    obtain ⟨interior, isInterior, rfl, rfl⟩ := of_readString read'
    exact ⟨.string interior, .string isInterior rfl, rfl⟩
  rcases (read_orElse_iff _ _ _ _ _).mp others with found | ⟨refused, found⟩
  · obtain ⟨nothing, read', rfl⟩ := (read_map_iff _ _ _ _ _).mp found
    exact ⟨.unnamed, .unnamed ((readLiteralWord_iff _ _ _ _).mp read'), rfl⟩
  · obtain ⟨name, read', rfl⟩ := (read_map_iff _ _ _ _ _).mp found
    obtain ⟨word, unreserved⟩ := (read_variableName_iff _ _ _).mp read'
    refine ⟨.variable name, .free word unreserved ?_, rfl⟩
    -- the sign for a variable without a name was tried before
    rintro rfl
    have accepted : unnamed.read text = some ((), rest) :=
      (readLiteralWord_iff "_" text () rest).mpr word
    rw [read_map, accepted] at refused
    cases refused

end Contents

/-- Every level of nesting is sound. -/
theorem nested_sound (depth : Nat) :
    Sound (nested argumentOver depth) DerivesArgument ArgumentTree.spelled := by
  induction depth with
  | zero => intro text argument rest read; cases read
  | succ depth ih => exact argumentOver_sound fun read => ih read

theorem argument_sound : Sound argument DerivesArgument ArgumentTree.spelled := by
  intro text value rest read
  exact nested_sound (text.length + 1) read

theorem atom_sound : Sound atom DerivesAtom AtomTree.spelled := atomOver_sound argument_sound

theorem literal_sound : Sound literal DerivesLiteral LiteralTree.spelled :=
  literalOver_sound argument_sound

/-- What is read of a body follows its sign. -/
theorem body_sound {text : List Char} {literals : List SpelledLiteral} {rest : List Char}
    (read : body.read text = some (literals, rest)) :
    ∃ inner trees stop, text = ':' :: '-' :: inner ∧
      Separated DerivesLiteral (skip inner) trees stop ∧ Layout stop rest ∧
      LiteralTree.spelledAll trees = literals := by
  rw [body, read_named] at read
  obtain ⟨inner, nothing, sign, listed⟩ := (read_seqRight_iff _ _ _ _ _).mp read
  obtain ⟨trees, stop, separated, behind, rfl⟩ := commaSeparated_sound literal_sound listed
  exact ⟨inner, trees, stop, (read_token_iff _ _ _ _).mp sign, separated, behind,
    LiteralTree.spelledAll_eq_map trees⟩

theorem clause_sound : Sound clause DerivesClause ClauseTree.spelled := by
  intro text spelled rest read
  rw [clause, read_named] at read
  obtain ⟨last, nothing, front, stop⟩ := (read_seqLeft_iff _ _ _ _ _).mp read
  obtain ⟨f, middle, body?, mapped, found, rfl⟩ := (read_seq_iff _ _ _ _ _).mp front
  obtain ⟨head, first, rfl⟩ := (read_map_iff _ _ _ _ _).mp mapped
  obtain ⟨tree, derives, rfl⟩ := atom_sound first
  have behind := layout_skip last
  rw [(read_token_iff _ _ _ _).mp stop] at behind
  rcases (read_maybe_iff _ _ _ _).mp found with ⟨literals, read', rfl⟩ | ⟨-, rfl, rfl⟩
  · obtain ⟨inner, trees, left, sign, separated, further, rfl⟩ := body_sound read'
    have before := layout_skip middle
    rw [sign] at before
    exact ⟨⟨tree, trees⟩,
      .rule derives before (layout_skip inner) separated (further.trans behind), rfl⟩
  · exact ⟨⟨tree, []⟩, .fact derives ((layout_skip middle).trans behind), rfl⟩

/-! ## Statements -/

theorem identifier_sound : Sound identifier Word id := by
  intro text name rest read
  exact ⟨name, (readName_eq_some_iff _ _ _).mp read, rfl⟩

theorem attributePhrase_sound : Sound attributePhrase DerivesAttribute id := by
  intro text column rest read
  rw [attributePhrase, read_named] at read
  obtain ⟨f, mark, typeName, mapped, found, rfl⟩ := (read_seq_iff _ _ _ _ _).mp read
  obtain ⟨name, word, rfl⟩ := (read_map_iff _ _ _ _ _).mp mapped
  obtain ⟨inner, nothing, colon, word'⟩ := (read_seqRight_iff _ _ _ _ _).mp found
  have before := layout_skip mark
  rw [(read_token_iff _ _ _ _).mp colon] at before
  exact ⟨⟨name, typeName⟩, .typed ((readName_eq_some_iff _ _ _).mp word) before
    (layout_skip inner) ((readName_eq_some_iff _ _ _).mp word'), rfl⟩

/-- No parenthesis comes next where the reader does not find one. -/
theorem not_opens_iff (text : List Char) : ¬ Opens text ↔ (skip text).head? ≠ some '(' := by
  refine not_congr ?_
  constructor
  · rintro ⟨inner, opens⟩
    rw [opens.skip_eq_of_solid ⟨'(', inner, rfl, by decide⟩]
    rfl
  · intro starts
    obtain ⟨inner, same⟩ := List.head?_eq_some_iff.mp starts
    exact ⟨inner, same ▸ layout_skip text⟩

/-- A qualifier is read with the layout behind it. -/
theorem read_qualifier_absent_iff (text : List Char) (representation : Representation)
    (rest : List Char) :
    (qualifier <* absent '(').read text = some (representation, rest) ↔
      ∃ stop, DerivesQualifier text representation stop ∧ rest = skip stop := by
  simp only [read_seqLeft_iff, read_qualifier_iff, read_absent_iff, ← not_opens_iff]
  constructor
  · rintro ⟨stop, -, word, unapplied, rfl⟩
    exact ⟨stop, ⟨word, unapplied⟩, rfl⟩
  · rintro ⟨stop, ⟨word, unapplied⟩, rfl⟩
    exact ⟨stop, (), word, unapplied, rfl⟩

/-- **What is read of a declaration can be derived**, and reading goes on behind
the layout that follows it. -/
theorem declaration_sound {text : List Char} {declared : Declaration} {rest : List Char}
    (read : declaration.read text = some (declared, rest)) :
    ∃ tree stop, DerivesDeclaration text tree stop ∧ rest = skip stop ∧
      tree.spelled = declared := by
  rw [declaration, read_named] at read
  obtain ⟨f, last, qualifier?, front, found, rfl⟩ := (read_seq_iff _ _ _ _ _).mp read
  obtain ⟨g, stop, columns, mapped, enclosed, rfl⟩ := (read_seq_iff _ _ _ _ _).mp front
  obtain ⟨names, opened, rfl⟩ := (read_map_iff _ _ _ _ _).mp mapped
  obtain ⟨mark, nothing, keyword, listed⟩ := (read_seqRight_iff _ _ _ _ _).mp opened
  obtain ⟨spelled, ends⟩ := (read_declarationKeyword_iff _ _ _).mp keyword
  obtain ⟨words, behind, separated, further, rfl⟩ := commaSeparated_sound identifier_sound listed
  obtain ⟨attributes, contents, rfl⟩ :=
    enclosed_sound attributePhrase_sound (by rfl) (by rfl) enclosed
  have signature := DerivesSignature.declared spelled ends (layout_skip mark) separated
    (further.trans (layout_skip stop)) contents
  rcases (read_maybe_iff _ _ _ _).mp found with ⟨representation, read', rfl⟩ | ⟨-, rfl, rfl⟩
  · obtain ⟨left, derives, rfl⟩ := (read_qualifier_absent_iff _ _ _).mp read'
    exact ⟨⟨words, attributes, some representation⟩, left,
      .qualified signature (layout_skip last) derives, rfl, by simp [DeclarationTree.spelled]⟩
  · exact ⟨⟨words, attributes, none⟩, last, .unqualified signature, rfl,
      by simp [DeclarationTree.spelled]⟩

theorem statement_sound {text : List Char} {stated : Statement} {rest : List Char}
    (read : statement.read text = some (stated, rest)) :
    ∃ tree stop, DerivesStatement text tree stop ∧ Layout stop rest ∧ tree.spelled = stated := by
  rw [statement, read_named] at read
  rcases (read_orElse_iff _ _ _ _ _).mp read with found | ⟨-, found⟩
  · obtain ⟨declared, read', rfl⟩ := (read_map_iff _ _ _ _ _).mp found
    obtain ⟨tree, stop, derives, rfl, rfl⟩ := declaration_sound read'
    exact ⟨.declaration tree, stop, .declaration derives, layout_skip stop, rfl⟩
  · obtain ⟨spelled, read', rfl⟩ := (read_map_iff _ _ _ _ _).mp found
    obtain ⟨tree, derives, rfl⟩ := clause_sound read'
    exact ⟨.clause tree, rest, .clause derives, .nothing rest, rfl⟩

end Datalog.Grammar
