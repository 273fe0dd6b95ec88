import Datalog.Proofs.Grammar.Alternatives
import Datalog.Proofs.Grammar.Sequences

/-!
# The grammar is unambiguous

A text has one derivation at most.  The first character, or the first word, of an
argument tells which alternative was taken (`DerivesArgument.announced_eq`), and
what follows the first word tells an atom from a comparison.  Only a constant
condition does not end by itself: `true` might be the name of an atom whose
arguments are still to come.  So a literal is unique in front of anything but an
opening parenthesis, and in a text a literal is followed by a comma or by the
sign that closes its sequence.

The proofs go by the length of the text, since every derivation takes a
character at least (`DerivesArgument.length_lt` and its companions).
-/

set_option autoImplicit false

namespace Datalog.Grammar

/-! ## Clauses are unique -/

mutual
/-- **An argument has one derivation.** -/
theorem DerivesArgument.unique {text rest rest' : List Char} {tree tree' : ArgumentTree}
    (first : DerivesArgument text tree rest) (second : DerivesArgument text tree' rest') :
    tree = tree' ∧ rest = rest' := by
  have same := first.announced_eq.symm.trans second.announced_eq
  cases first with
  | untargeted word before behind contents =>
      cases second with
      | untargeted word' before' behind' contents' =>
          obtain ⟨keyword, rfl⟩ := word.unique word'
          cases before.unique before' (solid_colon _) (solid_colon _)
          obtain rfl := behind.unique behind' contents.solid contents'.solid
          have shorter := word.length_lt
          have further := before.length_le
          have last := behind.length_le
          obtain ⟨rfl, rfl⟩ := contents.unique contents'
          exact ⟨by rw [keyword_injective keyword], rfl⟩
      | targeted word' front' reduced' =>
          obtain ⟨-, rfl⟩ := word.unique word'
          exact (not_targeted before front' reduced').elim
      | _ => cases same
  | targeted word front reduced before behind contents =>
      cases second with
      | untargeted word' before' =>
          obtain ⟨-, rfl⟩ := word.unique word'
          exact (not_targeted before' front reduced).elim
      | targeted word' front' reduced' before' behind' contents' =>
          obtain ⟨keyword, rfl⟩ := word.unique word'
          obtain rfl := front.unique front' reduced.solid reduced'.solid
          have shorter := word.length_lt
          have further := front.length_le
          have rest := reduced.length_lt
          obtain ⟨rfl, rfl⟩ := reduced.unique reduced'
          cases before.unique before' (solid_colon _) (solid_colon _)
          obtain rfl := behind.unique behind' contents.solid contents'.solid
          have more := before.length_le
          have last := behind.length_le
          obtain ⟨rfl, rfl⟩ := contents.unique contents'
          exact ⟨by rw [keyword_injective keyword], rfl⟩
      | _ => cases same
  | nil word =>
      cases second with
      | nil word' => exact ⟨rfl, (word.unique word').2⟩
      | _ => cases same
  | counter =>
      cases second with
      | counter => exact ⟨rfl, rfl⟩
      | _ => cases same
  | number digits =>
      cases second with
      | number digits' =>
          obtain ⟨rfl, rfl⟩ := digits.unique digits'
          exact ⟨rfl, rfl⟩
      | _ => cases same
  | string isInterior spelled =>
      cases second with
      | string isInterior' spelled' =>
          obtain ⟨rfl, rfl⟩ := isInterior.unique isInterior' (spelled.symm.trans spelled')
          exact ⟨rfl, rfl⟩
      | _ => cases same
  | unnamed word =>
      cases second with
      | unnamed word' => exact ⟨rfl, (word.unique word').2⟩
      | _ => cases same
  | free word =>
      cases second with
      | free word' =>
          obtain ⟨rfl, rfl⟩ := word.unique word'
          exact ⟨rfl, rfl⟩
      | _ => cases same
termination_by 2 * text.length
decreasing_by all_goals (subst_vars; simp only [List.length_cons] at *; omega)

/-- The body of an aggregate has one derivation. -/
theorem DerivesBody.unique {text rest rest' : List Char} {tree tree' : BodyTree}
    (first : DerivesBody text tree rest) (second : DerivesBody text tree' rest') :
    tree = tree' ∧ rest = rest' := by
  -- braces start no atom
  have notBoth {literals : List LiteralTree} {atom : AtomTree} {rest rest' : List Char}
      (braced : Enclosed DerivesLiteral '\x7b' '\x7d' text literals rest)
      (bare : DerivesAtom text atom rest') : False := by
    obtain ⟨name, mark, word, -⟩ := bare.word
    cases braced <;> exact word.head_ne (by decide)
  cases first with
  | braced contents =>
      cases second with
      | braced contents' =>
          obtain ⟨rfl, rfl⟩ := contents.unique listable_literal_brace contents'
            (fun _ item apart item' apart' => item.unique apart item' apart')
            (fun _ item => item.length_lt)
          exact ⟨rfl, rfl⟩
      | bare contents' => exact (notBoth contents contents').elim
  | bare contents =>
      cases second with
      | braced contents' => exact (notBoth contents' contents).elim
      | bare contents' =>
          obtain ⟨rfl, rfl⟩ := contents.unique contents'
          exact ⟨rfl, rfl⟩
termination_by 2 * text.length + 1
decreasing_by all_goals (subst_vars; omega)

/-- An atom has one derivation. -/
theorem DerivesAtom.unique {text rest rest' : List Char} {tree tree' : AtomTree}
    (first : DerivesAtom text tree rest) (second : DerivesAtom text tree' rest') :
    tree = tree' ∧ rest = rest' := by
  cases first with
  | applied word before contents =>
      cases second with
      | applied word' before' contents' =>
          obtain ⟨rfl, rfl⟩ := word.unique word'
          obtain rfl := before.unique before' (contents.solid (by decide))
            (contents'.solid (by decide))
          have shorter := word.length_lt
          have further := before.length_le
          obtain ⟨rfl, rfl⟩ := contents.unique listable_argument contents'
            (fun _ item _ item' _ => item.unique item') (fun _ item => item.length_lt)
          exact ⟨rfl, rfl⟩
termination_by 2 * text.length
decreasing_by all_goals (subst_vars; omega)

/-- A literal has one derivation in front of anything but a parenthesis. -/
theorem DerivesLiteral.unique {text rest rest' : List Char} {tree tree' : LiteralTree}
    (first : DerivesLiteral text tree rest) (apart : ¬ Opens rest)
    (second : DerivesLiteral text tree' rest') (apart' : ¬ Opens rest') :
    tree = tree' ∧ rest = rest' := by
  cases first with
  | negation behind contents =>
      cases second with
      | negation behind' contents' =>
          obtain rfl := behind.unique behind' contents.solid contents'.solid
          have shorter := behind.length_le
          obtain ⟨rfl, rfl⟩ := contents.unique contents'
          exact ⟨rfl, rfl⟩
      | atom contents' =>
          obtain ⟨name, mark, word, -⟩ := contents'.word
          exact (word.head_ne (by decide)).elim
      | comparison left' => exact (left'.head_ne (by decide)).elim
      | truth word' => exact (word'.head_ne (by decide)).elim
  | atom contents =>
      obtain ⟨name, mark, word, opens⟩ := contents.word
      cases second with
      | negation => exact (word.head_ne (by decide)).elim
      | atom contents' =>
          obtain ⟨rfl, rfl⟩ := contents.unique contents'
          exact ⟨rfl, rfl⟩
      | comparison left' before' sign' =>
          exact (left'.not_applied before' sign' word opens).elim
      | truth word' =>
          obtain ⟨-, rfl⟩ := word.unique word'
          exact (apart' opens).elim
  | comparison left before sign behind right =>
      cases second with
      | negation => exact (left.head_ne (by decide)).elim
      | atom contents' =>
          obtain ⟨name, mark, word, opens⟩ := contents'.word
          exact (left.not_applied before sign word opens).elim
      | comparison left' before' sign' behind' right' =>
          have shorter := left.length_lt
          obtain ⟨rfl, rfl⟩ := left.unique left'
          obtain rfl := before.unique before' sign.solid sign'.solid
          obtain ⟨rfl, rfl⟩ := sign.unique sign'
          obtain rfl := behind.unique behind' right.solid right'.solid
          have further := before.length_le
          have more := sign.length_lt
          have last := behind.length_le
          obtain ⟨rfl, rfl⟩ := right.unique right'
          exact ⟨rfl, rfl⟩
      | truth word' => exact (left.not_truth word').elim
  | truth word =>
      cases second with
      | negation => exact (word.head_ne (by decide)).elim
      | atom contents' =>
          obtain ⟨name, mark, word', opens⟩ := contents'.word
          obtain ⟨-, rfl⟩ := word'.unique word
          exact (apart opens).elim
      | comparison left' => exact (left'.not_truth word).elim
      | truth word' =>
          obtain ⟨same, rfl⟩ := word.unique word'
          exact ⟨by rw [truthWord_injective same], rfl⟩
termination_by 2 * text.length + 1
decreasing_by all_goals (subst_vars; simp only [List.length_cons] at *; omega)
end

/-- **A clause has one derivation.** -/
theorem DerivesClause.unique {text rest rest' : List Char} {tree tree' : ClauseTree}
    (first : DerivesClause text tree rest) (second : DerivesClause text tree' rest') :
    tree = tree' ∧ rest = rest' := by
  -- behind a head there is a full stop or the sign of a body, and not both
  have notBoth {stop rest inner : List Char} (ends : Layout stop ('.' :: rest))
      (continues : Layout stop (':' :: inner)) : False := by
    have same := ends.unique continues (solid_stop _) (solid_colon _)
    exact absurd (List.cons.inj same).1 (by decide)
  cases first with
  | fact head ends =>
      cases second with
      | fact head' ends' =>
          obtain ⟨rfl, rfl⟩ := head.unique head'
          cases ends.unique ends' (solid_stop _) (solid_stop _)
          exact ⟨rfl, rfl⟩
      | rule head' before' =>
          obtain ⟨-, rfl⟩ := head.unique head'
          exact (notBoth ends before').elim
  | rule head before front contents ends =>
      cases second with
      | fact head' ends' =>
          obtain ⟨-, rfl⟩ := head.unique head'
          exact (notBoth ends' before).elim
      | rule head' before' front' contents' ends' =>
          obtain ⟨rfl, rfl⟩ := head.unique head'
          cases before.unique before' (solid_colon _) (solid_colon _)
          obtain rfl := front.unique front' (contents.solid listable_literal_stop)
            (contents'.solid listable_literal_stop)
          obtain ⟨rfl, rfl⟩ := contents.unique listable_literal_stop contents' ends ends'
            (fun _ item apart item' apart' => item.unique apart item' apart')
            (fun _ item => item.length_lt)
          cases ends.unique ends' (solid_stop _) (solid_stop _)
          exact ⟨rfl, rfl⟩

/-! ## Statements are unique -/

theorem DerivesAttribute.unique {text rest rest' : List Char} {column column' : Attribute}
    (first : DerivesAttribute text column rest) (second : DerivesAttribute text column' rest') :
    column = column' ∧ rest = rest' := by
  cases first with
  | typed word before behind last =>
      cases second with
      | typed word' before' behind' last' =>
          obtain ⟨rfl, rfl⟩ := word.unique word'
          cases before.unique before' (solid_colon _) (solid_colon _)
          obtain rfl := behind.unique behind' last.solid last'.solid
          obtain ⟨rfl, rfl⟩ := last.unique last'
          exact ⟨rfl, rfl⟩

theorem DerivesSignature.unique {text rest rest' : List Char} {names names' : List String}
    {attributes attributes' : List Attribute}
    (first : DerivesSignature text names attributes rest)
    (second : DerivesSignature text names' attributes' rest') :
    names = names' ∧ attributes = attributes' ∧ rest = rest' := by
  cases first with
  | declared keyword ends front listed before contents =>
      cases second with
      | declared keyword' ends' front' listed' before' contents' =>
          obtain rfl := List.append_cancel_left (keyword.symm.trans keyword')
          obtain rfl := front.unique front' (listed.solid listable_word)
            (listed'.solid listable_word)
          obtain ⟨inner, rfl⟩ := contents.opens
          obtain ⟨inner', rfl⟩ := contents'.opens
          obtain ⟨rfl, rfl⟩ := listed.unique listable_word listed' before before'
            (fun _ item _ item' _ => item.unique item') (fun _ item => item.length_lt)
          cases before.unique before' (contents.solid (by decide)) (contents'.solid (by decide))
          obtain ⟨rfl, rfl⟩ := contents.unique listable_attribute contents'
            (fun _ item _ item' _ => item.unique item') (fun _ item => item.length_lt)
          exact ⟨rfl, rfl, rfl⟩

theorem DerivesQualifier.unique {text rest rest' : List Char}
    {representation representation' : Representation}
    (first : DerivesQualifier text representation rest)
    (second : DerivesQualifier text representation' rest') :
    representation = representation' ∧ rest = rest' := by
  obtain ⟨qualifier, asked, word⟩ := first.word
  obtain ⟨qualifier', asked', word'⟩ := second.word
  obtain ⟨rfl, rfl⟩ := word.unique word'
  rw [← Representation.ofQualifier?_eq_some_iff] at asked asked'
  rw [asked] at asked'
  exact ⟨Option.some.inj asked', rfl⟩

/-- A declaration may end where it does: it asks for a representation, or no word
that does so comes next. -/
def Complete (tree : DeclarationTree) (rest : List Char) : Prop :=
  tree.qualifier? = none → ∀ start representation behind, Layout rest start →
    ¬ DerivesQualifier start representation behind

/-- **A declaration has one derivation that may end where it does.** -/
theorem DerivesDeclaration.unique {text rest rest' : List Char} {tree tree' : DeclarationTree}
    (first : DerivesDeclaration text tree rest) (complete : Complete tree rest)
    (second : DerivesDeclaration text tree' rest') (complete' : Complete tree' rest') :
    tree = tree' ∧ rest = rest' := by
  cases first with
  | unqualified signature =>
      cases second with
      | unqualified signature' =>
          obtain ⟨rfl, rfl, rfl⟩ := signature.unique signature'
          exact ⟨rfl, rfl⟩
      | qualified signature' before' qualifier' =>
          obtain ⟨rfl, rfl, rfl⟩ := signature.unique signature'
          exact (complete rfl _ _ _ before' qualifier').elim
  | qualified signature before qualifier =>
      cases second with
      | unqualified signature' =>
          obtain ⟨rfl, rfl, rfl⟩ := signature.unique signature'
          exact (complete' rfl _ _ _ before qualifier).elim
      | qualified signature' before' qualifier' =>
          obtain ⟨rfl, rfl, rfl⟩ := signature.unique signature'
          obtain rfl := before.unique before' qualifier.solid qualifier'.solid
          obtain ⟨rfl, rfl⟩ := qualifier.unique qualifier'
          exact ⟨rfl, rfl⟩

/-- A statement may end where it does. -/
def StatementTree.Complete : StatementTree → List Char → Prop
  | .declaration tree, rest => Grammar.Complete tree rest
  | .clause _, _ => True

theorem DerivesStatement.unique {text rest rest' : List Char} {tree tree' : StatementTree}
    (first : DerivesStatement text tree rest) (complete : tree.Complete rest)
    (second : DerivesStatement text tree' rest') (complete' : tree'.Complete rest') :
    tree = tree' ∧ rest = rest' := by
  -- a declaration starts with a full stop, and a clause with a word
  have notBoth {rest rest' : List Char} {declared : DeclarationTree} {clause : ClauseTree}
      (declares : DerivesDeclaration text declared rest)
      (states : DerivesClause text clause rest') : False := by
    obtain ⟨name, mark, word, -⟩ := states.opens
    obtain ⟨behind, rfl⟩ := declares.starts
    exact word.head_ne (by decide)
  cases first with
  | declaration contents =>
      cases second with
      | declaration contents' =>
          obtain ⟨rfl, rfl⟩ := contents.unique complete contents' complete'
          exact ⟨rfl, rfl⟩
      | clause contents' => exact (notBoth contents contents').elim
  | clause contents =>
      cases second with
      | declaration contents' => exact (notBoth contents' contents).elim
      | clause contents' =>
          obtain ⟨rfl, rfl⟩ := contents.unique contents'
          exact ⟨rfl, rfl⟩

/-- A statement is complete in front of further statements: what looks like a
word for a representation there is the name of a relation. -/
theorem StatementTree.complete_of_statements {rest : List Char} {trees : List StatementTree}
    (others : DerivesStatements rest trees) (tree : StatementTree) : tree.Complete rest := by
  cases tree with
  | clause => trivial
  | declaration tree =>
      rintro - start representation behind layout qualifier
      cases others with
      | done before =>
          have same := before.skip_eq.symm.trans (layout.skip_eq_of_solid qualifier.solid)
          obtain ⟨c, more, rfl, -⟩ := qualifier.solid
          simp [skip] at same
      | next before first =>
          obtain rfl := layout.unique before qualifier.solid first.solid
          obtain ⟨word, -, spelled⟩ := qualifier.word
          cases first with
          | declaration contents =>
              obtain ⟨inner, rfl⟩ := contents.starts
              exact spelled.head_ne (by decide)
          | clause contents =>
              obtain ⟨name, mark, spelled', opens⟩ := contents.opens
              obtain ⟨-, rfl⟩ := spelled.unique spelled'
              exact qualifier.unapplied opens

/-- **A text is a sequence of statements in one way only.** -/
theorem DerivesStatements.unique {text : List Char} {trees trees' : List StatementTree}
    (first : DerivesStatements text trees) (second : DerivesStatements text trees') :
    trees = trees' := by
  -- the end of a text is no start of a statement
  have notBoth {text start rest : List Char} {tree : StatementTree} (ends : Layout text [])
      (before : Layout text start) (starts : DerivesStatement start tree rest) : False := by
    have same := ends.skip_eq.symm.trans (before.skip_eq_of_solid starts.solid)
    obtain ⟨c, behind, rfl, -⟩ := starts.solid
    simp [skip] at same
  induction first generalizing trees' with
  | done before =>
      cases second with
      | done => rfl
      | next before' first' => exact (notBoth before before' first').elim
  | next before first others ih =>
      cases second with
      | done before' => exact (notBoth before' before first).elim
      | next before' first' others' =>
          obtain rfl := before.unique before' first.solid first'.solid
          obtain ⟨rfl, rfl⟩ := first.unique (StatementTree.complete_of_statements others _) first'
            (StatementTree.complete_of_statements others' _)
          rw [ih others']

end Datalog.Grammar
