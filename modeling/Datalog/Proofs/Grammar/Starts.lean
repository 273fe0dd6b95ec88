import Datalog.Proofs.Grammar.Derivation

/-!
# How phrases start and end

The first character of a phrase tells it from layout, and often from other phrases
too (`DerivesArgument.starts` and its companions).  Every derivation takes a
character at least (`DerivesArgument.length_lt` and its companions), so proofs about
derivations may go by the length of the text.
-/

set_option autoImplicit false

namespace Datalog.Grammar

/-! ## How phrases start -/

theorem solid_comma (rest : List Char) : Solid (',' :: rest) := ⟨',', rest, rfl, by decide⟩

theorem solid_colon (rest : List Char) : Solid (':' :: rest) := ⟨':', rest, rfl, by decide⟩

theorem solid_stop (rest : List Char) : Solid ('.' :: rest) := ⟨'.', rest, rfl, by decide⟩

theorem OperatorText.solid {text rest : List Char} {operator : Comparison}
    (spelled : OperatorText text operator rest) : Solid text := by
  obtain ⟨c, behind, rfl, isOperator⟩ := spelled.starts
  refine ⟨c, behind, rfl, ?_⟩
  simp only [List.mem_cons, List.not_mem_nil, or_false] at isOperator
  rcases isOperator with rfl | rfl | rfl | rfl <;> decide

/-- Whether an argument may start with a character. -/
def startsArgument (c : Char) : Bool :=
  startsName c || c.isDigit || ['$', '"', '-'].contains c

theorem solid_of_startsArgument {c : Char} (starts : startsArgument c = true)
    (rest : List Char) : Solid (c :: rest) := by
  refine ⟨c, rest, rfl, fun member => ?_⟩
  simp only [List.mem_cons, List.not_mem_nil, or_false] at member
  rcases member with rfl | rfl | rfl | rfl | rfl <;> exact absurd starts (by decide)

theorem DerivesArgument.starts {text rest : List Char} {tree : ArgumentTree}
    (derives : DerivesArgument text tree rest) :
    ∃ c behind, text = c :: behind ∧ startsArgument c = true := by
  have ofWord {name : String} {mark : List Char} (word : Word text name mark) :
      ∃ c behind, text = c :: behind ∧ startsArgument c = true := by
    obtain ⟨c, behind, same, starts⟩ := word.starts
    exact ⟨c, behind, same, by simp [startsArgument, starts]⟩
  cases derives with
  | untargeted word | targeted word | nil word | unnamed word | free word => exact ofWord word
  | counter => exact ⟨'$', _, rfl, by decide⟩
  | string => exact ⟨'"', _, rfl, by decide⟩
  | number digits =>
      obtain ⟨c, behind, same, digit | rfl⟩ := digits.starts
      · exact ⟨c, behind, same, by simp [startsArgument, digit]⟩
      · exact ⟨'-', behind, same, by decide⟩

theorem DerivesArgument.solid {text rest : List Char} {tree : ArgumentTree}
    (derives : DerivesArgument text tree rest) : Solid text := by
  obtain ⟨c, behind, rfl, starts⟩ := derives.starts
  exact solid_of_startsArgument starts behind

/-- An argument starts with no other character. -/
theorem DerivesArgument.head_ne {c : Char} {behind rest : List Char} {tree : ArgumentTree}
    (derives : DerivesArgument (c :: behind) tree rest) (other : startsArgument c = false) :
    False := by
  obtain ⟨d, _, same, starts⟩ := derives.starts
  obtain ⟨rfl, -⟩ := List.cons.inj same
  rw [other] at starts
  cases starts

theorem DerivesAtom.word {text rest : List Char} {tree : AtomTree}
    (derives : DerivesAtom text tree rest) : ∃ name mark, Word text name mark ∧ Opens mark := by
  cases derives with
  | applied word before contents =>
      cases contents with
      | empty | filled => exact ⟨_, _, word, _, before⟩

theorem DerivesLiteral.starts {text rest : List Char} {tree : LiteralTree}
    (derives : DerivesLiteral text tree rest) :
    ∃ c behind, text = c :: behind ∧ (startsArgument c = true ∨ c = '!') := by
  have ofWord {name : String} {mark : List Char} (word : Word text name mark) :
      ∃ c behind, text = c :: behind ∧ (startsArgument c = true ∨ c = '!') := by
    obtain ⟨c, behind, same, starts⟩ := word.starts
    exact ⟨c, behind, same, .inl (by simp [startsArgument, starts])⟩
  cases derives with
  | negation => exact ⟨'!', _, rfl, .inr rfl⟩
  | atom contents =>
      obtain ⟨name, mark, word, -⟩ := contents.word
      exact ofWord word
  | comparison first =>
      obtain ⟨c, behind, same, starts⟩ := first.starts
      exact ⟨c, behind, same, .inl starts⟩
  | truth word => exact ofWord word

theorem DerivesLiteral.solid {text rest : List Char} {tree : LiteralTree}
    (derives : DerivesLiteral text tree rest) : Solid text := by
  obtain ⟨c, behind, rfl, starts | rfl⟩ := derives.starts
  · exact solid_of_startsArgument starts behind
  · exact ⟨'!', behind, rfl, by decide⟩

theorem DerivesAtom.solid {text rest : List Char} {tree : AtomTree}
    (derives : DerivesAtom text tree rest) : Solid text := by
  obtain ⟨name, mark, word, -⟩ := derives.word
  exact word.solid

theorem DerivesBody.solid {text rest : List Char} {tree : BodyTree}
    (derives : DerivesBody text tree rest) : Solid text := by
  cases derives with
  | braced contents => cases contents <;> exact ⟨'\x7b', _, rfl, by decide⟩
  | bare contents => exact contents.solid

theorem DerivesAttribute.solid {text rest : List Char} {column : Attribute}
    (derives : DerivesAttribute text column rest) : Solid text := by
  cases derives with
  | typed word => exact word.solid

theorem Enclosed.solid {τ : Type} {Derives : List Char → τ → List Char → Prop}
    {text rest : List Char} {trees : List τ} {opening closing : Char}
    (enclosed : Enclosed Derives opening closing text trees rest)
    (kind : opening ∉ [' ', '\t', '\n', '\r', '/']) : Solid text := by
  cases enclosed <;> exact ⟨opening, _, rfl, kind⟩

/-- What comes behind a sequence in signs starts with the first of them. -/
theorem Enclosed.opens {τ : Type} {Derives : List Char → τ → List Char → Prop}
    {text rest : List Char} {trees : List τ} {opening closing : Char}
    (enclosed : Enclosed Derives opening closing text trees rest) :
    ∃ inner, text = opening :: inner := by
  cases enclosed <;> exact ⟨_, rfl⟩

theorem DerivesSignature.starts {text rest : List Char} {names : List String}
    {attributes : List Attribute} (derives : DerivesSignature text names attributes rest) :
    ∃ behind, text = '.' :: behind := by
  cases derives with
  | declared keyword => exact ⟨_, keyword⟩

theorem DerivesQualifier.solid {text rest : List Char} {representation : Representation}
    (derives : DerivesQualifier text representation rest) : Solid text := by
  obtain ⟨qualifier, -, word⟩ := derives.word
  exact word.solid

theorem DerivesDeclaration.starts {text rest : List Char} {tree : DeclarationTree}
    (derives : DerivesDeclaration text tree rest) : ∃ behind, text = '.' :: behind := by
  cases derives with
  | unqualified signature | qualified signature => exact signature.starts

theorem DerivesClause.opens {text rest : List Char} {tree : ClauseTree}
    (derives : DerivesClause text tree rest) : ∃ name mark, Word text name mark ∧ Opens mark := by
  cases derives with
  | fact head | rule head => exact head.word

theorem DerivesStatement.solid {text rest : List Char} {tree : StatementTree}
    (derives : DerivesStatement text tree rest) : Solid text := by
  cases derives with
  | declaration contents =>
      obtain ⟨behind, rfl⟩ := contents.starts
      exact solid_stop behind
  | clause contents =>
      obtain ⟨name, mark, word, -⟩ := contents.opens
      exact word.solid

/-- Where one solid sign comes next, a parenthesis does not. -/
theorem not_opens {text inner : List Char} {c : Char} (layout : Layout text (c :: inner))
    (solid : c ∉ [' ', '\t', '\n', '\r', '/']) (other : c ≠ '(') : ¬ Opens text := by
  rintro ⟨inner', opens⟩
  have same := opens.unique layout ⟨'(', inner', rfl, by decide⟩ ⟨c, inner, rfl, solid⟩
  exact other (List.cons.inj same).1.symm

/-! ## Derivations take characters -/

section Sequences

variable {τ : Type} {Derives : List Char → τ → List Char → Prop} {text rest : List Char}
  {trees : List τ} {opening closing : Char}

theorem Separated.length_lt (separated : Separated Derives text trees rest)
    (shrinks : ∀ {text' tree rest'}, text'.length ≤ text.length → Derives text' tree rest' →
      rest'.length < text'.length) : rest.length < text.length := by
  induction separated with
  | single item => exact shrinks (Nat.le_refl _) item
  | @more text stop comma next rest tree trees item before behind _ ih =>
      have first := shrinks (Nat.le_refl _) item
      have second := before.length_le
      have third := behind.length_le
      rw [List.length_cons] at second
      have last := ih fun bound derives => shrinks (by omega) derives
      omega

theorem Enclosed.length_lt (enclosed : Enclosed Derives opening closing text trees rest)
    (shrinks : ∀ {text' tree rest'}, text'.length < text.length → Derives text' tree rest' →
      rest'.length < text'.length) : rest.length < text.length := by
  cases enclosed with
  | empty before =>
      have first := before.length_le
      simp only [List.length_cons] at first ⊢
      omega
  | filled before items behind =>
      have first := before.length_le
      have last := behind.length_le
      simp only [List.length_cons] at first last shrinks ⊢
      have second := items.length_lt fun bound derives => shrinks (by omega) derives
      omega

/-- A property of derived phrases is a property of all phrases of a sequence. -/
theorem Separated.forall {property : τ → Prop} (separated : Separated Derives text trees rest)
    (shrinks : ∀ {text' tree rest'}, Derives text' tree rest' → rest'.length < text'.length)
    (holds : ∀ {text' tree rest'}, text'.length ≤ text.length → rest.length ≤ rest'.length →
      Derives text' tree rest' → property tree) : ∀ tree ∈ trees, property tree := by
  induction separated with
  | single item =>
      intro tree member
      obtain rfl := List.mem_singleton.mp member
      exact holds (Nat.le_refl _) (Nat.le_refl _) item
  | more item before behind others ih =>
      have first := shrinks item
      have second := before.length_le
      have third := behind.length_le
      have last := others.length_lt fun _ derives => shrinks derives
      rw [List.length_cons] at second
      intro tree member
      rcases List.mem_cons.mp member with rfl | member
      · exact holds (Nat.le_refl _) (by omega) item
      · exact ih (fun bound reach derives => holds (by omega) reach derives) tree member

theorem Enclosed.forall {property : τ → Prop}
    (enclosed : Enclosed Derives opening closing text trees rest)
    (shrinks : ∀ {text' tree rest'}, Derives text' tree rest' → rest'.length < text'.length)
    (holds : ∀ {text' tree rest'}, text'.length < text.length → rest.length ≤ rest'.length →
      Derives text' tree rest' → property tree) : ∀ tree ∈ trees, property tree := by
  cases enclosed with
  | empty => intro tree member; cases member
  | filled before items behind =>
      have bound := before.length_le
      have last := behind.length_le
      rw [List.length_cons] at last
      exact items.forall shrinks fun shorter longer derives =>
        holds (by rw [List.length_cons]; omega) (by omega) derives

end Sequences

mutual
theorem DerivesArgument.length_lt {text rest : List Char} {tree : ArgumentTree}
    (derives : DerivesArgument text tree rest) : rest.length < text.length := by
  cases derives with
  | untargeted word before behind contents =>
      have first := word.length_lt
      have second := before.length_le
      have third := behind.length_le
      rw [List.length_cons] at second
      have last := contents.length_lt
      omega
  | targeted word front reduced before behind contents =>
      have first := word.length_lt
      have second := front.length_le
      have third := reduced.length_lt
      have fourth := before.length_le
      have fifth := behind.length_le
      rw [List.length_cons] at fourth
      have last := contents.length_lt
      omega
  | nil word | unnamed word | free word => exact word.length_lt
  | counter => simp
  | number digits => exact digits.length_lt
  | string _ spelled =>
      rw [spelled]
      simp only [List.length_cons, List.length_append]
      omega
termination_by 2 * text.length
decreasing_by all_goals (subst_vars; simp only [List.length_cons] at *; omega)

theorem DerivesBody.length_lt {text rest : List Char} {tree : BodyTree}
    (derives : DerivesBody text tree rest) : rest.length < text.length := by
  cases derives with
  | braced contents => exact contents.length_lt fun _ item => item.length_lt
  | bare contents => exact contents.length_lt
termination_by 2 * text.length + 1
decreasing_by all_goals (subst_vars; omega)

theorem DerivesAtom.length_lt {text rest : List Char} {tree : AtomTree}
    (derives : DerivesAtom text tree rest) : rest.length < text.length := by
  cases derives with
  | applied word before contents =>
      have first := word.length_lt
      have second := before.length_le
      have last := contents.length_lt fun _ item => item.length_lt
      omega
termination_by 2 * text.length
decreasing_by all_goals (subst_vars; omega)

theorem DerivesLiteral.length_lt {text rest : List Char} {tree : LiteralTree}
    (derives : DerivesLiteral text tree rest) : rest.length < text.length := by
  cases derives with
  | negation behind contents =>
      have first := behind.length_le
      have last := contents.length_lt
      rw [List.length_cons]
      omega
  | atom contents => exact contents.length_lt
  | comparison left before sign behind right =>
      have first := left.length_lt
      have second := before.length_le
      have third := sign.length_lt
      have fourth := behind.length_le
      have last := right.length_lt
      omega
  | truth word => exact word.length_lt
termination_by 2 * text.length + 1
decreasing_by all_goals (subst_vars; simp only [List.length_cons] at *; omega)
end

theorem DerivesClause.length_lt {text rest : List Char} {tree : ClauseTree}
    (derives : DerivesClause text tree rest) : rest.length < text.length := by
  cases derives with
  | fact head ends =>
      have first := head.length_lt
      have last := ends.length_le
      rw [List.length_cons] at last
      omega
  | rule head before front contents ends =>
      have first := head.length_lt
      have second := before.length_le
      have third := front.length_le
      have fourth := contents.length_lt fun _ item => item.length_lt
      have last := ends.length_le
      simp only [List.length_cons] at second last
      omega

theorem DerivesAttribute.length_lt {text rest : List Char} {column : Attribute}
    (derives : DerivesAttribute text column rest) : rest.length < text.length := by
  cases derives with
  | typed word before behind last =>
      have first := word.length_lt
      have second := before.length_le
      have third := behind.length_le
      have fourth := last.length_lt
      rw [List.length_cons] at second
      omega

theorem DerivesSignature.length_lt {text rest : List Char} {names : List String}
    {attributes : List Attribute} (derives : DerivesSignature text names attributes rest) :
    rest.length < text.length := by
  cases derives with
  | declared keyword ends front listed before contents =>
      have first := front.length_le
      have second := listed.length_lt fun _ item => item.length_lt
      have third := before.length_le
      have fourth := contents.length_lt fun _ item => item.length_lt
      rw [keyword, List.length_append]
      omega

theorem DerivesQualifier.length_lt {text rest : List Char} {representation : Representation}
    (derives : DerivesQualifier text representation rest) : rest.length < text.length := by
  obtain ⟨qualifier, -, word⟩ := derives.word
  exact word.length_lt

theorem DerivesStatement.length_lt {text rest : List Char} {tree : StatementTree}
    (derives : DerivesStatement text tree rest) : rest.length < text.length := by
  cases derives with
  | clause contents => exact contents.length_lt
  | declaration contents =>
      cases contents with
      | unqualified signature => exact signature.length_lt
      | qualified signature before qualifier =>
          have first := signature.length_lt
          have second := before.length_le
          have third := qualifier.length_lt
          omega

end Datalog.Grammar
