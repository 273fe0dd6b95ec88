import Datalog.Proofs.Grammar.Starts

/-!
# Sequences are unique

Where a phrase has one derivation in front of a comma and in front of a closing sign,
a sequence of such phrases has one derivation in front of the sign (`Separated.unique`,
`Enclosed.unique`).
-/

set_option autoImplicit false

namespace Datalog.Grammar

/-- What a kind of phrase has to meet for its sequences to be unique in front of
a sign.  `Apart` says of what is left behind a phrase that the phrase is unique
in front of it. -/
structure Listable {τ : Type} (Derives : List Char → τ → List Char → Prop)
    (Apart : List Char → Prop) (closing : Char) : Prop where
  solid : ∀ {text tree rest}, Derives text tree rest → Solid text
  refuses : ∀ {behind tree rest}, ¬ Derives (closing :: behind) tree rest
  apart_comma : ∀ {text inner}, Layout text (',' :: inner) → Apart text
  apart_closing : ∀ {text inner}, Layout text (closing :: inner) → Apart text
  closing_solid : closing ∉ [' ', '\t', '\n', '\r', '/']
  closing_ne : closing ≠ ','

section Sequences

variable {τ : Type} {Derives : List Char → τ → List Char → Prop} {Apart : List Char → Prop}
  {closing : Char}

theorem Listable.solid_closing (listable : Listable Derives Apart closing) (rest : List Char) :
    Solid (closing :: rest) :=
  ⟨closing, rest, rfl, listable.closing_solid⟩

/-- A comma and the sign that closes a sequence do not stand at one place. -/
theorem Listable.not_both (listable : Listable Derives Apart closing)
    {text comma inner : List Char} (continues : Layout text (',' :: comma))
    (ends : Layout text (closing :: inner)) : False := by
  have same := continues.unique ends (solid_comma _) (listable.solid_closing _)
  exact listable.closing_ne (List.cons.inj same).1.symm

theorem Separated.solid (listable : Listable Derives Apart closing) {text rest : List Char}
    {trees : List τ} (separated : Separated Derives text trees rest) : Solid text := by
  cases separated with
  | single item | more item => exact listable.solid item

theorem Separated.unique (listable : Listable Derives Apart closing)
    {text rest rest' inner inner' : List Char} {trees trees' : List τ}
    (first : Separated Derives text trees rest) (second : Separated Derives text trees' rest')
    (ends : Layout rest (closing :: inner)) (ends' : Layout rest' (closing :: inner'))
    (items : ∀ {text' tree stop tree' stop'}, text'.length ≤ text.length →
      Derives text' tree stop → Apart stop → Derives text' tree' stop' → Apart stop' →
      tree = tree' ∧ stop = stop')
    (shrinks : ∀ {text' tree stop}, text'.length ≤ text.length → Derives text' tree stop →
      stop.length < text'.length) :
    trees = trees' ∧ rest = rest' := by
  induction first generalizing trees' with
  | single item =>
      cases second with
      | single item' =>
          obtain ⟨rfl, rfl⟩ := items (Nat.le_refl _) item (listable.apart_closing ends) item'
            (listable.apart_closing ends')
          exact ⟨rfl, rfl⟩
      | more item' before' =>
          obtain ⟨-, rfl⟩ := items (Nat.le_refl _) item (listable.apart_closing ends) item'
            (listable.apart_comma before')
          exact (listable.not_both before' ends).elim
  | more item before behind others ih =>
      cases second with
      | single item' =>
          obtain ⟨-, rfl⟩ := items (Nat.le_refl _) item (listable.apart_comma before) item'
            (listable.apart_closing ends')
          exact (listable.not_both before ends').elim
      | more item' before' behind' others' =>
          obtain ⟨rfl, rfl⟩ := items (Nat.le_refl _) item (listable.apart_comma before) item'
            (listable.apart_comma before')
          cases before.unique before' (solid_comma _) (solid_comma _)
          obtain rfl := behind.unique behind' (others.solid listable) (others'.solid listable)
          have shorter := shrinks (Nat.le_refl _) item
          have middle := before.length_le
          have last := behind.length_le
          rw [List.length_cons] at middle
          obtain ⟨rfl, rfl⟩ := ih others' ends (fun bound => items (by omega))
            (fun bound => shrinks (by omega))
          exact ⟨rfl, rfl⟩

theorem Enclosed.unique (listable : Listable Derives Apart closing) {opening : Char}
    {text rest rest' : List Char} {trees trees' : List τ}
    (first : Enclosed Derives opening closing text trees rest)
    (second : Enclosed Derives opening closing text trees' rest')
    (items : ∀ {text' tree stop tree' stop'}, text'.length < text.length →
      Derives text' tree stop → Apart stop → Derives text' tree' stop' → Apart stop' →
      tree = tree' ∧ stop = stop')
    (shrinks : ∀ {text' tree stop}, text'.length < text.length → Derives text' tree stop →
      stop.length < text'.length) :
    trees = trees' ∧ rest = rest' := by
  -- an empty sequence and one with an item cannot stand in front of the same text
  have notBoth {inner start stop rest : List Char} {trees : List τ}
      (empty : Layout inner (closing :: rest)) (before : Layout inner start)
      (filled : Separated Derives start trees stop) : False := by
    obtain rfl := before.unique empty (filled.solid listable) (listable.solid_closing _)
    cases filled with
    | single item | more item => exact listable.refuses item
  cases first with
  | empty before =>
      cases second with
      | empty before' =>
          cases before.unique before' (listable.solid_closing _) (listable.solid_closing _)
          exact ⟨rfl, rfl⟩
      | filled before' items' => exact (notBoth before before' items').elim
  | filled before listed behind =>
      cases second with
      | empty before' => exact (notBoth before' before listed).elim
      | filled before' listed' behind' =>
          obtain rfl := before.unique before' (listed.solid listable) (listed'.solid listable)
          have bound := before.length_le
          obtain ⟨rfl, rfl⟩ := listed.unique listable listed' behind behind'
            (fun shorter => items (by rw [List.length_cons]; omega))
            (fun shorter => shrinks (by rw [List.length_cons]; omega))
          cases behind.unique behind' (listable.solid_closing _) (listable.solid_closing _)
          exact ⟨rfl, rfl⟩

end Sequences

/-! ## The sequences of the grammar -/

/-- Arguments in parentheses. -/
theorem listable_argument : Listable DerivesArgument (fun _ => True) ')' where
  solid := DerivesArgument.solid
  refuses := fun derives => derives.head_ne (by decide)
  apart_comma := fun _ => trivial
  apart_closing := fun _ => trivial
  closing_solid := by decide
  closing_ne := by decide

/-- Literals in front of a sign that no literal starts with. -/
theorem listable_literal {closing : Char} (other : startsArgument closing = false)
    (notMark : closing ≠ '!') (solid : closing ∉ [' ', '\t', '\n', '\r', '/'])
    (notComma : closing ≠ ',') (notOpening : closing ≠ '(') :
    Listable DerivesLiteral (fun rest => ¬ Opens rest) closing where
  solid := DerivesLiteral.solid
  refuses := by
    intro behind tree rest derives
    obtain ⟨c, _, same, starts | rfl⟩ := derives.starts
    · obtain ⟨rfl, -⟩ := List.cons.inj same
      rw [other] at starts
      cases starts
    · exact notMark (List.cons.inj same).1
  apart_comma := fun layout => not_opens layout (by decide) (by decide)
  apart_closing := fun layout => not_opens layout solid notOpening
  closing_solid := solid
  closing_ne := notComma

theorem listable_literal_brace : Listable DerivesLiteral (fun rest => ¬ Opens rest) '\x7d' :=
  listable_literal (by decide) (by decide) (by decide) (by decide) (by decide)

theorem listable_literal_stop : Listable DerivesLiteral (fun rest => ¬ Opens rest) '.' :=
  listable_literal (by decide) (by decide) (by decide) (by decide) (by decide)

theorem listable_attribute : Listable DerivesAttribute (fun _ => True) ')' where
  solid := DerivesAttribute.solid
  refuses := by
    intro behind column rest derives
    cases derives with
    | typed word => exact word.head_ne (by decide)
  apart_comma := fun _ => trivial
  apart_closing := fun _ => trivial
  closing_solid := by decide
  closing_ne := by decide

/-- Names in front of the parenthesis that opens their attributes. -/
theorem listable_word : Listable Word (fun _ => True) '(' where
  solid := Word.solid
  refuses := fun word => word.head_ne (by decide)
  apart_comma := fun _ => trivial
  apart_closing := fun _ => trivial
  closing_solid := by decide
  closing_ne := by decide

end Datalog.Grammar
