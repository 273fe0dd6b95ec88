import Datalog.Proofs.Grammar.SingleClause
import Datalog.Proofs.Rules.Phrase

/-!
# Statements trace runs

Every production of the grammar, attempted on a text of any length, is a run of its rule.
What is read at a text depends on how shorter texts are read, since the word that announces
an aggregate stands in front of the arguments inside it, so arguments are traced by
induction on the size of texts (`traces_argument`).  Whole texts are tried by two rules of
their own, one for the next statement and one for a single clause
(`run_nextStatement`, `run_singleClause`).
-/

set_option autoImplicit false

namespace Datalog.Grammar

open Phrase

variable {α : Type} {code : List Char} {size : Nat}

/-! ## Lexemes -/

theorem traces_identifier (size : Nat) : Traces code size (.of .identifier) identifier :=
  .terminal rfl closed_trims.identifier answers_identifier

theorem traces_truth (size : Nat) : Traces code size (.of .truth) truth :=
  .terminal rfl (closed_trims.word _ _) answers_truth

theorem traces_operator (size : Nat) : Traces code size (.of .operator) operator :=
  .terminal rfl closed_trims.operator answers_operator

theorem traces_aggregateKind (size : Nat) :
    Traces code size (.of .aggregateKind) aggregateKind :=
  .terminal rfl (closed_trims.word _ _) answers_aggregateKind

/-- The arguments that have no arguments inside them. -/
theorem traces_lexemes (size : Nat) :
    Traces code size (.of .nil <|> .of .counter <|> .of .number <|> .of .string <|>
        .of .unnamed <|> .of .variable)
      ((fun _ => .nil) <$> nil <|> (fun _ => .counter) <$> counter <|>
        Argument.number <$> number <|> Argument.string <$> string <|>
        (fun _ => .unnamed) <$> unnamed <|> Argument.variable <$> variableName) := by
  have nothing : Traces code size (.of .nil) nil :=
    .terminal rfl (closed_trims.word _ _) answers_nil
  have counted : Traces code size (.of .counter) counter :=
    .terminal rfl closed_trims.counter answers_counter
  have numeral : Traces code size (.of .number) number :=
    .terminal rfl closed_trims.number answers_number
  have quoted : Traces code size (.of .string) string :=
    .terminal rfl closed_trims.string run_string
  have anonymous : Traces code size (.of .unnamed) unnamed :=
    .terminal rfl (closed_trims.word _ _) answers_unnamed
  have name : Traces code size (.of .variable) variableName :=
    .terminal rfl (closed_trims.word _ _) answers_variable
  exact (nothing.map _).orElse ((counted.map _).orElse ((numeral.map _).orElse
    ((quoted.map _).orElse ((anonymous.map _).orElse (name.map _)))))

/-! ## Arguments and what contains them -/

namespace Traces

variable {inside : Phrase SpelledArgument} (traces : Traces code size (.of .argument) inside)

include traces

theorem atomOver : Traces code size (.of .atom) (atomOver inside) :=
  named rfl (((traces_identifier size).map _).both _ (traces.listOf.enclosed "(" ")"))

theorem literalOver : Traces code size (.of .literal) (literalOver inside) := by
  have atom := traces.atomOver
  have denied : Traces code size (.sign "!" >> .of .atom)
      (Phrase.token "!" *> Grammar.atomOver inside) := (token "!" size).both _ atom
  have negation : Traces code size (.of .negation) (negationOver inside) :=
    named rfl (denied.map _)
  have comparison : Traces code size (.of .comparison) (comparisonOver inside) :=
    named rfl (.regroup (.both _ (.both _ (traces.map _) (traces_operator size)) traces))
  exact named rfl (negation.orElse ((atom.map _).orElse
    (comparison.orElse ((traces_truth size).map _))))

theorem aggregateBodyOver : Traces code size (.of .aggregateBody) (aggregateBodyOver inside) :=
  named rfl ((traces.literalOver.listOf.enclosed "\x7b" "\x7d").orElse (traces.atomOver.map _))

/-- **The word that announces an aggregate stands in front of the arguments inside it.** -/
theorem aggregateOver : Traces code (size + 1) (.of .aggregate) (aggregateOver inside) := by
  -- the target stands behind the word, and the body behind both, so both are shorter
  have left := Agree.of_shrinks shrinks_aggregateKind size
  have left' : Agree (size + 1) size (Argument.aggregate <$> aggregateKind <*> Phrase.maybe inside)
      (Argument.aggregate <$> aggregateKind <*> Phrase.maybe inside) :=
    (left.map _).both _ (.of_trims traces.trims.maybe size)
  have contents : Traces code size (.sign ":" >> .of .aggregateBody)
      (Phrase.token ":" *> Grammar.aggregateBodyOver inside) :=
    (token ":" size).both _ traces.aggregateBodyOver
  refine named rfl (.regroup (.behind _ (.behind _ ?kind traces.maybe ?_) contents left'.leaves))
  · exact (traces_aggregateKind (size + 1)).map _
  · exact (left.map _).leaves

end Traces

/-- **Arguments trace runs**, whatever is inside them. -/
theorem traces_argument (size : Nat) : Traces code size (.of .argument) argument := by
  -- on the size of texts; one level of nesting is put around shorter texts
  induction size with
  | zero => exact ⟨fun _ less => absurd less (Nat.not_lt_zero _), trims_argument⟩
  | succ size ih =>
      have outer : Traces code (size + 1) (.of .argument) (argumentOver argument) :=
        .named rfl (ih.aggregateOver.orElse (traces_lexemes (size + 1)))
      refine ⟨fun text less solid trail => ?_, trims_argument⟩
      rw [attempt_argument_unfold]
      exact outer.run less solid trail

/-! ## Statements -/

theorem traces_clause (size : Nat) : Traces code size (.of .clause) clause := by
  have argument : Traces code size (.of .argument) argument := traces_argument size
  have contents : Traces code size (.of .body) body :=
    .named rfl ((Traces.token ":-" size).both _ argument.literalOver.commaSeparated)
  refine .named rfl (.regroup (.both _ (.both _ ?head contents.maybe) (.token "." size)))
  exact argument.atomOver.map _

theorem traces_relationNames (size : Nat) :
    Traces code size (.of .relationNames) relationNames :=
  .named rfl (traces_identifier size).commaSeparated

theorem traces_attributes (size : Nat) : Traces code size (.of .attributes) attributes := by
  have type : Traces code size (.sign ":" >> .of .identifier) (token ":" *> identifier) :=
    (Traces.token ":" size).both _ (traces_identifier size)
  have column : Traces code size (.of .attribute) attributePhrase :=
    .named rfl (((traces_identifier size).map _).both _ type)
  exact .named rfl column.listOf

theorem traces_declaration (size : Nat) : Traces code size (.of .declaration) declaration := by
  have keyword : Traces code size (.of .declarationKeyword) declarationKeyword :=
    .terminal rfl trims_declarationKeyword answers_declarationKeyword
  have names : Traces code size (.of .declarationKeyword >> .of .relationNames)
      (declarationKeyword *> relationNames) := keyword.both _ (traces_relationNames size)
  have representation : Traces code size (.of .representation) qualifier :=
    .terminal rfl (closed_trims.word _ _) answers_representation
  have unapplied : Traces code size (.of .representation >> .absent (.sign "("))
      (qualifier <* absent '(') := representation.both _ (.unapplied size)
  refine .named rfl (.regroup (.regroup (.both _ (.both _ ?names ?columns) unapplied.maybe)))
  case names => exact names.map _
  case columns => exact (traces_attributes size).enclosed "(" ")"

theorem traces_statement (size : Nat) : Traces code size (.of .statement) statement :=
  .named rfl (((traces_declaration size).map _).orElse ((traces_clause size).map _))

theorem traces_endOfInput (size : Nat) : Traces code size (.of .endOfInput) endOfInput := by
  refine .terminal rfl (fun text rest nothing read => ?_) fun text record => ?_
  · obtain ⟨-, rfl⟩ := (read_endOfInput_iff _ _ _).mp read
    exact List.nil_suffix
  · cases text with
    | nil => exact .stop rfl
    | cons c rest => exact .noStop (List.cons_ne_nil c rest)

/-! ## Whole texts -/

/-- Layout in front of a whole text is skipped first, and the rule that does so is never
missed itself. -/
theorem run_entry {entry : Rule} {expression : Expression} {phrase : Phrase α}
    (begins : entry.body = .start >> expression) (shape : entry.transparent = true)
    (spaced : entry.manner = .spaced)
    (traces : Traces code (code.length + 1) expression phrase) :
    Run code .spaced (.rule entry) code (.start code)
      (((afterLayout phrase).attempt code (.start code)).1.map Prod.snd)
      ((afterLayout phrase).attempt code (.start code)).2.record := by
  have within : (skip code).length < code.length + 1 := Nat.lt_succ_of_le (length_skip_le code)
  have run := traces.run within (skip_skip code) (.start code)
  have whole := Run.both (.start rfl) (answers_layout code (.start code)) run
  refine Run.of_transparent shape ?_
  rw [begins, spaced]
  exact whole

/-- **Attempting a statement on a whole text is a run of its rule.** -/
theorem run_nextStatement (code : List Char) :
    Run code .spaced (.rule .nextStatement) code (.start code)
      ((nextStatement.attempt code (.start code)).1.map Prod.snd)
      (nextStatement.attempt code (.start code)).2.record :=
  run_entry rfl rfl rfl (traces_statement _)

/-- **Attempting a single clause on a whole text is a run of its rule.** -/
theorem run_singleClause (code : List Char) :
    Run code .spaced (.rule .singleClause) code (.start code)
      ((singleClause.attempt code (.start code)).1.map Prod.snd)
      (singleClause.attempt code (.start code)).2.record :=
  run_entry rfl rfl rfl ((traces_clause _).both _ (traces_endOfInput _))

end Datalog.Grammar
