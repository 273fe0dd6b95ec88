import Datalog.Proofs.Grammar.Soundness
import Datalog.Proofs.Grammar.Starts

/-!
# Properties of all phrases

A property of phrases is closed if the lexemes of the grammar have it, apart from the
full stop and the word that opens a declaration, and if the ways to put phrases together
keep it.  Arguments have such a property at every level of nesting
(`Closed.holds_nested`), and then so do bodies, and declarations if the word that opens
them has it.
-/

set_option autoImplicit false

namespace Datalog.Grammar

open Phrase

/-! ## Phrases that take characters -/

/-- A phrase that is read takes a character at least. -/
def Shrinks {α : Type} (phrase : Phrase α) : Prop :=
  ∀ ⦃text rest : List Char⦄ ⦃a : α⦄, phrase.read text = some (a, rest) →
    rest.length < text.length

/-- What is read is derived, and what is derived takes characters. -/
theorem Sound.shrinks {α τ : Type} {phrase : Phrase α} {Derives : List Char → τ → List Char → Prop}
    {spelled : τ → α} (sound : Sound phrase Derives spelled)
    (shorter : ∀ {text tree rest}, Derives text tree rest → rest.length < text.length) :
    Shrinks phrase := by
  intro text rest a read
  obtain ⟨tree, derives, -⟩ := sound read
  exact shorter derives

theorem shrinks_behind_comma {α : Type} {phrase : Phrase α} (shrinks : Shrinks phrase) :
    Shrinks (token "," *> phrase) := by
  intro text rest a read
  obtain ⟨inner, nothing, comma, item⟩ := (read_seqRight_iff _ _ _ _ _).mp read
  rw [(read_token_iff _ _ _ _).mp comma, List.length_append]
  have first := shrinks item
  have second := length_skip_le inner
  omega

/-! ## Closed properties -/

/-- The signs of the grammar, apart from the full stop. -/
def signs : List String := [",", "(", ")", ":", ":-", "!", "\x7b", "\x7d"]

/-- A property that the lexemes have, apart from those with a full stop, and that the
combinators keep.  Repetition has to keep it only for phrases that take characters. -/
structure Closed (property : ∀ {α : Type}, Phrase α → Prop) : Prop where
  sign : ∀ {spelling : String}, spelling ∈ signs → property (token spelling)
  word : ∀ {α : Type} (production : Production) (meaning : String → Option α),
    property (terminal production (readWord meaning))
  identifier : property identifier
  number : property number
  string : property string
  counter : property counter
  operator : property operator
  unapplied : property (absent '(')
  never : ∀ {α : Type}, property (never : Phrase α)
  named : ∀ {α : Type} (production : Production) {phrase : Phrase α}, property phrase →
    property (named production phrase)
  map : ∀ {α β : Type} (f : α → β) {phrase : Phrase α}, property phrase → property (f <$> phrase)
  both : ∀ {α β γ : Type} (combine : α → β → γ) {first : Phrase α} {second : Unit → Phrase β},
    property first → property (second ()) → property (both combine first second)
  orElse : ∀ {α : Type} {first second : Phrase α}, property first → property second →
    property (first <|> second)
  maybe : ∀ {α : Type} {phrase : Phrase α}, property phrase → property (maybe phrase)
  many : ∀ {α : Type} {phrase : Phrase α}, property phrase → Shrinks phrase →
    property (many phrase)
  defer : ∀ {α : Type} {phrase : Phrase α}, property phrase → property (defer fun _ => phrase)

namespace Closed

variable {property : ∀ {α : Type}, Phrase α → Prop} (closed : Closed property)

include closed

/-! ### Sequences -/

section Sequences

variable {α β : Type}

theorem seq {first : Phrase (α → β)} {second : Phrase α} (holds : property first)
    (holds' : property second) : property (first <*> second) :=
  closed.both _ holds holds'

theorem seqLeft {first : Phrase α} {second : Phrase β} (holds : property first)
    (holds' : property second) : property (first <* second) :=
  closed.both _ holds holds'

theorem seqRight {first : Phrase α} {second : Phrase β} (holds : property first)
    (holds' : property second) : property (first *> second) :=
  closed.both _ holds holds'

theorem holds_commaSeparated {phrase : Phrase α} (holds : property phrase)
    (shrinks : Shrinks phrase) : property (commaSeparated phrase) := by
  have behind : property (token "," *> phrase) :=
    closed.seqRight (closed.sign (by decide)) holds
  exact closed.seq (closed.map _ holds) (closed.many behind (shrinks_behind_comma shrinks))

/-- Any number of phrases, with signs around them. -/
theorem holds_enclosed {phrase : Phrase α} {opening closing : String} (holds : property phrase)
    (shrinks : Shrinks phrase) (opens : opening ∈ signs) (closes : closing ∈ signs) :
    property (token opening *> listOf phrase <* token closing) := by
  have listed : property (listOf phrase) :=
    closed.map _ (closed.maybe (closed.holds_commaSeparated holds shrinks))
  exact closed.seqLeft (closed.seqRight (closed.sign opens) listed) (closed.sign closes)

end Sequences

/-! ### Arguments and literals -/

section Contents

variable {inside : Phrase SpelledArgument} (holds : property inside)
  (sound : Sound inside DerivesArgument ArgumentTree.spelled)

include holds sound

theorem holds_atomOver : property (atomOver inside) := by
  have shrinks := sound.shrinks fun derives => derives.length_lt
  have arguments := closed.holds_enclosed holds shrinks (by decide : "(" ∈ signs)
    (by decide : ")" ∈ signs)
  exact closed.named _ (closed.seq (closed.map _ closed.identifier) arguments)

theorem holds_literalOver : property (literalOver inside) := by
  have atom := closed.holds_atomOver holds sound
  have negation : property (negationOver inside) :=
    closed.named _ (closed.map _ (closed.seqRight (closed.sign (by decide)) atom))
  have comparison : property (comparisonOver inside) :=
    closed.named _ (closed.seq (closed.seq (closed.map _ holds) closed.operator) holds)
  have constant : property truth := closed.word _ _
  refine closed.named _ (closed.orElse negation (closed.orElse (closed.map _ atom) ?_))
  exact closed.orElse comparison (closed.map _ constant)

theorem holds_aggregateOver : property (aggregateOver inside) := by
  have literals : Sound (literalOver inside) DerivesLiteral LiteralTree.spelled :=
    literalOver_sound sound
  have braced := closed.holds_enclosed (closed.holds_literalOver holds sound)
    (literals.shrinks fun derives => derives.length_lt) (by decide : "\x7b" ∈ signs)
    (by decide : "\x7d" ∈ signs)
  have contents : property (aggregateBodyOver inside) :=
    closed.named _ (closed.orElse braced (closed.map _ (closed.holds_atomOver holds sound)))
  have kind : property aggregateKind := closed.word _ _
  have behind : property (token ":" *> aggregateBodyOver inside) :=
    closed.seqRight (closed.sign (by decide)) contents
  exact closed.named _ (closed.seq (closed.seq (closed.map _ kind) (closed.maybe holds)) behind)

theorem holds_argumentOver : property (argumentOver inside) := by
  have nothing : property nil := closed.word _ _
  have anonymous : property unnamed := closed.word _ _
  have name : property variableName := closed.word _ _
  refine closed.named _ (closed.orElse (closed.holds_aggregateOver holds sound) ?_)
  refine closed.orElse (closed.map _ nothing) (closed.orElse (closed.map _ closed.counter) ?_)
  refine closed.orElse (closed.map _ closed.number) (closed.orElse (closed.map _ closed.string) ?_)
  exact closed.orElse (closed.map _ anonymous) (closed.map _ name)

end Contents

/-- **Arguments have a closed property at every level of nesting.** -/
theorem holds_nested (depth : Nat) : property (nested argumentOver depth) := by
  induction depth with
  | zero => exact closed.never
  | succ depth ih => exact closed.holds_argumentOver (closed.defer ih) (nested_sound depth)

/-! ### Statements -/

theorem holds_atom (holds : property argument) : property atom :=
  closed.holds_atomOver holds argument_sound

theorem holds_body (holds : property argument) : property body := by
  have literals := closed.holds_commaSeparated (closed.holds_literalOver holds argument_sound)
    (literal_sound.shrinks fun derives => derives.length_lt)
  exact closed.named _ (closed.seqRight (closed.sign (by decide)) literals)

theorem holds_relationNames : property relationNames := by
  have word := identifier_sound.shrinks fun word => word.length_lt
  exact closed.named _ (closed.holds_commaSeparated closed.identifier word)

/-- The attributes of a declaration with the signs around them. -/
theorem holds_columns : property (token "(" *> attributes <* token ")") := by
  have column : property attributePhrase := closed.named _ (closed.seq
    (closed.map _ closed.identifier) (closed.seqRight (closed.sign (by decide)) closed.identifier))
  have shrinks := attributePhrase_sound.shrinks fun derives => derives.length_lt
  have columns : property attributes :=
    closed.named _ (closed.map _ (closed.maybe (closed.holds_commaSeparated column shrinks)))
  exact closed.seqLeft (closed.seqRight (closed.sign (by decide)) columns) (closed.sign (by decide))

theorem holds_representation : property (Phrase.maybe (qualifier <* absent '(')) := by
  have representation : property qualifier := closed.word _ _
  exact closed.maybe (closed.seqLeft representation closed.unapplied)

/-- A declaration has a closed property if the word that opens it does. -/
theorem holds_declaration (keyword : property declarationKeyword) : property declaration := by
  have opened := closed.seqRight keyword closed.holds_relationNames
  exact closed.named _ (closed.seq (closed.seq (closed.map _ opened) closed.holds_columns)
    closed.holds_representation)

end Closed

end Datalog.Grammar
