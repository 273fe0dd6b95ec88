import Datalog.Proofs.Segment.Names
import Mathlib.Logic.Function.Iterate

/-!
# The grammar's recursion comes to an end

An argument may contain arguments, and a repetition has no bound of its own.  Both come
to an end because reading goes on behind characters that have been taken: between an
argument and the arguments inside it stands the word that announces an aggregate, and in
front of each repeated phrase stands a comma.  So what is read at a text depends only on
how shorter texts are read (`agree_argumentOver`), whatever stands below as many levels
of nesting as the text has characters is never looked at (`attempt_iterate`), and the
levels and the numbers of repetitions that readers allow for are no part of the grammar
(`attempt_argument_unfold`, `attemptMany_eq`).
-/

set_option autoImplicit false

namespace Datalog.Grammar

open Phrase

variable {α β γ : Type}

/-! ## Phrases that agree on short texts -/

/-- Two phrases answer alike and miss the same on texts of less than a size, and leave
texts of less than another size. -/
structure Agree (size behind : Nat) (phrase phrase' : Phrase α) : Prop where
  attempt : ∀ ⦃text : List Char⦄, text.length < size →
    ∀ trail, phrase.attempt text trail = phrase'.attempt text trail
  leaves : ∀ ⦃text rest : List Char⦄ ⦃a : α⦄, text.length < size →
    phrase.read text = some (a, rest) → rest.length < behind

/-- The word that announces an aggregate has a character at least. -/
theorem shrinks_aggregateKind : Shrinks aggregateKind := by
  intro text rest kind read
  obtain ⟨name, word, -⟩ := (readWord_eq_some_iff _ _ _ _).mp read
  exact word.length_lt

namespace Agree

variable {size middle behind : Nat}

/-- Below a size of zero there are no texts. -/
theorem nothing (phrase phrase' : Phrase α) : Agree 0 behind phrase phrase' where
  attempt _ less := absurd less (Nat.not_lt_zero _)
  leaves _ _ _ less := absurd less (Nat.not_lt_zero _)

theorem of_trims {phrase : Phrase α} (trims : Trims phrase) (size : Nat) :
    Agree size size phrase phrase where
  attempt _ _ _ := rfl
  leaves _ _ _ less read := Nat.lt_of_le_of_lt (trims read).length_le less

theorem of_shrinks {phrase : Phrase α} (shrinks : Shrinks phrase) (size : Nat) :
    Agree (size + 1) size phrase phrase where
  attempt _ _ _ := rfl
  leaves _ _ _ less read := Nat.lt_of_lt_of_le (shrinks read) (Nat.le_of_lt_succ less)

theorem mono {phrase phrase' : Phrase α} (agree : Agree size middle phrase phrase')
    (larger : middle ≤ behind) : Agree size behind phrase phrase' :=
  ⟨agree.attempt, fun _ _ _ less read => Nat.lt_of_lt_of_le (agree.leaves less read) larger⟩

theorem map (f : α → β) {phrase phrase' : Phrase α} (agree : Agree size behind phrase phrase') :
    Agree size behind (f <$> phrase) (f <$> phrase') := by
  constructor
  · intro text less trail
    simp only [Functor.map, agree.attempt less trail]
  · intro text rest b less read
    obtain ⟨a, found, -⟩ := (read_map_iff _ _ _ _ _).mp read
    exact agree.leaves less found

theorem named (production : Production) {phrase phrase' : Phrase α}
    (agree : Agree size behind phrase phrase') :
    Agree size behind (named production phrase) (named production phrase') := by
  refine ⟨?_, agree.leaves⟩
  intro text less trail
  simp only [Phrase.named, agree.attempt less trail]

/-- What comes second is read at what the first phrase leaves. -/
theorem both (combine : α → β → γ) {first first' : Phrase α} {second second' : Unit → Phrase β}
    (agree : Agree size middle first first')
    (agree' : Agree middle behind (second ()) (second' ())) :
    Agree size behind (both combine first second) (both combine first' second') := by
  constructor
  · intro text less trail
    have answer := first.attempt_fst text trail
    simp only [Phrase.both, ← agree.attempt less trail]
    cases attempted : first.attempt text trail with
    | mk found inside =>
        rw [attempted] at answer
        cases found with
        | none => rfl
        | some found =>
            obtain ⟨a, rest⟩ := found
            have left := agree.leaves less answer.symm
            simp only [agree'.attempt (Nat.lt_of_le_of_lt (length_skip_le rest) left)]
  · intro text rest c less read
    obtain ⟨a, between, b, found, found', -⟩ := (read_both_iff _ _ _ _ _ _).mp read
    have left := agree.leaves less found
    exact agree'.leaves (Nat.lt_of_le_of_lt (length_skip_le between) left) found'

theorem orElse {first first' second second' : Phrase α} (agree : Agree size behind first first')
    (agree' : Agree size behind second second') :
    Agree size behind (first <|> second) (first' <|> second') := by
  constructor
  · intro text less trail
    change (either first fun _ => second).attempt text trail =
      (either first' fun _ => second').attempt text trail
    simp only [either, agree.attempt less trail, agree'.attempt less]
  · intro text rest a less read
    rcases (read_orElse_iff _ _ _ _ _).mp read with found | ⟨-, found⟩
    · exact agree.leaves less found
    · exact agree'.leaves less found

theorem maybe {phrase phrase' : Phrase α} (agree : Agree size size phrase phrase') :
    Agree size size (maybe phrase) (maybe phrase') := by
  constructor
  · intro text less trail
    simp only [Phrase.maybe, agree.attempt less trail]
  · intro text rest a? less read
    rcases (read_maybe_iff _ _ _ _).mp read with ⟨a, found, -⟩ | ⟨-, -, rfl⟩
    · exact agree.leaves less found
    · exact less

theorem attemptMany {phrase phrase' : Phrase α} (agree : Agree size size phrase phrase')
    (limit : Nat) {text : List Char} (less : text.length < size) (trail : Trail) :
    attemptMany phrase limit text trail = attemptMany phrase' limit text trail ∧
      (readMany phrase limit text).2.length < size := by
  induction limit generalizing text trail with
  | zero => exact ⟨rfl, less⟩
  | succ limit ih =>
      have shorter := Nat.lt_of_le_of_lt (length_skip_le text) less
      have answer := phrase.attempt_fst (skip text) trail
      simp only [Phrase.attemptMany, Phrase.readMany, ← agree.attempt shorter trail]
      cases attempted : phrase.attempt (skip text) trail with
      | mk found inside =>
          rw [attempted] at answer
          rw [← answer]
          cases found with
          | none => exact ⟨rfl, less⟩
          | some found =>
              obtain ⟨a, rest⟩ := found
              obtain ⟨same, left⟩ := ih (agree.leaves shorter answer.symm) inside
              exact ⟨by simp only [same], left⟩

theorem many {phrase phrase' : Phrase α} (agree : Agree size size phrase phrase') :
    Agree size size (many phrase) (many phrase') := by
  constructor
  · intro text less trail
    simp only [Phrase.many, (agree.attemptMany text.length less trail).1]
  · intro text rest as less read
    have left := (agree.attemptMany text.length less (.start text)).2
    rwa [(read_many_iff _ _ _ _).mp read] at left

/-! ## Arguments and what contains them -/

theorem commaSeparated {phrase phrase' : Phrase α} (agree : Agree size size phrase phrase') :
    Agree size size (commaSeparated phrase) (commaSeparated phrase') := by
  have behind : Agree size size (token "," *> phrase) (token "," *> phrase') :=
    (of_trims (trims_token ",") size).both _ agree
  have whole : Agree size size (List.cons <$> phrase <*> Phrase.many (token "," *> phrase))
      (List.cons <$> phrase' <*> Phrase.many (token "," *> phrase')) :=
    (agree.map _).both _ behind.many
  exact whole

theorem enclosed {phrase phrase' : Phrase α} (agree : Agree size size phrase phrase')
    (opening closing : String) :
    Agree size size (token opening *> listOf phrase <* token closing)
      (token opening *> listOf phrase' <* token closing) := by
  have listed : Agree size size (listOf phrase) (listOf phrase') :=
    agree.commaSeparated.maybe.map _
  have opened : Agree size size (token opening *> listOf phrase)
      (token opening *> listOf phrase') :=
    (of_trims (trims_token opening) size).both _ listed
  exact opened.both _ (of_trims (trims_token closing) size)

section Contents

variable {inside inside' : Phrase SpelledArgument} (agree : Agree size size inside inside')

include agree

theorem atomOver : Agree size size (atomOver inside) (atomOver inside') :=
  (((of_trims closed_trims.identifier size).map _).both _ (agree.enclosed "(" ")")).named _

theorem literalOver : Agree size size (literalOver inside) (literalOver inside') := by
  have atom := agree.atomOver
  have negation : Agree size size (negationOver inside) (negationOver inside') :=
    (Agree.map _ ((of_trims (trims_token "!") size).both _ atom)).named _
  have left : Agree size size
      ((fun left operator right => Literal.comparison operator left right) <$> inside <*> operator)
      ((fun left operator right => Literal.comparison operator left right) <$> inside' <*>
        operator) :=
    (agree.map _).both _ (of_trims closed_trims.operator size)
  have comparison : Agree size size (comparisonOver inside) (comparisonOver inside') :=
    (left.both _ agree).named _
  have constant : Trims truth := closed_trims.word _ _
  have last := comparison.orElse ((of_trims constant size).map Literal.truth)
  exact (negation.orElse ((atom.map _).orElse last)).named _

theorem aggregateBodyOver :
    Agree size size (aggregateBodyOver inside) (aggregateBodyOver inside') :=
  ((agree.literalOver.enclosed _ _).orElse (agree.atomOver.map _)).named _

/-- **The word that announces an aggregate stands in front of the arguments inside it.** -/
theorem aggregateOver : Agree (size + 1) size (aggregateOver inside) (aggregateOver inside') := by
  have target : Agree (size + 1) size
      (Argument.aggregate <$> aggregateKind <*> Phrase.maybe inside)
      (Argument.aggregate <$> aggregateKind <*> Phrase.maybe inside') :=
    ((of_shrinks shrinks_aggregateKind size).map _).both _ agree.maybe
  have contents : Agree size size (token ":" *> Grammar.aggregateBodyOver inside)
      (token ":" *> Grammar.aggregateBodyOver inside') :=
    (of_trims (trims_token ":") size).both _ agree.aggregateBodyOver
  exact (target.both _ contents).named _

end Contents

end Agree

/-- **What is read at a text depends on how shorter texts are read.** -/
theorem agree_argumentOver {size : Nat} {inside inside' : Phrase SpelledArgument}
    (agree : Agree size size inside inside') :
    Agree (size + 1) (size + 1) (argumentOver inside) (argumentOver inside') := by
  have nothing : Trims nil := closed_trims.word _ _
  have anonymous : Trims unnamed := closed_trims.word _ _
  have name : Trims variableName := closed_trims.word _ _
  have lexemes := ((nothing.map fun _ => (Argument.nil : SpelledArgument)).orElse
    ((closed_trims.counter.map fun _ => .counter).orElse
      ((closed_trims.number.map Argument.number).orElse
        ((closed_trims.string.map Argument.string).orElse
          ((anonymous.map fun _ => .unnamed).orElse (name.map Argument.variable))))))
  exact ((agree.aggregateOver.mono (Nat.le_succ size)).orElse (Agree.of_trims lexemes _)).named _

/-- Phrases agree on texts that are shorter than they have levels. -/
theorem agree_iterate (size : Nat) (bottom bottom' : Phrase SpelledArgument) :
    Agree size size (argumentOver^[size] bottom) (argumentOver^[size] bottom') := by
  induction size with
  | zero => exact .nothing _ _
  | succ size ih =>
      rw [Function.iterate_succ_apply', Function.iterate_succ_apply']
      exact agree_argumentOver ih

/-! ## The levels of nesting -/

/-- The levels of arguments are those of their contents. -/
theorem nested_eq_iterate (depth : Nat) :
    nested argumentOver depth = argumentOver^[depth] Phrase.never := by
  induction depth with
  | zero => rfl
  | succ depth ih =>
      rw [Function.iterate_succ_apply', ← ih]
      rfl

/-- **What stands below as many levels as a text has characters is never looked at.** -/
theorem attempt_iterate {text : List Char} {depth : Nat} (enough : text.length < depth)
    (bottom : Phrase SpelledArgument) (trail : Trail) :
    (argumentOver^[depth] bottom).attempt text trail = argument.attempt text trail := by
  obtain ⟨more, rfl⟩ : ∃ more, depth = text.length + 1 + more :=
    ⟨depth - (text.length + 1), by omega⟩
  rw [Function.iterate_add_apply]
  have same := (agree_iterate (text.length + 1) (argumentOver^[more] bottom) Phrase.never).attempt
    (Nat.lt_succ_self _) trail
  rw [same, ← nested_eq_iterate]
  rfl

/-- **An argument is what its contents make of arguments**, on every text. -/
theorem attempt_argument_unfold (text : List Char) (trail : Trail) :
    argument.attempt text trail = (argumentOver argument).attempt text trail := by
  have inner : Agree (text.length + 1) (text.length + 1)
      (argumentOver^[text.length + 1] Phrase.never) argument := by
    refine ⟨fun shorter less trail => attempt_iterate less _ trail, ?_⟩
    exact (agree_iterate (text.length + 1) Phrase.never Phrase.never).leaves
  have outer := (agree_argumentOver inner).attempt (Nat.lt_succ_of_lt (Nat.lt_succ_self _)) trail
  rw [← outer, ← Function.iterate_succ_apply' argumentOver]
  exact (attempt_iterate (Nat.lt_succ_of_lt (Nat.lt_succ_self _)) _ trail).symm

/-! ## The numbers of repetitions -/

section Repetitions

variable {phrase : Phrase α}

theorem shrinks_of_comma (trims : Trims phrase) : Shrinks (token "," *> phrase) := by
  intro text rest a read
  obtain ⟨inner, nothing, comma, item⟩ := (read_seqRight_iff _ _ _ _ _).mp read
  rw [(read_token_iff _ _ _ _).mp comma, List.length_append]
  have first := (trims item).length_le
  have second := length_skip_le inner
  have sign : ",".toList.length = 1 := rfl
  omega

/-- No comma is found in an empty text, and missing it is not remembered. -/
theorem attempt_comma_nil (trail : Trail) :
    (token "," *> phrase).attempt [] trail = (none, trail) := rfl

/-- **It makes no difference how many repetitions are allowed for**, if they are as many
as there are characters. -/
theorem attemptMany_eq (trims : Trims phrase) {limit limit' : Nat} {text : List Char}
    (enough : text.length ≤ limit) (enough' : text.length ≤ limit') (trail : Trail) :
    attemptMany (token "," *> phrase) limit text trail =
      attemptMany (token "," *> phrase) limit' text trail := by
  have bare : skip [] = [] := by simp [skip]
  have empty (limit : Nat) (trail : Trail) :
      attemptMany (token "," *> phrase) limit [] trail = (([], []), trail) := by
    cases limit with
    | zero => rfl
    | succ limit => rw [attemptMany, bare, attempt_comma_nil]
  induction limit generalizing text trail limit' with
  | zero =>
      obtain rfl := List.length_eq_zero_iff.mp (Nat.le_zero.mp enough)
      rw [empty, empty]
  | succ limit ih =>
      cases limit' with
      | zero =>
          obtain rfl := List.length_eq_zero_iff.mp (Nat.le_zero.mp enough')
          rw [empty, empty]
      | succ limit' =>
          have answer := (token "," *> phrase).attempt_fst (skip text) trail
          simp only [attemptMany]
          cases attempted : (token "," *> phrase).attempt (skip text) trail with
          | mk found inside =>
              rw [attempted] at answer
              cases found with
              | none => rfl
              | some found =>
                  obtain ⟨a, rest⟩ := found
                  have shorter := shrinks_of_comma trims answer.symm
                  have within := length_skip_le text
                  have same := @ih limit' rest (by omega) (by omega) inside
                  simp only [same]

end Repetitions

end Datalog.Grammar
