import Datalog.Grammar.Fault
import Datalog.Proofs.Grammar.Closure

/-!
# Trails move forward

Whatever is attempted, the furthest place at which something was missed stays where
it is or moves on towards the end of the text.  So a fault lies within the text that
was refused (`remaining_fault_le`).
-/

set_option autoImplicit false

namespace Datalog.Grammar

open Phrase

variable {α β γ : Type}

/-- Attempting the phrase does not take the trail back. -/
def Forward (phrase : Phrase α) : Prop :=
  ∀ text trail, (phrase.attempt text trail).2.remaining ≤ trail.remaining

/-! ## Combinators -/

theorem forward_lexeme (read : List Char → Option (α × List Char)) : Forward (lexeme read) :=
  fun _ _ => Nat.le_refl _

theorem Forward.named (production : Production) {phrase : Phrase α} (forward : Forward phrase) :
    Forward (named production phrase) := by
  intro text trail
  have inner := forward text trail
  rw [trail_named]
  split
  next => exact inner
  next => exact Nat.le_trans (Trail.remaining_miss_le _ _ _ _) inner

theorem Forward.map (f : α → β) {phrase : Phrase α} (forward : Forward phrase) :
    Forward (f <$> phrase) :=
  forward

theorem Forward.both (combine : α → β → γ) {first : Phrase α} {second : Unit → Phrase β}
    (forward : Forward first) (forward' : Forward (second ())) :
    Forward (both combine first second) := by
  intro text trail
  have inner := forward text trail
  rw [trail_both]
  split
  next => exact inner
  next a rest _ => exact Nat.le_trans (forward' (skip rest) _) inner

theorem Forward.orElse {first second : Phrase α} (forward : Forward first)
    (forward' : Forward second) : Forward (first <|> second) := by
  intro text trail
  have inner := forward text trail
  rw [trail_orElse]
  split
  next => exact inner
  next => exact Nat.le_trans (forward' text _) inner

theorem Forward.maybe {phrase : Phrase α} (forward : Forward phrase) : Forward (maybe phrase) := by
  intro text trail
  rw [trail_maybe]
  exact forward text trail

theorem Forward.attemptMany {phrase : Phrase α} (forward : Forward phrase) (limit : Nat)
    (text : List Char) (trail : Trail) :
    (attemptMany phrase limit text trail).2.remaining ≤ trail.remaining := by
  induction limit generalizing text trail with
  | zero => exact Nat.le_refl _
  | succ limit ih =>
      have inner := forward (skip text) trail
      rw [trail_attemptMany_succ]
      split
      next => exact inner
      next a rest _ => exact Nat.le_trans (ih rest _) inner

/-! ## Phrases of the grammar -/

/-- **No phrase of the grammar takes a trail back.** -/
theorem closed_forward : Closed @Forward where
  sign _ := forward_lexeme _
  word production _ := (forward_lexeme _).named production
  identifier := (forward_lexeme _).named _
  number := (forward_lexeme _).named _
  string := (forward_lexeme _).named _
  counter := (forward_lexeme _).named _
  operator := (forward_lexeme _).named _
  unapplied := forward_lexeme _
  never := forward_lexeme _
  named production _ forward := forward.named production
  map f _ forward := forward.map f
  both combine _ _ forward forward' := forward.both combine forward'
  orElse forward forward' := forward.orElse forward'
  maybe forward := forward.maybe
  many forward _ := fun text trail => forward.attemptMany text.length text trail
  defer forward := forward

theorem forward_argument : Forward argument := fun text trail =>
  closed_forward.holds_nested (text.length + 1) text trail

theorem forward_clause : Forward clause := by
  have head := closed_forward.holds_atom forward_argument
  have contents := closed_forward.holds_body forward_argument
  have stop : Forward (token ".") := forward_lexeme _
  exact (closed_forward.seqLeft (closed_forward.seq (head.map _) contents.maybe) stop).named _

theorem forward_statement : Forward statement := by
  have keyword : Forward declarationKeyword := (forward_lexeme _).named _
  have declared := closed_forward.holds_declaration keyword
  exact ((declared.map _).orElse (forward_clause.map _)).named _

/-- **A fault lies within the text that is refused.** -/
theorem remaining_fault_le (text : List Char) :
    (nextStatement.fault text).remaining ≤ text.length :=
  forward_statement (skip text) (.start text)

end Datalog.Grammar
