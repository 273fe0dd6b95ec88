import Datalog.Proofs.Grammar.Completeness
import Datalog.Proofs.Isolation.Lexeme

/-!
# Statements in front of a full stop

Arguments are confined, and with them declarations and what a clause consists of, but
the clause itself may take the full stop.  It is settled nevertheless: a statement is
read in front of one tail exactly if it is read in front of any other, and when it is
refused nothing is missed behind the full stop (`settledAt_statement`).
-/

set_option autoImplicit false

namespace Datalog.Grammar

open Phrase

/-! ## Arguments -/

theorem read_recursive {α : Type} (contents : Phrase α → Phrase α) (text : List Char) :
    (recursive contents).read text = (nested contents (text.length + 1)).read text := rfl

/-- A level that is deep enough for a text reads the arguments of the text. -/
theorem read_argument_eq {text : List Char} {depth : Nat} (enough : text.length < depth) :
    argument.read text = (nested argumentOver depth).read text := by
  rw [argument, read_recursive]
  exact nested_read_eq (Nat.lt_succ_self _) enough

/-- **Arguments are confined.**  The level on which one is read depends on the text
behind the full stop, but two levels that are deep enough agree. -/
theorem confined_argument : Confined argument := by
  have levels := closed_confined.holds_nested
  intro front upTo
  constructor
  · refine .of_shift ?_
    intro tail rest a starts read
    have level := read_argument_eq (Nat.lt_succ_self (front ++ '.' :: tail).length)
    obtain ⟨front', settled, suffix, rfl⟩ :=
      (levels _ upTo).left starts (level.symm.trans read)
    refine ⟨front', settled, suffix, fun tail' starts' => ?_⟩
    have bound : ∀ more, more = tail ∨ more = tail' →
        (front ++ '.' :: more).length < (front ++ '.' :: tail ++ tail').length + 1 := by
      rintro more (rfl | rfl) <;> simp only [List.length_append, List.length_cons] <;> omega
    rw [read_argument_eq (bound tail (.inl rfl))] at read
    rw [read_argument_eq (bound tail' (.inr rfl))]
    cases (levels _ upTo).read with
    | refuses refused => rw [refused tail starts] at read; cases read
    | stops front'' _ _ taken =>
        obtain ⟨b, same⟩ := taken tail starts
        obtain ⟨-, same⟩ := Prod.mk.inj (Option.some.inj (same.symm.trans read))
        obtain rfl : front'' = front' := List.append_cancel_right same
        exact taken tail' starts'
  · intro tail trail starts before
    exact (levels ((front ++ '.' :: tail).length + 1) upTo).attempt tail trail starts before

/-! ## Statements -/

/-- Whether a phrase is read in front of a full stop does not depend on what stands
behind it, and where the phrase is refused nothing is missed there. -/
structure SettledAt {α : Type} (front : List Char) (phrase : Phrase α) : Prop where
  read : (∀ tail, StartsLine tail → phrase.read (front ++ '.' :: tail) = none) ∨
    ∀ tail, StartsLine tail → phrase.read (front ++ '.' :: tail) ≠ none
  attempt : Within front phrase

section Settled

variable {α β : Type} {front : List Char}

theorem ConfinedAt.settled {phrase : Phrase α} (confined : ConfinedAt front phrase) :
    SettledAt front phrase := by
  refine ⟨?_, confined.attempt⟩
  cases confined.read with
  | refuses refused => exact .inl refused
  | stops front' _ _ taken =>
      refine .inr fun tail starts => ?_
      obtain ⟨a, same⟩ := taken tail starts
      rw [same]
      simp

theorem SettledAt.named (production : Production) {phrase : Phrase α}
    (settled : SettledAt front phrase) : SettledAt front (named production phrase) :=
  ⟨settled.read, settled.attempt.named production⟩

theorem SettledAt.map (f : α → β) {phrase : Phrase α} (settled : SettledAt front phrase) :
    SettledAt front (f <$> phrase) := by
  refine ⟨?_, settled.attempt⟩
  rcases settled.read with refused | taken
  · exact .inl fun tail starts => by rw [read_map, refused tail starts]; rfl
  · refine .inr fun tail starts => ?_
    rw [read_map, ne_eq, Option.map_eq_none_iff]
    exact taken tail starts

theorem SettledAt.orElse {first second : Phrase α} (settled : SettledAt front first)
    (settled' : SettledAt front second) : SettledAt front (first <|> second) := by
  constructor
  · rcases settled.read with refused | taken
    · rcases settled'.read with refused' | taken'
      · refine .inl fun tail starts => ?_
        rw [read_orElse, refused tail starts, refused' tail starts]
        rfl
      · refine .inr fun tail starts => ?_
        rw [read_orElse, refused tail starts, Option.none_or]
        exact taken' tail starts
    · refine .inr fun tail starts => ?_
      rw [read_orElse, ne_eq, Option.or_eq_none_iff]
      exact fun both => taken tail starts both.1
  · exact settled.attempt.orElse settled'.attempt

/-- **A full stop behind a confined phrase settles it.** -/
theorem ConfinedAt.stopped {phrase : Phrase α} (confined : ConfinedAt front phrase) :
    SettledAt front (phrase <* token ".") := by
  constructor
  · cases confined.read with
    | refuses refused =>
        refine .inl fun tail starts => ?_
        exact (read_both _ _ _ _).trans (by rw [refused tail starts]; rfl)
    | stops front' upTo _ taken =>
        obtain ⟨front'', -, -, skipped⟩ := upTo.skip_eq
        have sequence (tail : List Char) (starts : StartsLine tail) :
            (phrase <* token ".").read (front ++ '.' :: tail) = none ↔
              (token ".").read (front'' ++ '.' :: tail) = none := by
          obtain ⟨a, same⟩ := taken tail starts
          have whole : (phrase <* token ".").read (front ++ '.' :: tail) = _ :=
            read_both_of_read _ same
          rw [whole, skipped, Option.map_eq_none_iff]
        -- what is left starts with the same character in front of every tail
        by_cases stops : (front'' ++ ['.']).head? = some '.'
        · refine .inr fun tail starts refused => ?_
          obtain ⟨rest, spelled⟩ : ∃ rest, front'' ++ '.' :: tail = '.' :: rest := by
            cases front'' with
            | nil => exact ⟨tail, rfl⟩
            | cons c front'' => exact ⟨_, by rw [← Option.some.inj stops]; rfl⟩
          have found := (read_token_iff "." (front'' ++ '.' :: tail) () rest).mpr spelled
          rw [(sequence tail starts).mp refused] at found
          cases found
        · refine .inl fun tail starts => (sequence tail starts).mpr ?_
          refine read_token_of_head_ne (show ".".toList = ['.'] from rfl) ?_
          cases front'' with
          | nil => exact absurd rfl stops
          | cons c front'' => exact stops
  · exact .both _ confined fun _ _ _ _ _ before => before

end Settled

theorem settledAt_clause {front : List Char} (upTo : UpToStop front) : SettledAt front clause := by
  have head := closed_confined.holds_atom confined_argument
  have contents := closed_confined.maybe (closed_confined.holds_body confined_argument)
  exact (closed_confined.seq (closed_confined.map _ head) contents upTo).stopped.named _

/-- **A statement is settled up to its full stop.** -/
theorem settledAt_statement {front : List Char} (upTo : UpToStop front) :
    SettledAt front statement := by
  have declared := closed_confined.map Statement.declaration
    (closed_confined.holds_declaration confined_declarationKeyword)
  exact ((declared upTo).settled.orElse ((settledAt_clause upTo).map _)).named _

end Datalog.Grammar
