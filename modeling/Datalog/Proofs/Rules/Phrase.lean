import Datalog.Proofs.Grammar.Recursion
import Datalog.Proofs.Rules.Layout

/-!
# Phrases trace runs

Attempting a phrase is a run of its rule: the answer is the same, and the trail keeps what
the record keeps.  The trail knows productions only, lexemes are looked at as a whole, and
repetitions are counted; none of this makes a difference, because nothing is recorded inside
closed rules, and because the counts are never reached.
-/

set_option autoImplicit false

namespace Datalog.Grammar

open Phrase

variable {α β γ : Type} {code : List Char} {size : Nat}

/-! ## Trails as records -/

/-- What a trail says, as a record. -/
def Trail.record (trail : Trail) : Record := ⟨trail.remaining, trail.missed.map .production⟩

theorem Trail.countAt_record (trail : Trail) (remaining : Nat) :
    trail.record.countAt remaining = (trail.missedAt remaining).length := by
  unfold Record.countAt missedAt
  split
  next here => rw [if_pos (show trail.remaining = remaining from here)]; exact List.length_map _
  next other => rw [if_neg (show ¬ trail.remaining = remaining from other)]; rfl

/-- **A production is missed in a trail as its rule is in a record.** -/
theorem Trail.record_miss (production : Production) (remaining : Nat) (begun inside : Trail) :
    (miss production remaining begun inside).record =
      begun.record.miss (.production production) remaining inside.record := by
  simp only [miss, Record.miss, countAt_record]
  split
  next => rfl
  next several =>
    by_cases here : inside.remaining = remaining
    · rw [if_pos here.ge, if_pos (show inside.record.remaining = remaining from here)]
      simp [record, missedAt, here, List.map_take]
    by_cases further : remaining < inside.remaining
    · rw [if_pos further.le, if_neg (show inside.record.remaining ≠ remaining from here),
        if_pos (show remaining < inside.record.remaining from further)]
      simp [record, missedAt, here]
    · rw [if_neg (by omega), if_neg (show inside.record.remaining ≠ remaining from here),
        if_neg (show ¬ remaining < inside.record.remaining from further)]

/-! ## Phrases that trace runs -/

/-- On texts of less than a size with no layout in front, attempting the phrase is a run of
the expression. -/
structure Traces (code : List Char) (size : Nat) (expression : Expression) (phrase : Phrase α) :
    Prop where
  run : ∀ ⦃text : List Char⦄, text.length < size → skip text = text → ∀ trail : Trail,
    Run code .spaced expression text trail.record
      ((phrase.attempt text trail).1.map Prod.snd) (phrase.attempt text trail).2.record
  trims : Trims phrase

namespace Traces

variable {expression first second contents : Expression} {phrase : Phrase α}

/-! ### Signs and rules -/

theorem token (spelling : String) (size : Nat) :
    Traces code size (.sign spelling) (token spelling) := by
  refine ⟨fun text _ _ trail => ?_, trims_token spelling⟩
  have run : Run code .spaced _ text trail.record _ _ := run_sign .spaced spelling text _
  change Run code .spaced _ text trail.record
    (((spelling.toList.isPrefixOf? text).map fun rest => ((), rest)).map Prod.snd) trail.record
  rwa [Option.map_map, show Prod.snd ∘ (fun rest : List Char => ((), rest)) = id from rfl,
    Option.map_id]

theorem unapplied (size : Nat) :
    Traces code size (.absent (.sign "(")) (Phrase.absent '(') := by
  refine ⟨fun text _ _ trail => ?_, closed_trims.unapplied⟩
  change Run code .spaced _ text trail.record
    ((if text.head? = some '(' then none else some ((), text)).map Prod.snd) trail.record
  split
  next applied =>
    obtain ⟨rest, rfl⟩ := List.head?_eq_some_iff.mp applied
    exact .present (.sign rfl)
  next other =>
    refine .absent (.noSign fun rest spelled => other ?_)
    rw [spelled]
    rfl

/-- A phrase with a name is missed as its rule is, if its contents are tried as its body is. -/
theorem run_named {production : Production} {text : List Char} {trail : Trail}
    (run : Run code ((Rule.production production).manner.inside .spaced)
      (Rule.production production).body text trail.record
      ((phrase.attempt text trail).1.map Prod.snd) (phrase.attempt text trail).2.record) :
    Run code .spaced (.of production) text trail.record
      (((Phrase.named production phrase).attempt text trail).1.map Prod.snd)
      ((Phrase.named production phrase).attempt text trail).2.record := by
  rw [attempt_fst] at run
  rw [attempt_fst, read_named, trail_named]
  cases read : phrase.read text with
  | some found =>
      rw [read] at run
      exact .rule run
  | none =>
      rw [read] at run
      rw [Trail.record_miss]
      exact .noRule run ⟨rfl, by decide⟩

theorem named {production : Production} (spaced : (Rule.production production).manner = .spaced)
    (traces : Traces code size (Rule.production production).body phrase) :
    Traces code size (.of production) (Phrase.named production phrase) := by
  refine ⟨fun text less solid trail => run_named ?_, traces.trims⟩
  rw [spaced]
  exact traces.run less solid trail

/-- A lexeme is looked at as a whole, and its rule keeps to itself what is missed inside it. -/
theorem terminal {production : Production} (whole : phrase = terminal production phrase.read)
    (trims : Trims phrase)
    (runs : ∀ text record, Run code ((Rule.production production).manner.inside .spaced)
      (Rule.production production).body text record ((phrase.read text).map Prod.snd) record) :
    Traces code size (.of production) phrase := by
  refine ⟨fun text _ _ trail => ?_, trims⟩
  rw [whole]
  exact run_named (runs text trail.record)

/-! ### Sequences and choices -/

theorem regroup {third : Expression}
    (traces : Traces code size ((first >> second) >> third) phrase) :
    Traces code size (first >> second >> third) phrase :=
  ⟨fun _ less solid trail => (traces.run less solid trail).regroup, traces.trims⟩

theorem map (f : α → β) (traces : Traces code size expression phrase) :
    Traces code size expression (f <$> phrase) := by
  refine ⟨fun text less solid trail => ?_, traces.trims.map f⟩
  have run := traces.run less solid trail
  rw [attempt_fst] at run
  rw [attempt_fst, read_map, Option.map_map]
  exact run

/-- The elements of a sequence have layout between them.  What comes second has to be known
only on what the first one leaves. -/
theorem behind (combine : α → β → γ) {phrase' : Unit → Phrase β} {left : Nat}
    (traces : Traces code size first phrase) (traces' : Traces code left second (phrase' ()))
    (leaves : ∀ ⦃text rest : List Char⦄ ⦃a : α⦄, text.length < size →
      phrase.read text = some (a, rest) → rest.length < left) :
    Traces code size (first >> second) (Phrase.both combine phrase phrase') := by
  refine ⟨fun text less solid trail => ?_, traces.trims.both combine traces'.trims⟩
  have run := traces.run less solid trail
  rw [attempt_fst] at run
  rw [attempt_fst, read_both, trail_both]
  cases read : phrase.read text with
  | none =>
      rw [read] at run
      exact .noFirst run
  | some found =>
      obtain ⟨a, rest⟩ := found
      rw [read] at run
      have within := (length_skip_le rest).trans_lt (leaves less read)
      have run' := traces'.run within (skip_skip rest) (phrase.attempt text trail).2
      rw [attempt_fst] at run'
      rw [Option.bind_some, Option.map_map]
      -- the gap of the run is the layout that the phrase skips
      exact .both run (answers_layout rest _) run'

theorem both (combine : α → β → γ) {phrase' : Unit → Phrase β}
    (traces : Traces code size first phrase) (traces' : Traces code size second (phrase' ())) :
    Traces code size (first >> second) (Phrase.both combine phrase phrase') :=
  traces.behind combine traces' fun _ _ _ less read =>
    (traces.trims read).length_le.trans_lt less

theorem orElse {phrase' : Phrase α} (traces : Traces code size first phrase)
    (traces' : Traces code size second phrase') :
    Traces code size (first <|> second) (phrase <|> phrase') := by
  refine ⟨fun text less solid trail => ?_, traces.trims.orElse traces'.trims⟩
  have run := traces.run less solid trail
  have run' := traces'.run less solid (phrase.attempt text trail).2
  rw [attempt_fst] at run run'
  rw [attempt_fst, read_orElse, trail_orElse]
  cases read : phrase.read text with
  | some found =>
      rw [read] at run
      exact .left run
  | none =>
      rw [read] at run
      exact .right run run'

theorem maybe (traces : Traces code size contents phrase) :
    Traces code size (.maybe contents) (Phrase.maybe phrase) := by
  refine ⟨fun text less solid trail => ?_, traces.trims.maybe⟩
  have run := traces.run less solid trail
  simp only [Phrase.maybe]
  cases attempted : phrase.attempt text trail with
  | mk found inside =>
      rw [attempted] at run
      cases found with
      | some found => exact .maybe run
      | none => exact .leftOut run

/-! ### Lists -/

/-- **Behind the first element, a list is a repetition of commas and elements.**  Every comma
takes a character, so the number of repetitions that is allowed for is never reached. -/
theorem run_more (traces : Traces code size contents phrase) {limit : Nat} {text : List Char}
    (enough : text.length ≤ limit) (less : text.length < size) (trail : Trail) :
    Run code .spaced (.more (.sign "," >> contents)) text trail.record
      (some (attemptMany (Phrase.token "," *> phrase) limit text trail).1.2)
      (attemptMany (Phrase.token "," *> phrase) limit text trail).2.record := by
  have item : Traces code size (.sign "," >> contents) (Phrase.token "," *> phrase) :=
    (token "," size).both _ traces
  induction limit generalizing text trail with
  | zero =>
      obtain rfl := List.length_eq_zero_iff.mp (Nat.le_zero.mp enough)
      have bare : skip [] = [] := by simp [skip]
      exact .last (answers_layout [] _) (bare ▸ item.run less bare trail)
  | succ limit ih =>
      have within := length_skip_le text
      have run := item.run (within.trans_lt less) (skip_skip text) trail
      rw [attempt_fst] at run
      rw [attemptMany_fst, Phrase.readMany, trail_attemptMany_succ]
      cases read : (Phrase.token "," *> phrase).read (skip text) with
      | none =>
          rw [read] at run
          exact .last (answers_layout text _) run
      | some found =>
          obtain ⟨a, rest⟩ := found
          rw [read] at run
          -- a comma has been taken, so one repetition less is enough for the rest
          have shorter := shrinks_of_comma traces.trims read
          have others := @ih rest (by omega) (by omega)
            ((Phrase.token "," *> phrase).attempt (skip text) trail).2
          rw [attemptMany_fst] at others
          exact .more (answers_layout text _) run others

theorem commaSeparated (traces : Traces code size contents phrase) :
    Traces code size (.listed contents) (Phrase.commaSeparated phrase) := by
  have others : Traces code size (.many (.sign "," >> contents))
      (Phrase.many (Phrase.token "," *> phrase)) := by
    refine ⟨fun text less solid trail => ?_, ((trims_token ",").both _ traces.trims).many⟩
    have bare : Answers code .layout text (some (skip text)) := answers_layout text
    rw [solid] at bare
    exact (traces.run_more le_rfl less trail).many_of_more (bare trail.record)
  have whole : Traces code size (contents >> .many (.sign "," >> contents))
      (List.cons <$> phrase <*> Phrase.many (Phrase.token "," *> phrase)) :=
    (traces.map _).both _ others
  exact whole

theorem listOf (traces : Traces code size contents phrase) :
    Traces code size (.maybe (.listed contents)) (Phrase.listOf phrase) :=
  traces.commaSeparated.maybe.map _

theorem enclosed (opening closing : String) (traces : Traces code size contents phrase) :
    Traces code size (.enclosed opening closing contents)
      (Phrase.token opening *> phrase <* Phrase.token closing) := by
  have opened : Traces code size (.sign opening >> contents) (Phrase.token opening *> phrase) :=
    (token opening size).both _ traces
  have grouped : Traces code size ((.sign opening >> contents) >> .sign closing)
      (Phrase.token opening *> phrase <* Phrase.token closing) :=
    opened.both _ (token closing size)
  exact grouped.regroup

end Traces

end Datalog.Grammar
